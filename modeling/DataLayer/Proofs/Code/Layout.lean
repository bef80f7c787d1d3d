import DataLayer.Code.Item

/- Where the lines of steps stand. Steps that end at the level at which they start leave the lines
   behind them where they are, so that a block at the left margin is found among the lines of a file
   with its header and its closing brace, and what it holds is one level further in. -/
namespace DataLayer.Code

theorem unlines_append (a b : List String) : unlines (a ++ b) = unlines a ++ unlines b := by
  rw [unlines, List.map_append, String.join_append]
  rfl

theorem indented_zero (text : String) : indented 0 text = text := by
  unfold indented
  split
  · rename_i empty
    simpa using empty
  · simp [indentation]

section Levels
variable (level : Nat) (rest : List Step)

@[simp] theorem level_append (a b : List Step) :
    (emitAll level (a ++ b)).2 = (emitAll (emitAll level a).2 b).2 := by
  rw [emitAll_append]

@[simp] theorem level_nil : (emitAll level []).2 = level := by simp [emitAll]

@[simp] theorem level_line (text : String) :
    (emitAll level (.line text :: rest)).2 = (emitAll level rest).2 := by
  simp [emitAll, Step.emit]

@[simp] theorem level_blank : (emitAll level (.blank :: rest)).2 = (emitAll level rest).2 := by
  simp [emitAll, Step.emit]

@[simp] theorem level_doc (description : Option String) :
    (emitAll level (.doc description :: rest)).2 = (emitAll level rest).2 := by
  simp [emitAll, Step.emit]

@[simp] theorem level_indent :
    (emitAll level (.indent :: rest)).2 = (emitAll (level + 1) rest).2 := by
  simp [emitAll, Step.emit]

@[simp] theorem level_dedent :
    (emitAll level (.dedent :: rest)).2 = (emitAll (level - 1) rest).2 := by
  simp [emitAll, Step.emit]

@[simp] theorem level_block (header : String) (body : List Step) :
    (emitAll level (.block header body :: rest)).2 =
      (emitAll ((emitAll (level + 1) body).2 - 1) rest).2 := by
  simp [emitAll, Step.emit]

end Levels

def Balanced (steps : List Step) : Prop := ∀ level, (emitAll level steps).2 = level

@[simp] theorem balanced_line (text : String) : Balanced [.line text] := by
  intro level
  simp

@[simp] theorem balanced_blank : Balanced [.blank] := by
  intro level
  simp

@[simp] theorem balanced_doc (description : Option String) : Balanced [.doc description] := by
  intro level
  simp

theorem balanced_block {header : String} {body : List Step} (balanced : Balanced body) :
    Balanced [.block header body] := by
  intro level
  simp [balanced (level + 1)]

theorem balanced_map {α : Type} {f : α → Step} {xs : List α}
    (isLine : ∀ x, ∃ text, f x = .line text) : Balanced (xs.map f) := by
  intro level
  induction xs with
  | nil => simp
  | cons x xs ih =>
    obtain ⟨text, same⟩ := isLine x
    simpa [same] using ih

theorem balanced_flatMap {α : Type} {f : α → List Step} {xs : List α}
    (each : ∀ x ∈ xs, Balanced (f x)) : Balanced (xs.flatMap f) := by
  intro level
  induction xs with
  | nil => simp
  | cons x xs ih =>
    have first := each x List.mem_cons_self level
    have others := ih fun y mem => each y (List.mem_cons_of_mem _ mem)
    simp [first, others]

theorem balanced_parted {groups : List (List Step)} (each : ∀ g ∈ groups, Balanced g) :
    Balanced (parted groups) := by
  intro level
  induction groups with
  | nil => simp [parted]
  | cons g rest ih =>
    have first := each g List.mem_cons_self level
    have others := ih fun h mem => each h (List.mem_cons_of_mem _ mem)
    cases rest with
    | nil => simpa [parted] using first
    | cons h more => simpa [parted, first] using others

theorem balanced_of_each {steps : List Step} (each : ∀ step ∈ steps, Balanced [step]) :
    Balanced steps := by
  have separate : steps.flatMap (fun step => [step]) = steps := by simp
  rw [← separate]
  exact balanced_flatMap each

theorem emitted_block {before body after : List Step} {header : String}
    (balancedBefore : Balanced before) (balancedBody : Balanced body) :
    emitted (before ++ .block header body :: after) =
      emitted before ++ (header ++ " \x7b") :: (emitAll 1 body).1 ++ "\x7d" :: emitted after := by
  have start := balancedBefore 0
  have finish := balancedBody 1
  simp [emitted, emitAll_append, emitAll, Step.emit, start, finish, indented_zero]

/-- The text is a line of the steps, at the level at which these start. -/
def Places (steps : List Step) (text : String) : Prop :=
  ∀ level, indented level text ∈ (emitAll level steps).1

theorem Places.append_left {a b : List Step} {text : String} (placed : Places a text) :
    Places (a ++ b) text := by
  intro level
  rw [emitAll_append]
  exact List.mem_append_left _ (placed level)

theorem Places.append_right {a b : List Step} {text : String} (balanced : Balanced a)
    (placed : Places b text) : Places (a ++ b) text := by
  intro level
  rw [emitAll_append, balanced level]
  exact List.mem_append_right _ (placed level)

theorem places_block {header : String} {body rest : List Step} :
    Places (.block header body :: rest) (header ++ " \x7b") := by
  intro level
  simp [emitAll, Step.emit]

theorem Places.behind {step : Step} {rest : List Step} {text : String}
    (balanced : Balanced [step]) (placed : Places rest text) : Places (step :: rest) text :=
  Places.append_right balanced placed

theorem places_parted {group : List Step} {rest : List (List Step)} {text : String}
    (placed : Places group text) : Places (parted (group :: rest)) text := by
  cases rest with
  | nil => exact placed
  | cons next more => exact placed.append_left

def blockLines (level : Nat) (header : String) (body : List Step) : List String :=
  indented level (header ++ " \x7b") ::
    ((emitAll (level + 1) body).1 ++ [indented level "\x7d"])

theorem emit_block {header : String} {body : List Step} (balanced : Balanced body) (level : Nat) :
    (Step.block header body).emit level = (blockLines level header body, level) := by
  simp [Step.emit, blockLines, balanced (level + 1)]

/-- The lines of the block stand together among those of the steps, at the level at which these
    start. -/
def PlacesBlock (steps : List Step) (header : String) (body : List Step) : Prop :=
  ∀ level, blockLines level header body <:+: (emitAll level steps).1

section PlacesBlock
variable {header : String} {body : List Step}

theorem PlacesBlock.append_left {a b : List Step} (placed : PlacesBlock a header body) :
    PlacesBlock (a ++ b) header body := by
  intro level
  rw [emitAll_append]
  exact (placed level).trans (List.prefix_append _ _).isInfix

theorem PlacesBlock.append_right {a b : List Step} (balanced : Balanced a)
    (placed : PlacesBlock b header body) : PlacesBlock (a ++ b) header body := by
  intro level
  rw [emitAll_append, balanced level]
  exact (placed level).trans (List.suffix_append _ _).isInfix

theorem placesBlock_of_mem {steps : List Step} (each : ∀ step ∈ steps, Balanced [step])
    (balanced : Balanced body) (mem : .block header body ∈ steps) :
    PlacesBlock steps header body := by
  obtain ⟨before, after, rfl⟩ := List.append_of_mem mem
  have start : Balanced before :=
    balanced_of_each fun step earlier => each step (List.mem_append_left _ earlier)
  refine PlacesBlock.append_right start fun level => ?_
  rw [emitAll, emit_block balanced]
  exact (List.prefix_append _ _).isInfix

theorem placesBlock_parted {group : List Step} {rest : List (List Step)}
    (placed : PlacesBlock group header body) :
    PlacesBlock (parted (group :: rest)) header body := by
  cases rest with
  | nil => exact placed
  | cons next more => exact placed.append_left

end PlacesBlock

end DataLayer.Code
