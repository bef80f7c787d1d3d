import DataLayer.Proofs.Code.Definitions
import DataLayer.Proofs.Code.Indentation

/- Buffers that steps write into in place. What steps add to a buffer at some level are the lines of
   a fresh buffer, written once more one by one at this level, if the steps never dedent below where
   they start. So the functions of an entity's documents may be composed beside its body before it
   is known whether there are any. -/
namespace DataLayer.Code

structure Buffer where
  lines : List String
  level : Nat
  deriving DecidableEq, Repr

def lineSteps (lines : List String) : List Step := lines.map .line

namespace Buffer

def fresh : Buffer := ⟨[], 0⟩

def indent (b : Buffer) : Buffer := { b with level := b.level + 1 }

def dedent (b : Buffer) : Buffer := { b with level := b.level - 1 }

def line (b : Buffer) (text : String) : Buffer :=
  { b with lines := b.lines ++ [indented b.level text] }

mutual

def step (b : Buffer) : Step → Buffer
  | .line text => b.line text
  | .blank => { b with lines := b.lines ++ [""] }
  | .indent => b.indent
  | .dedent => b.dedent
  | .block header body => ((b.line (header ++ " \x7b")).indent.run body).dedent.line "\x7d"
  | .doc description => (description.elim [] docLines).foldl line b

def run (b : Buffer) : List Step → Buffer
  | [] => b
  | first :: rest => (b.step first).run rest

end

theorem foldl_line (b : Buffer) (texts : List String) :
    texts.foldl line b = ⟨b.lines ++ texts.map (indented b.level), b.level⟩ := by
  induction texts generalizing b with
  | nil => simp
  | cons text texts ih => simp [ih, line]

mutual

theorem step_eq (b : Buffer) : (s : Step) →
    b.step s = ⟨b.lines ++ (s.emit b.level).1, (s.emit b.level).2⟩
  | .line _ => rfl
  | .blank => rfl
  | .indent => by simp [step, indent, Step.emit]
  | .dedent => by simp [step, dedent, Step.emit]
  | .block header body => by
      simp only [step, Step.emit, indent, dedent, line, run_eq _ body, List.append_assoc,
        List.cons_append, List.nil_append]
  | .doc description => by rw [step, foldl_line, Step.emit]

theorem run_eq (b : Buffer) : (steps : List Step) →
    b.run steps = ⟨b.lines ++ (emitAll b.level steps).1, (emitAll b.level steps).2⟩
  | [] => by simp [run, emitAll]
  | first :: rest => by
      simp only [run, emitAll, run_eq _ rest, step_eq b first, List.append_assoc]

end

theorem run_append (b : Buffer) (first others : List Step) :
    b.run (first ++ others) = (b.run first).run others := by
  simp only [run_eq, emitAll_append, List.append_assoc]

theorem level_step_block (b : Buffer) (header : String) {body : List Step}
    (kept : (emitAll b.indent.level body).2 = b.indent.level) :
    (b.step (.block header body)).level = b.level := by
  rw [indent] at kept
  simp only [step_eq, Step.emit, kept, Nat.add_sub_cancel]

theorem lines_run_fresh (steps : List Step) : (fresh.run steps).lines = emitted steps := by
  rw [run_eq]
  rfl

end Buffer

theorem emitAll_lineSteps (level : Nat) (lines : List String) :
    emitAll level (lineSteps lines) = (lines.map (indented level), level) := by
  induction lines with
  | nil => rfl
  | cons line rest ih =>
    rw [lineSteps] at ih
    simp [lineSteps, emitAll, Step.emit, ih]

/-- Steps that add the same lines at every level and end at the same one. -/
def EmitAlike (a b : List Step) : Prop := ∀ level, emitAll level a = emitAll level b

section EmitAlike
variable {a b : List Step}

theorem emitAlike_refl (a : List Step) : EmitAlike a a := fun _ => rfl

theorem EmitAlike.append {c d : List Step} (first : EmitAlike a b) (others : EmitAlike c d) :
    EmitAlike (a ++ c) (b ++ d) := by
  intro level
  simp only [emitAll_append, first level, others _]

theorem EmitAlike.block (header : String) (inner : EmitAlike a b) :
    EmitAlike [.block header a] [.block header b] := by
  intro level
  simp only [emitAll, Step.emit, inner (level + 1)]

theorem emitAlike_lineSteps {steps : List Step} (balanced : Balanced steps) :
    EmitAlike (lineSteps (emitted steps)) steps := by
  intro level
  have above := ((balanced_iff steps).mp balanced).1
  rw [emitAll_lineSteps, emitAll_of_neverBelow above, balanced 0, Nat.add_zero]

end EmitAlike

theorem parted_concat (groups : List (List Step)) (group : List Step) :
    parted (groups ++ [group]) =
      if groups.isEmpty then group else parted groups ++ .blank :: group := by
  induction groups with
  | nil => rfl
  | cons first rest ih =>
    cases rest with
    | nil => rfl
    | cons second more =>
      have joined : parted (first :: second :: (more ++ [group])) =
          first ++ .blank :: parted (second :: more ++ [group]) := rfl
      rw [List.cons_append, List.cons_append, joined, ih]
      simp [parted]

theorem emitted_parted_isEmpty {groups : List (List Step)}
    (begin : ∀ group ∈ groups, ∃ text rest, group = .line text :: rest) :
    (emitted (parted groups)).isEmpty = groups.isEmpty := by
  cases groups with
  | nil => rfl
  | cons group rest =>
    obtain ⟨text, more, rfl⟩ := begin group List.mem_cons_self
    cases rest <;> rfl

namespace EntityCode

def addDocument (b : Buffer) (f : EntityField) : Buffer :=
  if f.document.isSome then
    (if b.lines.isEmpty then b else b.step .blank).run f.documentSteps
  else b

def documentBuffer (c : EntityCode) : Buffer := c.fields.foldl addDocument .fresh

def bufferedBody (c : EntityCode) : List Step :=
  let documents := c.documentBuffer.lines
  c.structSteps ++ [.blank] ++ c.registrationSteps ++
    if c.isVariant || !documents.isEmpty then
      [.blank, .block ("impl " ++ c.name)
        ((if c.isVariant then c.recordSteps ++ (if documents.isEmpty then [] else [.blank])
          else []) ++ lineSteps documents)]
    else []

def documentGroups (fields : List EntityField) : List (List Step) :=
  (fields.filter (·.document.isSome)).map EntityField.documentSteps

theorem begin_of_mem_documentGroups {fields : List EntityField} :
    ∀ group ∈ documentGroups fields, ∃ text rest, group = .line text :: rest := by
  intro group mem
  obtain ⟨f, stored, rfl⟩ := List.mem_map.mp mem
  obtain ⟨document, same⟩ := Option.isSome_iff_exists.mp (List.mem_filter.mp stored).2
  exact ⟨_, _, by rw [EntityField.documentSteps, same]⟩

theorem balanced_documentGroups (fields : List EntityField) :
    Balanced (parted (documentGroups fields)) := by
  refine balanced_parted fun group mem => ?_
  obtain ⟨f, _, rfl⟩ := List.mem_map.mp mem
  exact f.balanced_documentSteps

theorem documentGroups_concat (fields : List EntityField) (f : EntityField) :
    documentGroups (fields ++ [f]) =
      documentGroups fields ++ if f.document.isSome then [f.documentSteps] else [] := by
  rw [documentGroups, List.filter_append, List.map_append, documentGroups]
  cases stored : f.document.isSome <;> simp [stored]

theorem foldl_addDocument (fields : List EntityField) :
    fields.foldl addDocument .fresh = Buffer.fresh.run (parted (documentGroups fields)) := by
  -- from the last field, since each is added behind what is in the buffer
  induction fields using List.reverseRecOn with
  | nil => rfl
  | append_singleton fields f ih =>
    rw [List.foldl_append, List.foldl_cons, List.foldl_nil, ih, addDocument,
      Buffer.lines_run_fresh, emitted_parted_isEmpty begin_of_mem_documentGroups,
      documentGroups_concat]
    cases f.document.isSome with
    | false => rw [if_neg Bool.false_ne_true, if_neg Bool.false_ne_true, List.append_nil]
    | true =>
      rw [if_pos rfl, if_pos rfl, parted_concat]
      cases groups : documentGroups fields with
      | nil => rfl
      | cons first rest =>
        exact (Buffer.run_append .fresh (parted (first :: rest)) (.blank :: f.documentSteps)).symm

theorem lines_documentBuffer (c : EntityCode) :
    c.documentBuffer.lines = emitted (parted (documentGroups c.fields)) := by
  rw [documentBuffer, foldl_addDocument, Buffer.lines_run_fresh]

theorem isEmpty_methodGroups (c : EntityCode) :
    c.methodGroups.isEmpty = !(c.isVariant || !c.documentBuffer.lines.isEmpty) := by
  rw [lines_documentBuffer, emitted_parted_isEmpty begin_of_mem_documentGroups]
  cases variant : c.isVariant <;> simp [methodGroups, documentGroups, variant]

theorem bufferedMethods_alike (c : EntityCode) :
    EmitAlike
      ((if c.isVariant then
          c.recordSteps ++ (if c.documentBuffer.lines.isEmpty then [] else [.blank]) else []) ++
        lineSteps c.documentBuffer.lines)
      (parted c.methodGroups) := by
  have documents := emitAlike_lineSteps (balanced_documentGroups c.fields)
  have split : c.methodGroups =
      (if c.isVariant then [c.recordSteps] else []) ++ documentGroups c.fields := rfl
  rw [lines_documentBuffer, emitted_parted_isEmpty begin_of_mem_documentGroups, split]
  cases c.isVariant with
  | false => exact documents
  | true =>
    rw [if_pos rfl, if_pos rfl]
    cases groups : documentGroups c.fields with
    | nil =>
      intro level
      simp [parted, lineSteps, emitted, emitAll]
    | cons first rest =>
      rw [groups] at documents
      exact (emitAlike_refl (c.recordSteps ++ [.blank])).append documents

theorem bufferedBody_alike (c : EntityCode) : EmitAlike c.bufferedBody c.body := by
  refine (emitAlike_refl (c.structSteps ++ [.blank] ++ c.registrationSteps)).append ?_
  rw [isEmpty_methodGroups]
  cases c.isVariant || !c.documentBuffer.lines.isEmpty with
  | false => exact emitAlike_refl []
  | true =>
    have methods := c.bufferedMethods_alike.block ("impl " ++ c.name)
    exact (emitAlike_refl [.blank]).append methods

end EntityCode

/-- What steps that never dedent below their start add to a buffer is what a fresh buffer has of
    them, written once more at the level of the buffer. A block leaves the level as it was if its
    body is balanced, by the count of its moves or by where it ends. An entity reads the same with
    the functions of its documents composed beside it. -/
theorem sideBuffers_recompose :
    (∀ steps, NeverBelow steps → ∀ b : Buffer,
      (b.run steps).lines = (b.run (lineSteps (Buffer.fresh.run steps).lines)).lines ∧
      (b.run steps).level = b.level + (Buffer.fresh.run steps).level) ∧
    (∀ header body (b : Buffer), StaysAbove b.indent.level (movesOf body) →
      (movesOf body).sum = 0 → (b.step (.block header body)).level = b.level) ∧
    (∀ header body (b : Buffer), (b.indent.run body).level = b.indent.level →
      (b.step (.block header body)).level = b.level) ∧
    ∀ c : EntityCode, (Buffer.fresh.run c.bufferedBody).lines = emitted c.body := by
  refine ⟨fun steps above b => ?_, fun header body b above even => ?_,
    fun header body b kept => ?_, fun c => ?_⟩
  · rw [Buffer.lines_run_fresh, Buffer.run_eq, Buffer.run_eq, Buffer.run_eq, emitAll_lineSteps,
      emitAll_of_neverBelow above]
    exact ⟨rfl, rfl⟩
  · have finish := (level_eq_iff b.indent.level body).mpr above
    rw [even, Int.add_zero] at finish
    exact b.level_step_block header (Int.ofNat.inj finish)
  · rw [Buffer.run_eq] at kept
    exact b.level_step_block header kept
  · rw [Buffer.lines_run_fresh, emitted, c.bufferedBody_alike 0]
    rfl

def listingSteps : List Step :=
  [.line "let all = [", .indent, .doc (some "first\n\nlast"), .blank, .line "",
    .block "one" [.line "1", .indent, .line "2", .dedent], .dedent, .line "];"]

def openedSteps : List Step :=
  [.line "mod m \x7b", .indent, .block "fn all()" listingSteps, .line "more"]

theorem openedSteps_recompose :
    let b : Buffer := ⟨["pub use m;"], 2⟩
    NeverBelow openedSteps ∧
      (b.run openedSteps).lines =
        (b.run (lineSteps (Buffer.fresh.run openedSteps).lines)).lines ∧
      (b.run openedSteps).level = b.level + (Buffer.fresh.run openedSteps).level ∧
    StaysAbove b.indent.level (movesOf listingSteps) ∧ (movesOf listingSteps).sum = 0 ∧
      (b.step (.block "fn all()" listingSteps)).level = b.level ∧
    (b.indent.run listingSteps).level = b.indent.level ∧
      (b.step (.block "fn more()" listingSteps)).level = b.level := by
  intro b
  obtain ⟨taken, counted, ended, _⟩ := sideBuffers_recompose
  have above : NeverBelow openedSteps := by decide
  have inside : StaysAbove b.indent.level (movesOf listingSteps) := by decide
  have even : (movesOf listingSteps).sum = 0 := by decide
  have kept : (b.indent.run listingSteps).level = b.indent.level := by rw [Buffer.run_eq]; decide
  obtain ⟨lines, level⟩ := taken openedSteps above b
  exact ⟨above, lines, level, inside, even, counted "fn all()" listingSteps b inside even, kept,
    ended "fn more()" listingSteps b kept⟩

end DataLayer.Code
