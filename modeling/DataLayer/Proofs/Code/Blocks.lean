import DataLayer.Proofs.Code.Indentation

/- Blocks at the left margin of a file. What steps put into a block stands further in or is blank,
   so that a block ends at the first brace at the margin. -/
namespace DataLayer.Code

theorem indented_one_ne_brace (text : String) : indented 1 text ≠ "\x7d" := by
  intro same
  unfold indented at same
  split at same
  · simp at same
  · have characters := congrArg String.toList same
    rw [String.toList_append] at characters
    simp [indentation, indentUnit] at characters

theorem brace_not_mem_of_balanced {body : List Step} (balanced : Balanced body) :
    "\x7d" ∉ (emitAll 1 body).1 := by
  rw [emitAll_of_neverBelow ((balanced_iff body).mp balanced).1 1]
  intro mem
  obtain ⟨text, _, same⟩ := List.mem_map.mp mem
  exact indented_one_ne_brace text same

/-- A block of these lines stands at the left margin, and holds these texts one level further in. -/
def HasBlock (lines : List String) (header : String) (texts : List String) : Prop :=
  ∃ before inner after, lines = before ++ (header ++ " \x7b") :: inner ++ "\x7d" :: after ∧
    "\x7d" ∉ inner ∧ ∀ text ∈ texts, indented 1 text ∈ inner

theorem hasBlock_of_places {before body after : List Step} {header : String} {texts : List String}
    (balancedBefore : Balanced before) (balancedBody : Balanced body)
    (placed : ∀ text ∈ texts, Places body text) :
    HasBlock (emitted (before ++ .block header body :: after)) header texts :=
  ⟨emitted before, (emitAll 1 body).1, emitted after, emitted_block balancedBefore balancedBody,
    brace_not_mem_of_balanced balancedBody, fun text mem => placed text mem 1⟩

def HasDefinition (lines : List String) (header : String) (body : List Step) : Prop :=
  blockLines 0 header body <:+: lines

/-- The block stands in an implementation block of the owner. -/
def HasMethod (lines : List String) (owner header : String) (body : List Step) : Prop :=
  ∃ before inner after,
    lines = before ++ ("impl " ++ owner ++ " \x7b") :: inner ++ "\x7d" :: after ∧
      "\x7d" ∉ inner ∧ blockLines 1 header body <:+: inner

theorem hasMethod_of_placesBlock {before methods after : List Step} {owner header : String}
    {body : List Step} (balancedBefore : Balanced before) (balancedMethods : Balanced methods)
    (placed : PlacesBlock methods header body) :
    HasMethod (emitted (before ++ .block ("impl " ++ owner) methods :: after)) owner header body :=
  ⟨emitted before, (emitAll 1 methods).1, emitted after,
    emitted_block balancedBefore balancedMethods, brace_not_mem_of_balanced balancedMethods,
    placed 1⟩

end DataLayer.Code
