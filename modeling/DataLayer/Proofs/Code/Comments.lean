import DataLayer.Proofs.Code.DocComments
import DataLayer.Proofs.Code.Layout
import DataLayer.Text.Blank

/- The lines that are left of a text when its documentation comments are deleted. What a description
   adds to the lines of steps is among what is deleted, whatever characters it has, and the level at
   which the next step runs does not depend on it. -/
namespace DataLayer.Code
open Text

def isComment (line : List Char) : Bool := "///".toList.isPrefixOf (trimStart line)

/-- The lines of a text without its comments. -/
def uncommented (text : String) : List (List Char) :=
  (splitLines text.toList).filter (!isComment ·)

theorem uncommented_unlines (lines : List String) :
    uncommented (unlines lines) = lines.flatMap uncommented ++ uncommented "" := by
  induction lines with
  | nil => rfl
  | cons line rest ih =>
    have parted : (unlines (line :: rest)).toList =
        line.toList ++ '\n' :: (unlines rest).toList := by
      simp [unlines]
    rw [uncommented, parted, splitLines_append_feed, List.filter_append, List.flatMap_cons,
      List.append_assoc, ← ih]
    rfl

theorem renderText_eq_unlines {header body : List String} (someHeader : header ≠ [])
    (someBody : body ≠ []) : renderText header body = unlines (header ++ "" :: body) := by
  have some : (header.isEmpty || body.isEmpty) = false := by simp [someHeader, someBody]
  have parting : unlines ("" :: body) = "\n" ++ unlines body := by simp [unlines]
  rw [renderText, some, unlines_append, parting, ← String.append_assoc]
  rfl

theorem uncommented_renderText {header body other : List String} (someHeader : header ≠ [])
    (here : body ≠ []) (there : other ≠ [])
    (same : body.flatMap uncommented = other.flatMap uncommented) :
    uncommented (renderText header body) = uncommented (renderText header other) := by
  rw [renderText_eq_unlines someHeader here, renderText_eq_unlines someHeader there,
    uncommented_unlines, uncommented_unlines]
  simp only [List.flatMap_append, List.flatMap_cons, same]

theorem trimStart_append_of_blank {blank : List Char} (each : ∀ c ∈ blank, c = ' ')
    (rest : List Char) : trimStart (blank ++ rest) = trimStart rest := by
  refine List.dropWhile_append_of_pos fun c mem => ?_
  rw [each c mem]
  decide

theorem uncommented_of_slashes {line rest : String} {level : Nat} (oneLine : '\n' ∉ line.toList)
    (slashes : line = indentation level ++ "///" ++ rest) : uncommented line = [] := by
  have characters : line.toList = (indentation level).toList ++ ("///".toList ++ rest.toList) := by
    rw [slashes, String.toList_append, String.toList_append, List.append_assoc]
  have comment : isComment line.toList = true := by
    rw [characters, isComment, trimStart_append_of_blank (indentation_blank level)]
    rfl
  rw [uncommented, splitLines_of_not_mem oneLine,
    List.filter_cons_of_neg (by rw [comment]; decide), List.filter_nil]

mutual

def Step.undescribed : Step → Step
  | .block header body => .block header (undescribedAll body)
  | .doc _ => .doc none
  | .line text => .line text
  | .blank => .blank
  | .indent => .indent
  | .dedent => .dedent

def undescribedAll : List Step → List Step
  | [] => []
  | step :: rest => step.undescribed :: undescribedAll rest

end

section Undescribed
variable {α β : Type}

@[simp] theorem undescribedAll_append (a b : List Step) :
    undescribedAll (a ++ b) = undescribedAll a ++ undescribedAll b := by
  induction a with
  | nil => rfl
  | cons step rest ih => simp [undescribedAll, ih]

theorem undescribedAll_flatMap (f : α → List Step) (xs : List α) :
    undescribedAll (xs.flatMap f) = xs.flatMap fun x => undescribedAll (f x) := by
  induction xs with
  | nil => rfl
  | cons x xs ih => simp [ih]

@[simp] theorem undescribedAll_lines (f : α → String) (xs : List α) :
    undescribedAll (xs.map fun x => .line (f x)) = xs.map fun x => .line (f x) := by
  induction xs with
  | nil => rfl
  | cons x xs ih => simp [undescribedAll, Step.undescribed, ih]

end Undescribed

def DifferInComments (a b : List String × Nat) : Prop :=
  a.2 = b.2 ∧ a.1.flatMap uncommented = b.1.flatMap uncommented

mutual

theorem emit_undescribed (level : Nat) :
    (step : Step) → DifferInComments (step.undescribed.emit level) (step.emit level)
  | .block header body => by
      obtain ⟨levels, lines⟩ := emitAll_undescribed (level + 1) body
      simp only [DifferInComments, Step.undescribed, Step.emit, List.flatMap_cons,
        List.flatMap_append, levels, lines, true_and]
  | .doc none => ⟨rfl, rfl⟩
  | .doc (some description) => by
      refine ⟨rfl, ?_⟩
      have deleted : (commentLines level description).flatMap uncommented = [] := by
        rw [List.flatMap_eq_nil_iff]
        intro line mem
        obtain ⟨oneLine, rest, slashes⟩ := forall_mem_commentLines level description line mem
        exact uncommented_of_slashes oneLine slashes
      exact deleted.symm
  | .line text => ⟨rfl, rfl⟩
  | .blank => ⟨rfl, rfl⟩
  | .indent => ⟨rfl, rfl⟩
  | .dedent => ⟨rfl, rfl⟩

theorem emitAll_undescribed (level : Nat) :
    (steps : List Step) →
      DifferInComments (emitAll level (undescribedAll steps)) (emitAll level steps)
  | [] => ⟨rfl, rfl⟩
  | step :: rest => by
      obtain ⟨first, here⟩ := emit_undescribed level step
      obtain ⟨last, there⟩ := emitAll_undescribed (step.emit level).2 rest
      simp only [DifferInComments, undescribedAll, emitAll, List.flatMap_append, first, last, here,
        there, and_self]

end

end DataLayer.Code
