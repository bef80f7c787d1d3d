import DataLayer.Code.Layout
import DataLayer.Proofs.Text.Lines
import Mathlib.Data.List.Forall2

/- What documentation comments say. The lines that a description becomes hold all of its text but the
   carriage returns at the ends of lines, so that where there are no carriage returns different
   descriptions have different comments. -/
namespace DataLayer.Code
open Text

def docLine : List Char → String
  | [] => "///"
  | text => "/// " ++ String.ofList text

theorem docLines_eq (description : String) :
    docLines description =
      (splitLines description.toList).map fun line => docLine (dropReturn line) := rfl

def uncomment : List Char → List Char
  | '/' :: '/' :: '/' :: ' ' :: text => text
  | '/' :: '/' :: '/' :: text => text
  | line => line

def commentText (level : Nat) (line : String) : List Char :=
  uncomment (line.toList.drop (indentation level).toList.length)

/-- A text of which each line that ends in a carriage return has lost this one. -/
def Trimmed (s t : List Char) : Prop :=
  ∃ lines texts, s = joinLines lines ∧ t = joinLines texts ∧ (∀ line ∈ lines, '\n' ∉ line) ∧
    List.Forall₂ (fun line text =>
      line = text ++ ['\r'] ∨ line = text ∧ line.getLast? ≠ some '\r') lines texts

theorem trimmed_dropReturn (s : List Char) :
    Trimmed s (joinLines ((splitLines s).map dropReturn)) := by
  refine ⟨splitLines s, (splitLines s).map dropReturn, (joinLines_splitLines s).symm, rfl,
    fun line mem => feed_not_mem_of_mem_splitLines mem, ?_⟩
  rw [List.forall₂_map_right_iff, List.forall₂_same]
  exact fun line _ => dropReturn_cases line

theorem toList_docLine_cons (c : Char) (rest : List Char) :
    (docLine (c :: rest)).toList = "/// ".toList ++ c :: rest := by
  simp [docLine]

theorem uncomment_docLine (text : List Char) : uncomment (docLine text).toList = text := by
  cases text with
  | nil => rfl
  | cons c rest =>
    rw [toList_docLine_cons]
    rfl

theorem exists_docLine_eq (text : List Char) : ∃ rest, docLine text = "///" ++ rest := by
  cases text with
  | nil => exact ⟨"", rfl⟩
  | cons c rest =>
    refine ⟨" " ++ String.ofList (c :: rest), ?_⟩
    rw [← String.append_assoc]
    rfl

theorem feed_not_mem_docLine {text : List Char} (oneLine : '\n' ∉ text) :
    '\n' ∉ (docLine text).toList := by
  cases text with
  | nil => decide
  | cons c rest =>
    rw [toList_docLine_cons, List.mem_append, not_or]
    exact ⟨by decide, oneLine⟩

theorem indentation_blank (level : Nat) : ∀ c ∈ (indentation level).toList, c = ' ' := by
  induction level with
  | zero => simp [indentation]
  | succ level ih =>
    intro c mem
    rw [indentation, String.toList_append, List.mem_append] at mem
    rcases mem with mem | mem
    · simpa [indentUnit] using mem
    · exact ih c mem

theorem indented_docLine (level : Nat) (text : List Char) :
    indented level (docLine text) = indentation level ++ docLine text := by
  obtain ⟨rest, same⟩ := exists_docLine_eq text
  have some : (docLine text).isEmpty = false := by
    rw [Bool.eq_false_iff, Ne, String.isEmpty_iff, same]
    intro empty
    simpa using congrArg String.toList empty
  rw [indented, some, if_neg Bool.false_ne_true]

theorem commentText_indented (level : Nat) (text : List Char) :
    commentText level (indented level (docLine text)) = text := by
  rw [indented_docLine, commentText, String.toList_append, List.drop_left, uncomment_docLine]

section Lines
variable (level : Nat) (description : String)

def commentLines : List String := (docLines description).map (indented level)

theorem emit_doc :
    (Step.doc (some description)).emit level = (commentLines level description, level) := rfl

theorem commentTexts_commentLines :
    (commentLines level description).map (commentText level) =
      (splitLines description.toList).map dropReturn := by
  rw [commentLines, docLines_eq, List.map_map, List.map_map]
  exact List.map_congr_left fun line _ => commentText_indented level (dropReturn line)

theorem forall_mem_commentLines : ∀ line ∈ commentLines level description,
    '\n' ∉ line.toList ∧ ∃ rest, line = indentation level ++ "///" ++ rest := by
  intro line mem
  rw [commentLines, docLines_eq, List.map_map] at mem
  obtain ⟨source, among, rfl⟩ := List.mem_map.mp mem
  have oneLine : '\n' ∉ dropReturn source := fun feed =>
    feed_not_mem_of_mem_splitLines among (dropReturn_subset source feed)
  obtain ⟨rest, slashes⟩ := exists_docLine_eq (dropReturn source)
  rw [Function.comp_apply, indented_docLine]
  refine ⟨?_, rest, by rw [slashes, String.append_assoc]⟩
  rw [String.toList_append, List.mem_append, not_or]
  refine ⟨fun feed => ?_, feed_not_mem_docLine oneLine⟩
  exact absurd (indentation_blank level _ feed) (by decide)

theorem joinLines_commentTexts (free : '\r' ∉ description.toList) :
    joinLines ((commentLines level description).map (commentText level)) = description.toList := by
  have kept : (splitLines description.toList).map dropReturn = splitLines description.toList :=
    (List.map_congr_left fun line mem =>
      dropReturn_of_not_mem fun held => free (subset_of_mem_splitLines mem held)).trans
      (List.map_id' _)
  rw [commentTexts_commentLines, kept, joinLines_splitLines]

end Lines

/-- The lines are comments at a level that say what the description says. -/
structure Describes (level : Nat) (description : String) (lines : List String) : Prop where
  count : lines.length = description.toList.count '\n' + 1
  slashes : ∀ line ∈ lines, '\n' ∉ line.toList ∧
    ∃ rest, line = indentation level ++ "///" ++ rest
  text : Trimmed description.toList (joinLines (lines.map (commentText level)))
  unique : '\r' ∉ description.toList → ∀ other : String, '\r' ∉ other.toList →
    ((Step.doc (some other)).emit level).1 = lines → other = description

theorem emit_doc_describes (level : Nat) (description : String) :
    ∃ lines, (Step.doc (some description)).emit level = (lines, level) ∧
      Describes level description lines := by
  refine ⟨commentLines level description, emit_doc level description, ?_,
    forall_mem_commentLines level description, ?_, fun here other there same => ?_⟩
  · rw [commentLines, docLines_eq, List.length_map, List.length_map, length_splitLines]
  · rw [commentTexts_commentLines]
    exact trimmed_dropReturn description.toList
  · have same : commentLines level other = commentLines level description := same
    rw [← String.toList_inj, ← joinLines_commentTexts level other there,
      ← joinLines_commentTexts level description here, same]

end DataLayer.Code
