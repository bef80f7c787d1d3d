import DataLayer.Proofs.Number.Canonical
import DataLayer.Proofs.Record.Rewriting

/- Whole numbers in a record, exactly: they are written as their canonical texts, and whatever text
   one is read from becomes canonical when it is read and written again, once and for all. -/
namespace DataLayer.Record.Codec
open Json Number Integer

section WholeNumbers
variable {s t : String} {n : Int}

def IsFormOf (n : Int) (s : String) : Prop :=
  Canonical s.toList ∧ wholeNumber.read (.string s) = .ok n

theorem wholeNumber_read_string :
    wholeNumber.read (.string s) = .ok n ↔ ofText? s.toList = some n :=
  formatted_read_string_eq_ok

theorem isFormOf_text (n : Int) : IsFormOf n (String.ofList (Integer.text n)) := by
  refine ⟨?_, wholeNumber_read_string.mpr ?_⟩
  · rw [String.toList_ofList]
    exact canonical_iff.mpr ⟨n, rfl⟩
  · rw [String.toList_ofList]
    exact ofText?_text n

theorem IsFormOf.eq_text (form : IsFormOf n s) : s = String.ofList (Integer.text n) := by
  obtain ⟨m, written⟩ := canonical_iff.mp form.1
  have read := wholeNumber_read_string.mp form.2
  rw [← written, ofText?_text] at read
  cases read
  rw [written, String.ofList_toList]

end WholeNumbers

/-- Every whole number is written as its only canonical text and read back from it. It is read from
    any spelling, and what is written then is the canonical text that the spelling stands for, which
    is not changed by being read and written again. -/
theorem wholeNumber_canonical :
    (∀ n, ∃ s, wholeNumber.write n = .ok (.string s) ∧ IsFormOf n s ∧
      ∀ t, IsFormOf n t → t = s) ∧
    (∀ s : String, (∃ n, wholeNumber.read (.string s) = .ok n) ↔ IsSpelling s.toList) ∧
    ∀ v n, wholeNumber.read v = .ok n → ∃ s t, v = .string s ∧
      wholeNumber.write n = .ok (.string t) ∧ t.toList = normal s.toList ∧ IsFormOf n t ∧
      ∀ u, wholeNumber.Rewrites (.string t) u ↔ u = .string t := by
  refine ⟨fun n => ?_, fun s => ?_, fun v n read => ?_⟩
  · exact ⟨_, rfl, isFormOf_text n, fun t form => form.eq_text⟩
  · simp only [wholeNumber_read_string, exists_ofText?_iff]
  · obtain ⟨s, rfl, given⟩ := formatted_read_eq_ok.mp read
    have rewrites : wholeNumber.Rewrites (.string s) (.string (String.ofList (Integer.text n))) :=
      ⟨n, read, rfl⟩
    refine ⟨s, _, rfl, rfl, ?_, isFormOf_text n, fun u => ?_⟩
    · rw [String.toList_ofList, text_of_ofText? given]
    · exact rewrites.settled wholeNumber_restores

end DataLayer.Record.Codec
