import DataLayer.Name
import DataLayer.Proofs.Text.Case

/- What snake case makes of a text. Whatever it looks at on its way, it writes an underscore or the
   lowercase form of the character that it is at, so that the letters of a text are all there, in
   order. In ASCII there is nothing more for it to do to what it has written. -/
namespace DataLayer.Name
open Text

/-- A text without its underscores, hyphens and spaces, in lower case. -/
def letters (s : List Char) : List Char := (s.filter (· ∉ ['_', '-', ' '])).flatMap lowercase

/-- All that is written is underscores and lowercase forms of characters that are written at all. -/
theorem forall_mem_snakeFrom {P : Char → Prop} {s : List Char} (underscore : P '_')
    (each : ∀ c ∈ s, c ≠ '-' → c ≠ ' ' → ∀ d ∈ lowercase c, P d) (before : Option Char)
    (parted : Bool) : ∀ d ∈ snakeFrom before parted s, P d := by
  induction s generalizing before parted with
  | nil => simp [snakeFrom]
  | cons c rest ih =>
    obtain ⟨here, behind⟩ := List.forall_mem_cons.mp each
    unfold snakeFrom
    split
    · refine List.forall_mem_append.mpr ⟨?_, ih behind _ _⟩
      cases parted <;> simp [underscore]
    · rename_i kept
      obtain ⟨noHyphen, noSpace⟩ := not_or.mp kept
      refine List.forall_mem_append.mpr ⟨List.forall_mem_append.mpr ⟨?_, ?_⟩, ih behind _ _⟩
      · split <;> simp [underscore]
      · exact here noHyphen noSpace

theorem not_break_of_mem_snakeCase {s : String} :
    ∀ d ∈ (snakeCase s).toList, d ≠ '-' ∧ d ≠ ' ' := by
  rw [snakeCase, String.toList_ofList]
  refine forall_mem_snakeFrom (by decide) (fun c _ noHyphen noSpace d mem => ⟨?_, ?_⟩) none false
  · rintro rfl
    exact noHyphen (eq_of_mem_lowercase mem (by decide)).symm
  · rintro rfl
    exact noSpace (eq_of_mem_lowercase mem (by decide)).symm

theorem filter_lowercase {c : Char} (plain : c ≠ '_') :
    (lowercase c).filter (· ≠ '_') = lowercase c := by
  rw [List.filter_eq_self]
  intro d mem
  have other : d ≠ '_' := by
    rintro rfl
    exact plain (eq_of_mem_lowercase mem (by decide)).symm
  simpa using other

theorem filter_snakeFrom (before : Option Char) (parted : Bool) (s : List Char) :
    (snakeFrom before parted s).filter (· ≠ '_') = letters s := by
  induction s generalizing before parted with
  | nil => rfl
  | cons c rest ih =>
    unfold snakeFrom
    by_cases broken : c = '-' ∨ c = ' '
    · have dropped : letters (c :: rest) = letters rest := by
        rcases broken with rfl | rfl <;> rfl
      rw [if_pos broken, List.filter_append, ih, dropped]
      cases parted <;> rfl
    · have mark : ∀ p : Bool, (if p then ['_'] else []).filter (· ≠ '_') = [] := by decide
      rw [if_neg broken, List.filter_append, List.filter_append, ih, mark, List.nil_append]
      by_cases underscore : c = '_'
      -- An underscore of the text itself goes with those that have been put in.
      · subst underscore
        have same : lowercase '_' = ['_'] := by decide +kernel
        rw [same]
        rfl
      · have kept : c ∉ ['_', '-', ' '] := by simpa [underscore] using broken
        have whole : letters (c :: rest) = lowercase c ++ letters rest := by
          rw [letters, List.filter_cons_of_pos (by simpa using kept), List.flatMap_cons, ← letters]
        rw [filter_lowercase underscore, whole]

theorem isSmall_of_mem_snakeCase {s : String} (ascii : ∀ c ∈ s.toList, c.toNat < 0x80) :
    ∀ d ∈ (snakeCase s).toList, IsSmall d := by
  rw [snakeCase, String.toList_ofList]
  exact forall_mem_snakeFrom (by decide +kernel)
    (fun c mem _ _ _ => isSmall_of_mem_lowercase (ascii c mem)) none false

theorem snakeFrom_of_small {s : List Char} (small : ∀ c ∈ s, IsSmall c)
    (unbroken : ∀ c ∈ s, c ≠ '-' ∧ c ≠ ' ') (before : Option Char) (parted : Bool) :
    snakeFrom before parted s = s := by
  induction s generalizing before parted with
  | nil => rfl
  | cons c rest ih =>
    obtain ⟨⟨_, noCapital, same⟩, smallRest⟩ := List.forall_mem_cons.mp small
    obtain ⟨here, unbrokenRest⟩ := List.forall_mem_cons.mp unbroken
    have opens : opensWord before c rest.head? = false := by simp [opensWord, noCapital]
    rw [snakeFrom, if_neg (not_or.mpr here), opens, same, ih smallRest unbrokenRest]
    rfl

theorem snakeCase_snakeCase {s : String} (ascii : ∀ c ∈ s.toList, c.toNat < 0x80) :
    snakeCase (snakeCase s) = snakeCase s := by
  have kept := snakeFrom_of_small (isSmall_of_mem_snakeCase ascii) not_break_of_mem_snakeCase
    none false
  rw [snakeCase, kept, String.ofList_toList]

structure KeepsLetters (s : String) : Prop where
  unbroken : '-' ∉ (snakeCase s).toList ∧ ' ' ∉ (snakeCase s).toList
  kept : (snakeCase s).toList.filter (· ≠ '_') = letters s.toList
  alike : ∀ t, snakeCase s = snakeCase t → letters s.toList = letters t.toList
  settled : (∀ c ∈ s.toList, c.toNat < 0x80) →
    (∀ d ∈ (snakeCase s).toList, d.toNat < 0x80 ∧ isUppercase d = false) ∧
      snakeCase (snakeCase s) = snakeCase s

theorem snakeCase_keepsLetters (s : String) : KeepsLetters s := by
  have kept : ∀ t, (snakeCase t).toList.filter (· ≠ '_') = letters t.toList := by
    intro t
    rw [snakeCase, String.toList_ofList, filter_snakeFrom]
  refine ⟨⟨fun mem => ?_, fun mem => ?_⟩, kept s, fun t same => ?_, fun ascii => ⟨?_, ?_⟩⟩
  · exact (not_break_of_mem_snakeCase _ mem).1 rfl
  · exact (not_break_of_mem_snakeCase _ mem).2 rfl
  · rw [← kept, ← kept, same]
  · intro d mem
    obtain ⟨small, noCapital, _⟩ := isSmall_of_mem_snakeCase ascii d mem
    exact ⟨small, noCapital⟩
  · exact snakeCase_snakeCase ascii

end DataLayer.Name
