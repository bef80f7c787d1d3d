import DataLayer.Text.Case

/- Lower case, as far as the table of shifts says it for all characters alike: every shift leads to a
   character, and to one behind the underscore, so that a separator is the lowercase form of nothing
   but itself. In ASCII a lowercase form is its own lowercase form. -/
namespace DataLayer.Text

theorem toNat_ofNat {n : Nat} (valid : n.isValidChar) : (Char.ofNat n).toNat = n := by
  rw [Char.ofNat, dif_pos valid]
  rfl

theorem lowercaseShifts_target : ∀ s ∈ lowercaseShifts,
    (0x5F : Int) < s.span.first + s.distance ∧
      (s.span.last + s.distance < (0xD800 : Int) ∨
        (0xDFFF : Int) < s.span.first + s.distance ∧
          s.span.last + s.distance < (0x110000 : Int)) := by
  decide +kernel

theorem shiftOf_cases (shifts : List Shift) (n : Nat) :
    shiftOf shifts n = 0 ∨
      ∃ s ∈ shifts, s.span.first ≤ n ∧ n ≤ s.span.last ∧ shiftOf shifts n = s.distance := by
  induction shifts with
  | nil => exact .inl rfl
  | cons s rest ih =>
    unfold shiftOf
    split
    · exact .inl rfl
    · split
      · rename_i held
        simp only [Span.holds, Bool.and_eq_true, decide_eq_true_eq] at held
        exact .inr ⟨s, List.mem_cons_self, held.1.1, held.1.2, rfl⟩
      · rcases ih with none | ⟨t, mem, found⟩
        · exact .inl none
        · exact .inr ⟨t, List.mem_cons_of_mem _ mem, found⟩

/-- A character of a lowercase form is the one that it is the form of, or lies behind the
    underscore. -/
theorem mem_lowercase {c d : Char} (mem : d ∈ lowercase c) : d = c ∨ 0x5F < d.toNat := by
  unfold lowercase at mem
  split at mem
  · have above : ['i', '\u0307'].all (0x5F < ·.toNat) = true := by decide
    exact .inr (of_decide_eq_true (List.all_eq_true.mp above d mem))
  · rw [List.mem_singleton] at mem
    subst mem
    rcases shiftOf_cases lowercaseShifts c.toNat with none | ⟨s, mem, least, most, found⟩
    · refine .inl ?_
      rw [none, Int.add_zero, Int.toNat_natCast, Char.ofNat_toNat]
    -- Some shifts lead downwards, so that only the table says how far.
    · obtain ⟨above, valid⟩ := lowercaseShifts_target s mem
      have moved : 0x5F < ((c.toNat : Int) + s.distance).toNat := by omega
      refine .inr ?_
      rw [found, toNat_ofNat]
      · exact moved
      · unfold Nat.isValidChar
        omega

theorem eq_of_mem_lowercase {c d : Char} (mem : d ∈ lowercase c) (low : d.toNat ≤ 0x5F) : d = c :=
  (mem_lowercase mem).resolve_right (Nat.not_lt.mpr low)

def IsSmall (c : Char) : Prop := c.toNat < 0x80 ∧ isUppercase c = false ∧ lowercase c = [c]

instance (c : Char) : Decidable (IsSmall c) := inferInstanceAs (Decidable (_ ∧ _))

theorem isSmall_of_mem_lowercase {c d : Char} (ascii : c.toNat < 0x80) (mem : d ∈ lowercase c) :
    IsSmall d := by
  have table : ∀ n < 0x80, (lowercase (Char.ofNat n)).all (IsSmall ·) = true := by decide +kernel
  have entry := table c.toNat ascii
  rw [Char.ofNat_toNat] at entry
  exact of_decide_eq_true (List.all_eq_true.mp entry d mem)

end DataLayer.Text
