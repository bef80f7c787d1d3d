import DataLayer.Text.Digits
import DataLayer.Text.Hex
import DataLayer.Number.Integer
import Mathlib.Algebra.Group.Nat.Defs
import Mathlib.Data.List.Induction

/- Reading numerals back. A numeral is read digit by digit from the left, so its value is that of
   all its digits but the last, times the base, plus the last. -/
namespace DataLayer.Text

theorem digitValue?_digitChar {base d : Nat} (isDigit : d < base) (small : base ≤ 16) :
    digitValue? base (Nat.digitChar d) = some d := by
  have table : ∀ d < 16, digitValue? 16 (Nat.digitChar d) = some d := by decide
  have found := table d (by omega)
  simp only [digitValue?, Option.filter_eq_some_iff] at found ⊢
  exact ⟨found.1, by simpa using isDigit⟩

theorem digitValue?_zero {base : Nat} (positive : 0 < base) : digitValue? base '0' = some 0 := by
  simp [digitValue?, Option.filter, positive]

theorem number?_singleton (base : Nat) (c : Char) : number? base [c] = digitValue? base c := by
  simp [number?]

theorem number?_concat {base : Nat} {digits : List Char} (some : digits ≠ []) (c : Char) :
    number? base (digits ++ [c]) =
      (number? base digits).bind fun n => (digitValue? base c).map (n * base + ·) := by
  simp [number?, some]

theorem number?_zeros_append {base : Nat} (positive : 0 < base) (zeros : Nat) {digits : List Char}
    (some : digits ≠ []) :
    number? base (List.replicate zeros '0' ++ digits) = number? base digits := by
  induction zeros with
  | zero => rfl
  | succ zeros ih =>
    rw [← ih, List.replicate_succ]
    simp [number?, some, digitValue?_zero positive]

theorem number?_append_zeros {base : Nat} (positive : 0 < base) (zeros : Nat)
    {digits : List Char} (some : digits ≠ []) :
    number? base (digits ++ List.replicate zeros '0') =
      (number? base digits).map (· * base ^ zeros) := by
  induction zeros with
  | zero => simp
  | succ zeros ih =>
    rw [List.replicate_succ', ← List.append_assoc, number?_concat (by simp [some]), ih,
      digitValue?_zero positive]
    cases number? base digits with
    | none => rfl
    | some n => simp [Nat.pow_succ, Nat.mul_assoc]

theorem number?_lt {base n : Nat} {digits : List Char} (read : number? base digits = some n) :
    n < base ^ digits.length := by
  induction digits using List.reverseRecOn generalizing n with
  | nil => simp [number?] at read
  | append_singleton digits c ih =>
    by_cases first : digits = []
    · subst first
      rw [List.nil_append, number?_singleton] at read
      simpa using digitValue?_lt read
    · rw [number?_concat first] at read
      obtain ⟨m, before, last⟩ := Option.bind_eq_some_iff.mp read
      obtain ⟨d, digit, rfl⟩ := Option.map_eq_some_iff.mp last
      have high := Nat.succ_le_of_lt (ih before)
      have low := digitValue?_lt digit
      calc m * base + d < (m + 1) * base := by rw [Nat.succ_mul]; omega
        _ ≤ base ^ digits.length * base := Nat.mul_le_mul_right base high
        _ = base ^ (digits ++ [c]).length := by simp [Nat.pow_succ]

theorem number?_toDigits {base : Nat} (more : 1 < base) (small : base ≤ 16) (n : Nat) :
    number? base (Nat.toDigits base n) = some n := by
  induction n using Nat.strongRecOn with
  | ind n ih =>
    by_cases one : n < base
    · rw [Nat.toDigits_of_lt_base one, number?_singleton, digitValue?_digitChar one small]
    · have fewer : n / base < n := Nat.div_lt_self (by omega) more
      have last : n % base < base := Nat.mod_lt n (by omega)
      rw [Nat.toDigits_of_base_le more (by omega), number?_concat Nat.toDigits_ne_nil,
        ih _ fewer, digitValue?_digitChar last small]
      simp [Nat.mul_comm, Nat.div_add_mod]

theorem number?_padded (width n : Nat) : number? 10 (padded width n) = some n := by
  unfold padded
  rw [number?_zeros_append (by decide) _ Nat.toDigits_ne_nil,
    number?_toDigits (by decide) (by decide)]

theorem length_padded {width n : Nat} (some : 0 < width) (fits : n < 10 ^ width) :
    (padded width n).length = width := by
  have short := (Nat.length_toDigits_le_iff (by decide) some).mpr fits
  simp only [padded, List.length_append, List.length_replicate]
  omega

theorem isDigit_of_mem_padded {width n : Nat} {c : Char} (mem : c ∈ padded width n) :
    c.isDigit = true := by
  rcases List.mem_append.mp mem with zero | digit
  · rw [List.eq_of_mem_replicate zero]
    rfl
  · exact Nat.isDigit_of_mem_toDigits (by decide) (by decide) digit

theorem padded_two {n : Nat} (fits : n < 100) :
    ∃ a b, padded 2 n = [a, b] ∧ number? 10 [a, b] = some n := by
  have length : (padded 2 n).length = 2 := length_padded (by decide) fits
  match same : padded 2 n, length with
  | [a, b], _ => exact ⟨a, b, rfl, same ▸ number?_padded 2 n⟩

theorem padded_four {n : Nat} (fits : n < 10000) :
    ∃ a b c d, padded 4 n = [a, b, c, d] ∧ number? 10 [a, b, c, d] = some n := by
  have length : (padded 4 n).length = 4 := length_padded (by decide) fits
  match same : padded 4 n, length with
  | [a, b, c, d], _ => exact ⟨a, b, c, d, rfl, same ▸ number?_padded 4 n⟩

theorem hexByte?_hexPair (byte : UInt8) :
    hexByte? (Nat.digitChar (byte.toNat / 16)) (Nat.digitChar (byte.toNat % 16)) = some byte := by
  have bound := byte.toNat_lt
  have high : byte.toNat / 16 < 16 := by omega
  have low : byte.toNat % 16 < 16 := by omega
  have unsigned : Nat.digitChar (byte.toNat / 16) ≠ '+' := by
    intro same
    have digit := digitValue?_digitChar high (Nat.le_refl 16)
    rw [same] at digit
    contradiction
  have pair : ∀ a b : Char, [a, b] = [a] ++ [b] := fun _ _ => rfl
  rw [hexByte?, if_neg unsigned, pair, number?_concat (by simp), number?_singleton,
    digitValue?_digitChar high (Nat.le_refl 16), digitValue?_digitChar low (Nat.le_refl 16)]
  simp [Nat.div_add_mod']

theorem hexBytes?_flatMap (bytes : List UInt8) :
    hexBytes? (bytes.flatMap hexPair) = some bytes := by
  induction bytes with
  | nil => rfl
  | cons byte rest ih => simp [hexPair, hexBytes?, hexByte?_hexPair, ih]

theorem ofHexText?_hexText (bytes : List UInt8) : ofHexText? (hexText bytes) = some bytes :=
  hexBytes?_flatMap bytes

end DataLayer.Text

namespace DataLayer.Number.Integer
open Text

theorem grouped?_toDigits (n : Nat) : grouped? (Nat.toDigits 10 n) = some n := by
  have plain : ∀ c ∈ Nat.toDigits 10 n, c ≠ '_' := by
    rintro c mem rfl
    exact Nat.underscore_not_in_toDigits mem
  have first : (Nat.toDigits 10 n).head? ≠ some '_' := by
    intro head
    exact plain '_' (List.mem_of_head? head) rfl
  have all : (Nat.toDigits 10 n).filter (· ≠ '_') = Nat.toDigits 10 n :=
    List.filter_eq_self.mpr fun c mem => by simpa using plain c mem
  rw [grouped?, if_neg first, all, number?_toDigits (by decide) (by decide)]

theorem ofText?_text (n : Int) : ofText? (text n) = some n := by
  unfold text ofText?
  split
  · have same : -(n.natAbs : Int) = n := by omega
    simp only [signed?, grouped?_toDigits]
    exact congrArg some same
  · have digits := grouped?_toDigits n.natAbs
    cases written : Nat.toDigits 10 n.natAbs with
    | nil => exact absurd written Nat.toDigits_ne_nil
    | cons c rest =>
      have isDigit : c.isDigit = true :=
        Nat.isDigit_of_mem_toDigits (by decide) (by decide) (written ▸ List.mem_cons_self)
      rw [written] at digits
      unfold signed?
      split
      · rename_i same
        cases same
        contradiction
      · rename_i same
        cases same
        contradiction
      · simp only [digits, Option.map_some, Option.some.injEq, Int.ofNat_eq_natCast]
        omega

end DataLayer.Number.Integer
