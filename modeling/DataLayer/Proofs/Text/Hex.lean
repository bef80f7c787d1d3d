import DataLayer.Proofs.Text.Numerals
import Mathlib.Algebra.Group.Nat.Even

/- Bytes as text, exactly. What is written is two small digits for each byte. What is read is two
   digits of either case for each byte, and a plus sign may stand for the first of the two, because
   a pair is read as a number and a number may have a sign. -/
namespace DataLayer.Text

def smallHexDigits : List Char := "0123456789abcdef".toList

/-- The two digits of each byte in turn, that of the high half first. -/
inductive HexForm : List UInt8 → List Char → Prop
  | nil : HexForm [] []
  | cons {byte : UInt8} {rest : List UInt8} {high low : Char} {digits : List Char}
      (isHigh : smallHexDigits[(byte >>> 4).toNat]? = some high)
      (isLow : smallHexDigits[(byte &&& 0x0f).toNat]? = some low) (behind : HexForm rest digits) :
      HexForm (byte :: rest) (high :: low :: digits)

def IsHexDigit (c : Char) : Prop :=
  '0' ≤ c ∧ c ≤ '9' ∨ 'a' ≤ c ∧ c ≤ 'f' ∨ 'A' ≤ c ∧ c ≤ 'F'

instance (c : Char) : Decidable (IsHexDigit c) := inferInstanceAs (Decidable (_ ∨ _))

/-- An even number of characters, each of which is a digit or the first of a pair and a plus. -/
def IsHexBody (digits : List Char) : Prop :=
  Even digits.length ∧
    ∀ (i : Nat) (c : Char), digits[i]? = some c → IsHexDigit c ∨ c = '+' ∧ Even i

def IsHexText (s : List Char) : Prop := ∃ digits, s = '0' :: 'x' :: digits ∧ IsHexBody digits

def writtenHex (c : Char) : Char := if c = '+' then '0' else c.toLower

section Writing

theorem smallHexDigits_getElem? {d : Nat} (small : d < 16) :
    smallHexDigits[d]? = some (Nat.digitChar d) := by
  have table : ∀ d < 16, smallHexDigits[d]? = some (Nat.digitChar d) := by decide
  exact table d small

theorem toNat_highHalf (byte : UInt8) : (byte >>> 4).toNat = byte.toNat / 16 := by
  simp [Nat.shiftRight_eq_div_pow]

theorem toNat_lowHalf (byte : UInt8) : (byte &&& 0x0f).toNat = byte.toNat % 16 := by
  simpa using Nat.and_two_pow_sub_one_eq_mod byte.toNat 4

theorem hexForm_flatMap (data : List UInt8) : HexForm data (data.flatMap hexPair) := by
  induction data with
  | nil => exact .nil
  | cons byte rest ih =>
    have bound := byte.toNat_lt
    refine .cons ?_ ?_ ih
    · rw [toNat_highHalf]
      exact smallHexDigits_getElem? (by omega)
    · rw [toNat_lowHalf]
      exact smallHexDigits_getElem? (by omega)

end Writing

section Reading
variable {c high low : Char} {n : Nat} {digits : List Char}

theorem IsHexDigit.ascii (digit : IsHexDigit c) : c.toNat < 0x80 := by
  have within : ∀ {last : Char}, c ≤ last → last.toNat < 0x80 → c.toNat < 0x80 :=
    fun le small => Nat.lt_of_le_of_lt le small
  rcases digit with ⟨_, le⟩ | ⟨_, le⟩ | ⟨_, le⟩
  · exact within le (by decide)
  · exact within le (by decide)
  · exact within le (by decide)

theorem isHexDigit_iff : IsHexDigit c ↔ ∃ n, digitValue? 16 c = some n := by
  constructor
  · intro digit
    have table : ∀ k < 0x80, IsHexDigit (Char.ofNat k) →
        (digitValue? 16 (Char.ofNat k)).isSome = true := by decide +kernel
    have known := table c.toNat digit.ascii
    rw [Char.ofNat_toNat] at known
    exact Option.isSome_iff_exists.mp (known digit)
  · rintro ⟨n, digit⟩
    obtain ⟨digit, -⟩ := Option.filter_eq_some_iff.mp digit
    unfold IsHexDigit
    split at digit
    · exact .inl ‹_›
    · split at digit
      · exact .inr (.inl ‹_›)
      · split at digit
        · exact .inr (.inr ‹_›)
        · contradiction

theorem digitChar_of_digitValue? (digit : digitValue? 16 c = some n) :
    Nat.digitChar n = c.toLower := by
  have table : ∀ k < 0x80, ∀ n < 16, digitValue? 16 (Char.ofNat k) = some n →
      Nat.digitChar n = (Char.ofNat k).toLower := by decide +kernel
  have ascii := (isHexDigit_iff.mpr ⟨n, digit⟩).ascii
  have known := table c.toNat ascii n (digitValue?_lt digit)
  rw [Char.ofNat_toNat] at known
  exact known digit

theorem not_isHexDigit_plus : ¬ IsHexDigit '+' := by decide

theorem writtenHex_of_digit (digit : digitValue? 16 c = some n) :
    writtenHex c = Nat.digitChar n := by
  have unsigned : c ≠ '+' := by
    rintro rfl
    contradiction
  rw [writtenHex, if_neg unsigned, digitChar_of_digitValue? digit]

theorem isHexBody_nil : IsHexBody [] := ⟨by decide, by simp⟩

theorem not_isHexBody_singleton : ¬ IsHexBody [c] := by
  rintro ⟨even, -⟩
  exact absurd even (by simp)

theorem isHexBody_cons_cons :
    IsHexBody (high :: low :: digits) ↔
      (IsHexDigit high ∨ high = '+') ∧ IsHexDigit low ∧ IsHexBody digits := by
  have shifted : ∀ i : Nat, Even (i + 2) ↔ Even i := by
    intro i
    rw [Nat.even_iff, Nat.even_iff]
    omega
  constructor
  · rintro ⟨even, each⟩
    have first := each 0 high rfl
    have second := each 1 low rfl
    refine ⟨first.imp_right And.left, second.resolve_right (by simp), (shifted _).mp even, ?_⟩
    intro i c there
    exact (each (i + 2) c there).imp_right (And.imp_right (shifted i).mp)
  · rintro ⟨first, second, even, each⟩
    refine ⟨(shifted _).mpr even, fun i c there => ?_⟩
    match i, there with
    | 0, rfl => exact first.imp_right fun plus => ⟨plus, by decide⟩
    | 1, rfl => exact .inl second
    | i + 2, there => exact (each i c there).imp_right (And.imp_right (shifted i).mpr)

theorem IsHexBody.ascii (body : IsHexBody digits) : ∀ c ∈ digits, c.toNat < 0x80 := by
  intro c mem
  obtain ⟨i, there⟩ := List.getElem?_of_mem mem
  rcases body.2 i c there with digit | ⟨rfl, _⟩
  · exact digit.ascii
  · decide

theorem hexByte?_eq_some_iff {byte : UInt8} :
    hexByte? high low = some byte ↔ ∃ l, digitValue? 16 low = some l ∧
      (high = '+' ∧ UInt8.ofNat l = byte ∨
        ∃ h, digitValue? 16 high = some h ∧ UInt8.ofNat (h * 16 + l) = byte) := by
  by_cases signed : high = '+'
  · subst signed
    have noDigit : digitValue? 16 '+' = none := by decide
    simp [hexByte?, number?_singleton, noDigit]
  · have pair : [high, low] = [high] ++ [low] := rfl
    rw [hexByte?, if_neg signed, pair, number?_concat (by simp), number?_singleton]
    cases digitValue? 16 high <;> cases digitValue? 16 low <;> simp [signed]

theorem exists_hexByte?_iff :
    (∃ byte, hexByte? high low = some byte) ↔
      (IsHexDigit high ∨ high = '+') ∧ IsHexDigit low := by
  simp only [hexByte?_eq_some_iff, isHexDigit_iff]
  constructor
  · rintro ⟨byte, l, second, ⟨plus, _⟩ | ⟨h, first, _⟩⟩
    · exact ⟨.inr plus, l, second⟩
    · exact ⟨.inl ⟨h, first⟩, l, second⟩
  · rintro ⟨⟨h, first⟩ | plus, l, second⟩
    · exact ⟨_, l, second, .inr ⟨h, first, rfl⟩⟩
    · exact ⟨_, l, second, .inl ⟨plus, rfl⟩⟩

theorem hexPair_ofNat {h l : Nat} (high : h < 16) (low : l < 16) :
    hexPair (UInt8.ofNat (h * 16 + l)) = [Nat.digitChar h, Nat.digitChar l] := by
  have small : (UInt8.ofNat (h * 16 + l)).toNat = h * 16 + l := by
    rw [UInt8.toNat_ofNat']
    omega
  have first : (h * 16 + l) / 16 = h := by omega
  have second : (h * 16 + l) % 16 = l := by omega
  rw [hexPair, small, first, second]

theorem hexPair_of_hexByte? {byte : UInt8} (read : hexByte? high low = some byte) :
    hexPair byte = [writtenHex high, writtenHex low] := by
  obtain ⟨l, second, ⟨rfl, rfl⟩ | ⟨h, first, rfl⟩⟩ := hexByte?_eq_some_iff.mp read
  · have pair := hexPair_ofNat (h := 0) (by decide) (digitValue?_lt second)
    rw [Nat.zero_mul, Nat.zero_add] at pair
    rw [pair, writtenHex_of_digit second]
    rfl
  · rw [hexPair_ofNat (digitValue?_lt first) (digitValue?_lt second), writtenHex_of_digit first,
      writtenHex_of_digit second]

theorem exists_eq_singleton (some : digits = [] → False)
    (single : ∀ high low rest, digits = high :: low :: rest → False) : ∃ c, digits = [c] := by
  cases digits with
  | nil => exact (some rfl).elim
  | cons c rest =>
    cases rest with
    | nil => exact ⟨c, rfl⟩
    | cons low rest => exact (single c low rest rfl).elim

theorem exists_hexBytes?_iff : (∃ data, hexBytes? digits = some data) ↔ IsHexBody digits := by
  fun_induction hexBytes? digits with
  | case1 => simp [isHexBody_nil]
  | case2 high low rest ih =>
    rw [isHexBody_cons_cons, ← ih, ← and_assoc, ← exists_hexByte?_iff]
    simp [Option.bind_eq_some_iff]
  | case3 digits some single =>
    obtain ⟨c, rfl⟩ := exists_eq_singleton some single
    simp [not_isHexBody_singleton]

theorem hexBytes?_eq_none (unread : ¬ IsHexBody digits) : hexBytes? digits = none := by
  by_contra some
  exact unread (exists_hexBytes?_iff.mp (Option.ne_none_iff_exists'.mp some))

theorem flatMap_hexPair_of_hexBytes? {data : List UInt8} (read : hexBytes? digits = some data) :
    data.flatMap hexPair = digits.map writtenHex := by
  fun_induction hexBytes? digits generalizing data with
  | case1 =>
    cases read
    rfl
  | case2 high low rest ih =>
    obtain ⟨byte, first, read⟩ := Option.bind_eq_some_iff.mp read
    obtain ⟨others, behind, same⟩ := Option.bind_eq_some_iff.mp read
    cases same
    rw [List.flatMap_cons, hexPair_of_hexByte? first, ih behind]
    rfl
  | case3 => contradiction

theorem exists_ofHexText?_iff {s : List Char} :
    (∃ data, ofHexText? s = some data) ↔ IsHexText s := by
  unfold ofHexText?
  split
  · rename_i digits
    rw [exists_hexBytes?_iff]
    simp [IsHexText]
  · rename_i unmarked
    refine iff_of_false (by simp) ?_
    rintro ⟨digits, marked, _⟩
    exact unmarked digits marked

theorem ofHexText?_eq_none {s : List Char} (unread : ¬ IsHexText s) : ofHexText? s = none := by
  by_contra some
  exact unread (exists_ofHexText?_iff.mp (Option.ne_none_iff_exists'.mp some))

theorem hexText_of_ofHexText? {s : List Char} {data : List UInt8}
    (read : ofHexText? s = some data) : hexText data = s.map writtenHex := by
  unfold ofHexText? at read
  split at read
  · rw [hexText, flatMap_hexPair_of_hexBytes? read]
    rfl
  · contradiction

/-- Without a plus sign, a text is read if it has an even number of digits behind the mark. -/
theorem isHexText_iff_of_unsigned {s : List Char} (unsigned : '+' ∉ s) :
    IsHexText s ↔ ∃ digits, s = '0' :: 'x' :: digits ∧ Even digits.length ∧
      ∀ c ∈ digits, IsHexDigit c := by
  refine exists_congr fun digits => and_congr_right ?_
  rintro rfl
  refine and_congr_right fun _ => ?_
  constructor
  · intro each c mem
    obtain ⟨i, there⟩ := List.getElem?_of_mem mem
    refine (each i c there).resolve_right ?_
    rintro ⟨rfl, _⟩
    exact unsigned (List.mem_cons_of_mem _ (List.mem_cons_of_mem _ mem))
  · intro each i c there
    exact .inl (each c (List.mem_of_getElem? there))

theorem map_writtenHex_of_unsigned {s : List Char} (unsigned : '+' ∉ s) :
    s.map writtenHex = s.map Char.toLower := by
  refine List.map_congr_left fun c mem => ?_
  rw [writtenHex, if_neg]
  rintro rfl
  exact unsigned mem

end Reading

end DataLayer.Text
