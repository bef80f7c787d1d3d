import DataLayer.Proofs.Text.Hex

/- Whole numbers as decimal text, exactly. A number has one canonical text, which is the one that is
   written. It is read from many others, and its canonical text can be had from each of them without
   the number: no plus sign, no underscores, no zeros in front and no sign before zero. -/
namespace DataLayer.Text
variable {c : Char} {d n : Nat} {digits : List Char}

/-- Digits with no zero in front of others. -/
def IsNumeral (digits : List Char) : Prop :=
  digits ≠ [] ∧ (∀ c ∈ digits, c.isDigit = true) ∧ (digits.head? = some '0' → digits = ['0'])

def withoutZeros : List Char → List Char
  | '0' :: next :: rest => withoutZeros (next :: rest)
  | digits => digits

theorem digitChar_of_decimal (digit : digitValue? 10 c = some d) :
    c.isDigit = true ∧ Nat.digitChar d = c := by
  have table : ∀ k < 0x80, ∀ d < 10, digitValue? 10 (Char.ofNat k) = some d →
      (Char.ofNat k).isDigit = true ∧ Nat.digitChar d = Char.ofNat k := by decide +kernel
  have hex : digitValue? 16 c = some d := by
    simp only [digitValue?, Option.filter_eq_some_iff, decide_eq_true_eq] at digit ⊢
    exact ⟨digit.1, by omega⟩
  have ascii := (isHexDigit_iff.mpr ⟨d, hex⟩).ascii
  have known := table c.toNat ascii d (digitValue?_lt digit)
  rw [Char.ofNat_toNat] at known
  exact known digit

theorem exists_digitValue?_iff : (∃ d, digitValue? 10 c = some d) ↔ c.isDigit = true := by
  constructor
  · rintro ⟨d, digit⟩
    exact (digitChar_of_decimal digit).1
  · intro digit
    have table : ∀ k ≤ 57, (Char.ofNat k).isDigit = true →
        (digitValue? 10 (Char.ofNat k)).isSome = true := by decide +kernel
    have within : c.toNat ≤ 57 := of_decide_eq_true (Bool.and_eq_true_iff.mp digit).2
    have known := table c.toNat within
    rw [Char.ofNat_toNat] at known
    exact Option.isSome_iff_exists.mp (known digit)

theorem exists_number?_iff :
    (∃ n, number? 10 digits = some n) ↔ digits ≠ [] ∧ ∀ c ∈ digits, c.isDigit = true := by
  induction digits using List.reverseRecOn with
  | nil => simp [number?]
  | append_singleton front last ih =>
    by_cases first : front = []
    · subst first
      simp [number?_singleton, exists_digitValue?_iff]
    · have parts : (∃ n, number? 10 (front ++ [last]) = some n) ↔
          (∃ n, number? 10 front = some n) ∧ ∃ d, digitValue? 10 last = some d := by
        rw [number?_concat first]
        cases number? 10 front <;> cases digitValue? 10 last <;> simp
      rw [parts, ih, exists_digitValue?_iff]
      simp [first, or_imp, forall_and]

theorem toDigits_append_digit {m : Nat} (positive : 0 < m) (small : d < 10) :
    Nat.toDigits 10 (m * 10 + d) = Nat.toDigits 10 m ++ [Nat.digitChar d] := by
  have high : (m * 10 + d) / 10 = m := by omega
  have low : (m * 10 + d) % 10 = d := by omega
  rw [Nat.toDigits_of_base_le (by decide) (by omega), high, low]

theorem toDigits_of_number? (read : number? 10 digits = some n)
    (nonzero : digits.head? ≠ some '0') : Nat.toDigits 10 n = digits := by
  induction digits using List.reverseRecOn generalizing n with
  | nil => simp [number?] at read
  | append_singleton front last ih =>
    by_cases first : front = []
    · subst first
      rw [List.nil_append, number?_singleton] at read
      rw [Nat.toDigits_of_lt_base (digitValue?_lt read), (digitChar_of_decimal read).2]
      rfl
    · rw [number?_concat first] at read
      obtain ⟨m, before, behind⟩ := Option.bind_eq_some_iff.mp read
      obtain ⟨d, digit, rfl⟩ := Option.map_eq_some_iff.mp behind
      have head : (front ++ [last]).head? = front.head? := by
        rw [List.head?_append, Option.or_of_isSome (List.isSome_head?.mpr first)]
      rw [head] at nonzero
      have written := ih before nonzero
      have positive : 0 < m := by
        refine Nat.pos_of_ne_zero ?_
        rintro rfl
        rw [← written] at nonzero
        exact nonzero rfl
      rw [toDigits_append_digit positive (digitValue?_lt digit), written,
        (digitChar_of_decimal digit).2]

theorem eq_zero_of_head? (zero : digits.head? = some '0')
    (single : ∀ next rest, digits ≠ '0' :: next :: rest) : digits = ['0'] := by
  obtain ⟨tail, rfl⟩ := List.head?_eq_some_iff.mp zero
  cases tail with
  | nil => rfl
  | cons next rest => exact absurd rfl (single next rest)

theorem withoutZeros_of_head? (zero : (withoutZeros digits).head? = some '0') :
    withoutZeros digits = ['0'] := by
  fun_induction withoutZeros digits with
  | case1 next rest ih => exact ih zero
  | case2 digits single => exact eq_zero_of_head? zero single

theorem toDigits_eq_withoutZeros (read : number? 10 digits = some n) :
    Nat.toDigits 10 n = withoutZeros digits := by
  fun_induction withoutZeros digits with
  | case1 next rest ih =>
    refine ih ?_
    rw [← read]
    exact (number?_zeros_append (by decide) 1 (by simp)).symm
  | case2 digits single =>
    by_cases zero : digits.head? = some '0'
    · cases eq_zero_of_head? zero single
      cases read
      rfl
    · exact toDigits_of_number? read zero

theorem isNumeral_toDigits (n : Nat) : IsNumeral (Nat.toDigits 10 n) := by
  have same := toDigits_eq_withoutZeros (number?_toDigits (by decide) (by decide) n)
  refine ⟨Nat.toDigits_ne_nil, ?_, ?_⟩
  · intro c mem
    exact Nat.isDigit_of_mem_toDigits (by decide) (by decide) mem
  · intro zero
    rw [same] at zero ⊢
    exact withoutZeros_of_head? zero

theorem isNumeral_iff : IsNumeral digits ↔ ∃ n, Nat.toDigits 10 n = digits := by
  constructor
  · rintro ⟨some, all, first⟩
    by_cases zero : digits.head? = Option.some '0'
    · exact ⟨0, (first zero).symm⟩
    · obtain ⟨n, read⟩ := exists_number?_iff.mpr ⟨some, all⟩
      exact ⟨n, toDigits_of_number? read zero⟩
  · rintro ⟨n, rfl⟩
    exact isNumeral_toDigits n

theorem toDigits_eq_zero : Nat.toDigits 10 n = ['0'] ↔ n = 0 := by
  constructor
  · intro written
    have read : number? 10 (Nat.toDigits 10 n) = some n :=
      number?_toDigits (by decide) (by decide) n
    rw [written] at read
    exact (Option.some.inj read).symm
  · rintro rfl
    rfl

end DataLayer.Text

namespace DataLayer.Number.Integer
open Text

inductive Canonical : List Char → Prop
  | natural {digits : List Char} (numeral : IsNumeral digits) : Canonical digits
  | negative {digits : List Char} (numeral : IsNumeral digits) (nonzero : digits ≠ ['0']) :
      Canonical ('-' :: digits)

/-- Digits and underscores, of which a digit comes first. -/
def IsGrouped (digits : List Char) : Prop :=
  ∃ first rest, digits = first :: rest ∧ first.isDigit = true ∧
    ∀ c ∈ rest, c.isDigit = true ∨ c = '_'

def IsSpelling (s : List Char) : Prop :=
  ∃ sign ∈ [[], ['+'], ['-']], ∃ digits, s = sign ++ digits ∧ IsGrouped digits

def parted : List Char → Bool × List Char
  | '+' :: rest => (false, rest)
  | '-' :: rest => (true, rest)
  | rest => (false, rest)

/-- The canonical text of the number that a text is read as. -/
def normal (s : List Char) : List Char :=
  let digits := withoutZeros ((parted s).2.filter (· ≠ '_'))
  if (parted s).1 ∧ digits ≠ ['0'] then '-' :: digits else digits

theorem text_natCast (n : Nat) : text n = Nat.toDigits 10 n := by
  rw [text, if_neg (by omega), Int.natAbs_natCast]

theorem text_neg_natCast {n : Nat} (nonzero : n ≠ 0) : text (-n) = '-' :: Nat.toDigits 10 n := by
  rw [text, if_pos (by omega), Int.natAbs_neg, Int.natAbs_natCast]

theorem canonical_iff {s : List Char} : Canonical s ↔ ∃ n, text n = s := by
  constructor
  · rintro (numeral | ⟨numeral, nonzero⟩)
    · obtain ⟨n, rfl⟩ := isNumeral_iff.mp numeral
      exact ⟨n, text_natCast n⟩
    · obtain ⟨n, rfl⟩ := isNumeral_iff.mp numeral
      exact ⟨-n, text_neg_natCast (mt toDigits_eq_zero.mpr nonzero)⟩
  · rintro ⟨n, rfl⟩
    have numeral := isNumeral_toDigits n.natAbs
    unfold text
    split
    · rename_i negative
      refine .negative numeral ?_
      rw [Ne, toDigits_eq_zero]
      omega
    · exact .natural numeral

section Reading
variable {s digits : List Char} {n : Int}

theorem exists_grouped?_iff : (∃ n, grouped? digits = some n) ↔ IsGrouped digits := by
  have underscore : Char.isDigit '_' = false := by decide
  constructor
  · rintro ⟨n, read⟩
    unfold grouped? at read
    split at read
    · contradiction
    · rename_i started
      obtain ⟨some, all⟩ := exists_number?_iff.mp ⟨n, read⟩
      have known : ∀ c ∈ digits, c ≠ '_' → c.isDigit = true := fun c mem other =>
        all c (List.mem_filter.mpr ⟨mem, by simpa using other⟩)
      cases digits with
      | nil => exact absurd rfl some
      | cons first rest =>
        have begins : first ≠ '_' := by
          rintro rfl
          exact started rfl
        refine ⟨first, rest, rfl, known first List.mem_cons_self begins, fun c mem => ?_⟩
        by_cases joint : c = '_'
        · exact .inr joint
        · exact .inl (known c (List.mem_cons_of_mem _ mem) joint)
  · rintro ⟨first, rest, rfl, digit, each⟩
    have begins : first ≠ '_' := by
      rintro rfl
      rw [underscore] at digit
      contradiction
    rw [grouped?, if_neg (by simpa using begins), exists_number?_iff,
      List.filter_cons_of_pos (by simpa using begins)]
    refine ⟨by simp, List.forall_mem_cons.mpr ⟨digit, fun c mem => ?_⟩⟩
    obtain ⟨there, other⟩ := List.mem_filter.mp mem
    exact (each c there).resolve_right (by simpa using other)

theorem ofText?_eq_some_iff :
    ofText? s = some n ↔ ∃ m, grouped? (parted s).2 = some m ∧
      (if (parted s).1 then -(m : Int) else m) = n := by
  unfold ofText? signed? parted
  split <;> simp [Option.bind_eq_some_iff]

theorem parted_of_isDigit {first : Char} {rest : List Char} (digit : first.isDigit = true) :
    parted (first :: rest) = (false, first :: rest) := by
  unfold parted
  split
  · rename_i same
    cases same
    contradiction
  · rename_i same
    cases same
    contradiction
  · rfl

theorem isSpelling_iff : IsSpelling s ↔ IsGrouped (parted s).2 := by
  constructor
  · rintro ⟨sign, listed, digits, rfl, grouped⟩
    simp only [List.mem_cons, List.not_mem_nil, or_false] at listed
    rcases listed with rfl | rfl | rfl
    · obtain ⟨first, rest, rfl, digit, each⟩ := grouped
      rw [List.nil_append, parted_of_isDigit digit]
      exact ⟨first, rest, rfl, digit, each⟩
    · exact grouped
    · exact grouped
  · intro grouped
    unfold parted at grouped
    split at grouped
    · exact ⟨['+'], by simp, _, rfl, grouped⟩
    · exact ⟨['-'], by simp, _, rfl, grouped⟩
    · exact ⟨[], by simp, _, rfl, grouped⟩

theorem exists_ofText?_iff : (∃ n, ofText? s = some n) ↔ IsSpelling s := by
  rw [isSpelling_iff, ← exists_grouped?_iff]
  simp [ofText?_eq_some_iff]

theorem text_of_ofText? (read : ofText? s = some n) : text n = normal s := by
  obtain ⟨m, grouped, rfl⟩ := ofText?_eq_some_iff.mp read
  unfold grouped? at grouped
  split at grouped
  · contradiction
  · have written := toDigits_eq_withoutZeros grouped
    simp only [normal, ← written, ne_eq, toDigits_eq_zero]
    cases (parted s).1 with
    | false => simpa using text_natCast m
    | true =>
      by_cases zero : m = 0
      · subst zero
        rfl
      · simpa [zero] using text_neg_natCast zero

example : normal "+0_070".toList = "70".toList ∧ normal "-00".toList = "0".toList := by decide

end Reading

end DataLayer.Number.Integer
