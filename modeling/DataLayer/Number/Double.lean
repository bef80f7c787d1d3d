/- Finite doubles as exact numbers. A double is a significand of at most 53 bits times a power of
   two, counted in units of 2^-1074, and every double has one such form. A decimal number is a
   natural number times a power of ten. Only in a program can a number be infinite or undefined. -/
namespace DataLayer.Number

structure Decimal where
  digits : Nat
  exponent : Int
  deriving DecidableEq, Repr

/-- The number with this sign and the magnitude significand * 2^(exponent - 1074). -/
structure Double where
  negative : Bool
  significand : Nat
  exponent : Nat
  significand_lt : significand < Nat.pow 2 53 := by decide
  normal : exponent = 0 ∨ Nat.pow 2 52 ≤ significand := by decide
  exponent_le : exponent ≤ 2045 := by decide
  deriving DecidableEq, Repr

namespace Double

def zero (negative : Bool) : Double := { negative, significand := 0, exponent := 0 }

def units (d : Double) : Nat := d.significand * Nat.pow 2 d.exponent

def roundsUp (n d : Nat) : Bool :=
  2 * (n % d) > d || (2 * (n % d) == d && n / d % 2 == 1)

def roundedQuotient (n d : Nat) : Nat := n / d + (roundsUp n d).toNat

theorem le_roundedQuotient (n d : Nat) : n / d ≤ roundedQuotient n d := by
  simp [roundedQuotient]

def exponentOf (units : Nat) : Nat := units.log2 - 52

theorem le_div_of_exponentOf {u : Nat} (more : exponentOf u ≠ 0) :
    Nat.pow 2 52 ≤ u / Nat.pow 2 (exponentOf u) := by
  change 2 ^ 52 ≤ u / 2 ^ exponentOf u
  have some : u ≠ 0 := by
    intro zero
    simp [zero, exponentOf] at more
  have below : 2 ^ u.log2 ≤ u := Nat.log2_self_le some
  have same : u.log2 = 52 + exponentOf u := by
    simp only [exponentOf] at more ⊢
    omega
  rw [same, Nat.pow_add] at below
  exact (Nat.le_div_iff_mul_le (Nat.two_pow_pos _)).mpr below

/-- The double nearest to n / d units, if it is in range. A significand that is rounded up to 2^53
    stands for half of it with the next exponent. -/
def nearest? (negative : Bool) (n d : Nat) : Option Double :=
  let e := exponentOf (n / d)
  let s := roundedQuotient n (d * Nat.pow 2 e)
  if large : s < Nat.pow 2 53 then
    if inRange : e ≤ 2045 then
      some ⟨negative, s, e, large, by
        by_cases more : e = 0
        · exact Or.inl more
        · refine Or.inr (Nat.le_trans (le_div_of_exponentOf more) ?_)
          rw [Nat.div_div_eq_div_mul]
          exact le_roundedQuotient _ _, inRange⟩
    else none
  else if inRange : e + 1 ≤ 2045 then
    some ⟨negative, Nat.pow 2 52, e + 1, by decide, Or.inr (Nat.le_refl _), inRange⟩
  else none

/-- The double nearest to a decimal number, if it is in range. Beyond 10^309 nothing is in range,
    and below 10^-324 everything is nearest to zero. -/
def ofDecimal? (negative : Bool) (n : Decimal) : Option Double :=
  if n.digits = 0 then some (zero negative)
  else if n.exponent > 309 then none
  else if n.exponent + (Nat.toDigits 10 n.digits).length < -324 then some (zero negative)
  else
    nearest? negative (n.digits * Nat.pow 10 n.exponent.toNat * Nat.pow 2 1074)
      (Nat.pow 10 (-n.exponent).toNat)

def ofInt? (n : Int) : Option Double := nearest? (n < 0) (n.natAbs * Nat.pow 2 1074) 1

end Double

inductive Binary64
  | finite (value : Double)
  | infinite (negative : Bool)
  | undefined
  deriving DecidableEq, Repr

end DataLayer.Number
