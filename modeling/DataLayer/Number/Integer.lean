import DataLayer.Text.Digits

/- Whole numbers of any size as decimal text. What is written has no needless zeros and no sign but
   the minus of a negative number. What is read may have either sign and zeros in front. -/
namespace DataLayer.Number
open Text

namespace Integer

def text (n : Int) : List Char :=
  if n < 0 then '-' :: Nat.toDigits 10 n.natAbs else Nat.toDigits 10 n.natAbs

def signed? (magnitude? : List Char → Option Nat) : List Char → Option Int
  | '+' :: rest => (magnitude? rest).map Int.ofNat
  | '-' :: rest => (magnitude? rest).map fun n => -(n : Int)
  | rest => (magnitude? rest).map Int.ofNat

/-- Digits with underscores anywhere but in front. -/
def grouped? (digits : List Char) : Option Nat :=
  if digits.head? = some '_' then none else number? 10 (digits.filter (· ≠ '_'))

def ofText? (text : List Char) : Option Int := signed? grouped? text

end Integer

end DataLayer.Number
