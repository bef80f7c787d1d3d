import DataLayer.Number.Integer
import DataLayer.Number.Shortest
import DataLayer.Json.Value
import DataLayer.Text.Digits

/- Numbers as they stand in documents. A literal without fraction and exponent that fits into 64
   bits, signed or not, is a whole number; any other is the nearest double. A double is written
   with the fewest digits that read back: around one as a plain number, otherwise with an
   exponent. -/
namespace DataLayer.Json
open Number Text

structure Literal where
  negative : Bool
  whole : List Char
  fraction : Option (List Char)
  exponent : Option Int
  deriving DecidableEq, Repr

namespace Literal

def exponent? : List Char → Option (Option Int)
  | [] => some none
  | c :: power =>
      if c = 'e' ∨ c = 'E' then (Integer.signed? (number? 10) power).map some else none

def tail? (text : List Char) : Option (Option (List Char) × Option Int) :=
  match text with
  | '.' :: rest =>
      let digits := rest.takeWhile Char.isDigit
      if digits.isEmpty then none
      else (exponent? (rest.dropWhile Char.isDigit)).map (some digits, ·)
  | _ => (exponent? text).map (none, ·)

def isWhole (digits : List Char) : Bool :=
  !digits.isEmpty && (digits.length == 1 || digits.head? != some '0')

def ofText? (text : List Char) : Option Literal :=
  let (negative, text) := match text with
    | '-' :: rest => (true, rest)
    | _ => (false, text)
  let whole := text.takeWhile Char.isDigit
  if isWhole whole then
    (tail? (text.dropWhile Char.isDigit)).map fun t => ⟨negative, whole, t.1, t.2⟩
  else none

def decimal (l : Literal) : Decimal :=
  let fraction := l.fraction.getD []
  ⟨((number? 10 (l.whole ++ fraction)).getD 0), l.exponent.getD 0 - fraction.length⟩

/-- Zero with a minus sign is a double because no whole number has that sign. -/
def value? (l : Literal) : Option Value :=
  let n := l.decimal
  let whole : Int := if l.negative then -n.digits else n.digits
  if l.fraction.isNone ∧ l.exponent.isNone ∧ ¬(l.negative ∧ n.digits = 0) ∧
      Int64.minValue.toInt ≤ whole ∧ whole < UInt64.size then
    some (.integer whole)
  else (Double.ofDecimal? l.negative n).map Value.double

end Literal

def plainText (digits : List Char) (point : Int) : List Char :=
  if point ≤ 0 then "0.".toList ++ List.replicate (-point).toNat '0' ++ digits
  else
    let point := point.toNat
    let fraction := digits.drop point
    digits.take point ++ List.replicate (point - digits.length) '0' ++
      '.' :: if fraction.isEmpty then ['0'] else fraction

def scientificText (digits : List Char) (power : Int) : List Char :=
  let sign := if power < 0 then '-' else '+'
  let fraction := digits.drop 1
  digits.take 1 ++ (if fraction.isEmpty then [] else '.' :: fraction) ++
    'e' :: sign :: Nat.toDigits 10 power.natAbs

/-- Plain notation serves as long as the first digit stands for no less than 10^-5 and no more than
    10^15. -/
def doubleText (d : Double) : List Char :=
  let n := d.shortest
  let digits := Nat.toDigits 10 n.digits
  let power := n.exponent + digits.length - 1
  let magnitude :=
    if n.digits = 0 then "0.0".toList
    else if -5 ≤ power ∧ power ≤ 15 then plainText digits (power + 1)
    else scientificText digits power
  if d.negative then '-' :: magnitude else magnitude

end DataLayer.Json
