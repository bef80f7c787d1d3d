import DataLayer.Text.Digits
import DataLayer.Time.Date

/- Moments in universal time, to the nanosecond. A leap second keeps the place of the second before
   it, with a second and more of nanoseconds. The text of a moment is a date, a time of day and an
   offset; it is read with any offset and any number of digits of the fraction, and written without
   offset in milliseconds. -/
namespace DataLayer.Time
open Text

structure Timestamp where
  seconds : Int
  nanos : Nat
  deriving DecidableEq, Repr

namespace Timestamp

def epochDay : Int := 719528

/-- The second sixty is read at any minute. It is the leap second after the second 59. -/
def ofTime? (d : Date) (hour minute second nanos : Nat) (offset : Int) : Option Timestamp :=
  if d.isValid ∧ hour ≤ 23 ∧ minute ≤ 59 ∧ second ≤ 60 then
    let leap := second == 60
    let ofDay := hour * 3600 + minute * 60 + (if leap then 59 else second)
    some ⟨(d.toDay - epochDay) * 86400 + ofDay - offset, nanos + if leap then 1000000000 else 0⟩
  else none

/-- Digits after the point count as a fraction of a second. Those after the ninth make no
    difference. -/
def nanosOf (digits : List Char) : Nat :=
  (number? 10 ((digits ++ List.replicate 9 '0').take 9)).getD 0

def offset? : List Char → Option Int
  | ['Z'] | ['z'] => some 0
  | [sign, h1, h2, ':', m1, m2] => do
      let hours ← number? 10 [h1, h2]
      let minutes ← number? 10 [m1, m2]
      if hours ≤ 23 ∧ minutes ≤ 59 then
        let distance : Int := hours * 3600 + minutes * 60
        if sign = '+' then some distance
        else if sign = '-' ∨ sign = '\u2212' then some (-distance)
        else none
      else none
  | _ => none

def end? : List Char → Option (Nat × Int)
  | '.' :: rest =>
      let digits := rest.takeWhile Char.isDigit
      if digits.isEmpty then none
      else (offset? (rest.dropWhile Char.isDigit)).map (nanosOf digits, ·)
  | rest => (offset? rest).map (0, ·)

def ofText? : List Char → Option Timestamp
  | y1 :: y2 :: y3 :: y4 :: '-' :: m1 :: m2 :: '-' :: d1 :: d2 :: between ::
      h1 :: h2 :: ':' :: n1 :: n2 :: ':' :: s1 :: s2 :: rest => do
      let year ← number? 10 [y1, y2, y3, y4]
      let month ← number? 10 [m1, m2]
      let day ← number? 10 [d1, d2]
      let hour ← number? 10 [h1, h2]
      let minute ← number? 10 [n1, n2]
      let second ← number? 10 [s1, s2]
      let (nanos, offset) ← end? rest
      if between = 'T' ∨ between = 't' ∨ between = ' ' then
        ofTime? ⟨year, month, day⟩ hour minute second nanos offset
      else none
  | _ => none

def date (t : Timestamp) : Date := .ofDay (t.seconds / 86400 + epochDay)

def secondOfDay (t : Timestamp) : Nat := (t.seconds % 86400).toNat

/-- Four digits, or a sign and at least four digits for a year that four digits do not hold. -/
def yearText (year : Int) : List Char :=
  if year < 0 then '-' :: padded 4 year.natAbs
  else if year > 9999 then '+' :: padded 4 year.natAbs
  else padded 4 year.natAbs

def text (t : Timestamp) : List Char :=
  let s := t.secondOfDay
  let second := s % 60 + t.nanos / 1000000000
  yearText t.date.year ++ '-' :: padded 2 t.date.month ++ '-' :: padded 2 t.date.day ++
    'T' :: padded 2 (s / 3600) ++ ':' :: padded 2 (s / 60 % 60) ++ ':' :: padded 2 second ++
    '.' :: padded 3 (t.nanos % 1000000000 / 1000000) ++ ['Z']

end Timestamp

end DataLayer.Time
