/- Dates of the Gregorian calendar, extended to all years, and the count of days to which they
   correspond. Day zero is the first day of the year zero. -/
namespace DataLayer.Time

structure Date where
  year : Int
  month : Nat
  day : Nat
  deriving DecidableEq, Repr

def isLeap (year : Int) : Bool := year % 4 == 0 && (year % 100 != 0 || year % 400 == 0)

def monthLengths (leap : Bool) : List Nat :=
  [31, if leap then 29 else 28, 31, 30, 31, 30, 31, 31, 30, 31, 30, 31]

def total (lengths : List Nat) : Nat := lengths.foldr (· + ·) 0

@[simp] theorem total_nil : total [] = 0 := rfl

@[simp] theorem total_cons (length : Nat) (rest : List Nat) :
    total (length :: rest) = length + total rest := rfl

def daysBefore (year : Int) : Int :=
  365 * year + (year + 3) / 4 - (year + 99) / 100 + (year + 399) / 400

/-- The year in which a day lies. 400 years have 146097 days, and the mean year is off by no more
    than one year at any day. -/
def yearOf (day : Int) : Int :=
  let guess := 400 * day / 146097
  if day < daysBefore guess then guess - 1
  else if daysBefore (guess + 1) ≤ day then guess + 1
  else guess

/-- Finds a position in consecutive runs of these lengths: the run, and the position in it. -/
def placeIn : List Nat → Nat → Nat × Nat
  | [], n => (0, n)
  | length :: rest, n =>
      if n < length then (0, n)
      else
        let place := placeIn rest (n - length)
        (place.1 + 1, place.2)

theorem daysBefore_succ (year : Int) :
    daysBefore (year + 1) = daysBefore year + total (monthLengths (isLeap year)) := by
  by_cases leap : isLeap year = true
  · have cond := leap
    simp only [isLeap, Bool.and_eq_true, beq_iff_eq, Bool.or_eq_true, bne_iff_ne] at cond
    simp only [leap, daysBefore, monthLengths, if_true, total_cons, total_nil]
    omega
  · have cond := leap
    simp only [isLeap, Bool.and_eq_true, beq_iff_eq, Bool.or_eq_true, bne_iff_ne] at cond
    have common : isLeap year = false := by simpa using leap
    simp only [common, daysBefore, monthLengths, total_cons, total_nil]
    simp only [Bool.false_eq_true, if_false]
    omega

theorem yearOf_bounds (day : Int) :
    daysBefore (yearOf day) ≤ day ∧ day < daysBefore (yearOf day + 1) := by
  have near : daysBefore (400 * day / 146097 - 1) ≤ day ∧
      day < daysBefore (400 * day / 146097 + 1 + 1) := by
    simp only [daysBefore]
    omega
  unfold yearOf
  by_cases early : day < daysBefore (400 * day / 146097)
  · simpa [early] using near.1
  · by_cases late : daysBefore (400 * day / 146097 + 1) ≤ day
    · simpa [early, late] using near.2
    · simp only [early, late, if_false]
      omega

theorem placeIn_sum_take {lengths : List Nat} {run position : Nat} (isRun : run < lengths.length)
    (within : position < lengths[run]) :
    placeIn lengths (total (lengths.take run) + position) = (run, position) := by
  induction lengths generalizing run with
  | nil => simp at isRun
  | cons length rest ih =>
    cases run with
    | zero => simp_all [placeIn]
    | succ run =>
      simp only [List.length_cons, Nat.add_lt_add_iff_right] at isRun
      simp only [List.getElem_cons_succ] at within
      have outside : ¬ length + (total (rest.take run) + position) < length := by omega
      simp [placeIn, Nat.add_assoc, outside, ih isRun within]

namespace Date

def monthLength? (d : Date) : Option Nat :=
  if d.month = 0 then none else (monthLengths (isLeap d.year))[d.month - 1]?

def isValid (d : Date) : Bool := d.monthLength?.any fun length => 1 ≤ d.day && d.day ≤ length

def toDay (d : Date) : Int :=
  daysBefore d.year + total ((monthLengths (isLeap d.year)).take (d.month - 1)) + d.day - 1

def ofDay (day : Int) : Date :=
  let year := yearOf day
  let place := placeIn (monthLengths (isLeap year)) (day - daysBefore year).toNat
  ⟨year, place.1 + 1, place.2 + 1⟩

end Date

end DataLayer.Time
