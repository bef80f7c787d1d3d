import DataLayer.Proofs.Number.Canonical
import DataLayer.Proofs.Time.Moments

/- Local times and the moments that they are. A text gives the year of a local time in four digits,
   and the moment is written with the year that it has in universal time. The offset takes the year
   out of what four digits hold only from the first day of them or from the last, and the text of a
   moment outside of them is not read. -/
namespace DataLayer.Time
open Text

theorem daysBefore_mono {a b : Int} (le : a ≤ b) : daysBefore a ≤ daysBefore b := by
  simp only [daysBefore]
  omega

theorem le_yearOf_iff {year day : Int} : year ≤ yearOf day ↔ daysBefore year ≤ day := by
  have bounds := yearOf_bounds day
  constructor
  · intro le
    have before := daysBefore_mono le
    omega
  · intro first
    by_contra late
    have after : daysBefore (yearOf day + 1) ≤ daysBefore year := daysBefore_mono (by omega)
    omega

theorem yearOf_eq {year day : Int} (first : daysBefore year ≤ day)
    (next : day < daysBefore (year + 1)) : yearOf day = year := by
  have low : year ≤ yearOf day := le_yearOf_iff.mpr first
  have high : ¬ year + 1 ≤ yearOf day := by
    rw [le_yearOf_iff]
    omega
  omega

theorem total_take_add_lt {lengths : List Nat} {run position : Nat} (isRun : run < lengths.length)
    (within : position < lengths[run]) : total (lengths.take run) + position < total lengths := by
  induction lengths generalizing run with
  | nil => simp at isRun
  | cons length rest ih =>
    cases run with
    | zero =>
      simp only [List.getElem_cons_zero] at within
      simp only [List.take_zero, total_nil, total_cons]
      omega
    | succ run =>
      have later := ih (by simpa using isRun) (by simpa using within)
      simp only [List.take_succ_cons, total_cons]
      omega

namespace Date

theorem place_of_isValid {d : Date} (valid : d.isValid = true) :
    ∃ position, ∃ isRun : d.month - 1 < (monthLengths (isLeap d.year)).length,
      0 < d.month ∧ d.day = position + 1 ∧
      position < (monthLengths (isLeap d.year))[d.month - 1] := by
  obtain ⟨length, found, days⟩ := (Option.any_eq_true _ _).mp valid
  obtain ⟨first, last⟩ : 1 ≤ d.day ∧ d.day ≤ length := by simpa using days
  unfold monthLength? at found
  split at found
  · contradiction
  · rename_i positive
    obtain ⟨isRun, same⟩ := List.getElem?_eq_some_iff.mp found
    refine ⟨d.day - 1, isRun, Nat.pos_of_ne_zero positive, by omega, ?_⟩
    rw [same]
    omega

theorem toDay_bounds {d : Date} (valid : d.isValid = true) :
    daysBefore d.year ≤ d.toDay ∧ d.toDay < daysBefore (d.year + 1) := by
  obtain ⟨position, isRun, _, day, within⟩ := place_of_isValid valid
  have inside := total_take_add_lt isRun within
  have next := daysBefore_succ d.year
  simp only [toDay, day]
  omega

theorem ofDay_toDay {d : Date} (valid : d.isValid = true) : ofDay d.toDay = d := by
  have bounds := toDay_bounds valid
  obtain ⟨position, isRun, month, day, within⟩ := place_of_isValid valid
  have year : yearOf d.toDay = d.year := yearOf_eq bounds.1 bounds.2
  have rest : (d.toDay - daysBefore d.year).toNat =
      total ((monthLengths (isLeap d.year)).take (d.month - 1)) + position := by
    simp only [toDay, day]
    omega
  simp only [ofDay, year, rest, placeIn_sum_take isRun within]
  rw [Nat.sub_add_cancel month, ← day]

theorem eq_iff_toDay_eq {d e : Date} (here : d.isValid = true) (there : e.isValid = true) :
    d = e ↔ d.toDay = e.toDay := by
  constructor
  · intro same
    rw [same]
  · intro same
    rw [← ofDay_toDay here, ← ofDay_toDay there, same]

end Date

/-- A date and a time of day at some place, and by how many seconds it is later there than in
    universal time. -/
structure LocalTime where
  date : Date
  hour : Nat
  minute : Nat
  second : Nat
  nanos : Nat
  offset : Int
  deriving DecidableEq, Repr

namespace LocalTime
open Timestamp

def moment? (l : LocalTime) : Option Timestamp :=
  Timestamp.ofTime? l.date l.hour l.minute l.second l.nanos l.offset

def secondOfDay (l : LocalTime) : Nat := l.hour * 3600 + l.minute * 60 + min l.second 59

def Numeral (width : Nat) (digits : List Char) (n : Nat) : Prop :=
  digits.length = width ∧ number? 10 digits = some n

inductive Spells : List Char → LocalTime → Prop
  | parts {yearText monthText dayText hourText minuteText secondText rest : List Char}
      {between : Char} {year month day hour minute second nanos : Nat} {offset : Int}
      (readYear : Numeral 4 yearText year) (readMonth : Numeral 2 monthText month)
      (readDay : Numeral 2 dayText day) (readHour : Numeral 2 hourText hour)
      (readMinute : Numeral 2 minuteText minute) (readSecond : Numeral 2 secondText second)
      (parted : between = 'T' ∨ between = 't' ∨ between = ' ')
      (ended : end? rest = some (nanos, offset)) :
      Spells (yearText ++ '-' :: (monthText ++ '-' :: (dayText ++ between :: (hourText ++
          ':' :: (minuteText ++ ':' :: (secondText ++ rest))))))
        ⟨⟨year, month, day⟩, hour, minute, second, nanos, offset⟩

theorem Numeral.eq_of_append_eq {width n m : Nat} {a b rest other : List Char}
    (here : Numeral width a n) (there : Numeral width b m) (same : a ++ rest = b ++ other) :
    n = m ∧ rest = other := by
  obtain ⟨digits, behind⟩ := List.append_inj same (here.1.trans there.1.symm)
  have value : some n = some m := by rw [← here.2, ← there.2, digits]
  exact ⟨Option.some.inj value, behind⟩

theorem Spells.unique {s r : List Char} {l k : LocalTime} (first : Spells s l)
    (second : Spells r k) (same : s = r) : l = k := by
  cases first with
  | parts year month day hour minute instant _ ended =>
  cases second with
  | parts year' month' day' hour' minute' instant' _ ended' =>
    obtain ⟨rfl, same⟩ := year.eq_of_append_eq year' same
    obtain ⟨rfl, same⟩ := month.eq_of_append_eq month' (List.cons.inj same).2
    obtain ⟨rfl, same⟩ := day.eq_of_append_eq day' (List.cons.inj same).2
    obtain ⟨rfl, same⟩ := hour.eq_of_append_eq hour' (List.cons.inj same).2
    obtain ⟨rfl, same⟩ := minute.eq_of_append_eq minute' (List.cons.inj same).2
    obtain ⟨rfl, rfl⟩ := instant.eq_of_append_eq instant' (List.cons.inj same).2
    rw [ended] at ended'
    cases ended'
    rfl

theorem ofText?_eq_some_iff {s : List Char} {t : Timestamp} :
    ofText? s = some t ↔ ∃ l, Spells s l ∧ l.moment? = some t := by
  constructor
  · intro read
    unfold ofText? at read
    split at read
    · obtain ⟨year, readYear, read⟩ := Option.bind_eq_some_iff.mp read
      obtain ⟨month, readMonth, read⟩ := Option.bind_eq_some_iff.mp read
      obtain ⟨day, readDay, read⟩ := Option.bind_eq_some_iff.mp read
      obtain ⟨hour, readHour, read⟩ := Option.bind_eq_some_iff.mp read
      obtain ⟨minute, readMinute, read⟩ := Option.bind_eq_some_iff.mp read
      obtain ⟨second, readSecond, read⟩ := Option.bind_eq_some_iff.mp read
      obtain ⟨⟨nanos, offset⟩, ended, read⟩ := Option.bind_eq_some_iff.mp read
      dsimp only at read
      split at read
      · rename_i parted
        exact ⟨⟨⟨year, month, day⟩, hour, minute, second, nanos, offset⟩,
          .parts ⟨rfl, readYear⟩ ⟨rfl, readMonth⟩ ⟨rfl, readDay⟩ ⟨rfl, readHour⟩
            ⟨rfl, readMinute⟩ ⟨rfl, readSecond⟩ parted ended, read⟩
      · contradiction
    · contradiction
  · rintro ⟨l, spells, moment⟩
    cases spells with
    | @parts y mo d h mi s rest between year month day hour minute second nanos offset
        readYear readMonth readDay readHour readMinute readSecond parted ended =>
      -- the widths of the numerals give the text the shape that the reader matches on
      match y, mo, d, h, mi, s, readYear, readMonth, readDay, readHour, readMinute, readSecond with
      | [_, _, _, _], [_, _], [_, _], [_, _], [_, _], [_, _], ⟨_, readYear⟩, ⟨_, readMonth⟩,
          ⟨_, readDay⟩, ⟨_, readHour⟩, ⟨_, readMinute⟩, ⟨_, readSecond⟩ =>
        simp only [List.cons_append, List.nil_append, ofText?, readYear, readMonth, readDay,
          readHour, readMinute, readSecond, ended, Option.bind_eq_bind, Option.bind_some,
          if_pos parted]
        exact moment

/-- The offset takes the local time over the first midnight of the years of four digits or over the
    last. -/
def Crosses (l : LocalTime) : Prop :=
  l.date = ⟨0, 1, 1⟩ ∧ (l.secondOfDay : Int) < l.offset ∨
    l.date = ⟨9999, 12, 31⟩ ∧ 86400 ≤ (l.secondOfDay : Int) - l.offset

instance (l : LocalTime) : Decidable l.Crosses := inferInstanceAs (Decidable (_ ∨ _))

section Spelled
variable {s : List Char} {l : LocalTime} (spells : Spells s l)
include spells

theorem Spells.year_bounds : 0 ≤ l.date.year ∧ l.date.year ≤ 9999 := by
  cases spells with
  | @parts _ _ _ _ _ _ _ _ year _ _ _ _ _ _ _ readYear =>
    have small := number?_lt readYear.2
    rw [readYear.1] at small
    dsimp only
    omega

theorem Spells.offset_bounds : -86400 < l.offset ∧ l.offset < 86400 := by
  cases spells with
  | parts _ _ _ _ _ _ _ ended => exact (end?_bounds ended).2.2

theorem Spells.head?_isDigit {c : Char} (head : s.head? = some c) : c.isDigit = true := by
  cases spells with
  | @parts y _ _ _ _ _ _ _ _ _ _ _ _ _ _ _ readYear =>
    obtain ⟨some, digits⟩ := exists_number?_iff.mp ⟨_, readYear.2⟩
    rw [List.head?_append, Option.or_of_isSome (List.isSome_head?.mpr some)] at head
    exact digits c (List.mem_of_head? head)

end Spelled

theorem moment?_eq_some {l : LocalTime} {t : Timestamp} (moment : l.moment? = some t) :
    l.date.isValid = true ∧ l.secondOfDay < 86400 ∧
      t.seconds = (l.date.toDay - epochDay) * 86400 + l.secondOfDay - l.offset := by
  unfold moment? ofTime? at moment
  split at moment
  · rename_i clock
    obtain ⟨valid, hour, minute, second⟩ := clock
    cases moment
    refine ⟨valid, ?_, ?_⟩
    · simp only [secondOfDay]
      omega
    · simp only [secondOfDay, beq_iff_eq]
      split <;> omega
  · contradiction

/-- The year in universal time has four digits unless the offset crosses one of the two midnights. -/
theorem fourDigitYear_iff {s : List Char} {l : LocalTime} {t : Timestamp} (spells : Spells s l)
    (moment : l.moment? = some t) : t.FourDigitYear ↔ ¬ l.Crosses := by
  obtain ⟨valid, clock, seconds⟩ := moment?_eq_some moment
  have year := spells.year_bounds
  have offset := spells.offset_bounds
  have bounds := Date.toDay_bounds valid
  have start : daysBefore 0 ≤ l.date.toDay :=
    Int.le_trans (daysBefore_mono year.1) bounds.1
  have first : l.date = ⟨0, 1, 1⟩ ↔ l.date.toDay = 0 := Date.eq_iff_toDay_eq valid rfl
  have last : l.date = ⟨9999, 12, 31⟩ ↔ l.date.toDay = 3652424 := Date.eq_iff_toDay_eq valid rfl
  have stop : l.date.toDay < daysBefore 10000 :=
    Int.lt_of_lt_of_le bounds.2 (daysBefore_mono (by omega))
  have least : 0 ≤ t.date.year ↔ daysBefore 0 ≤ t.seconds / 86400 + epochDay := le_yearOf_iff
  have most : 10000 ≤ t.date.year ↔ daysBefore 10000 ≤ t.seconds / 86400 + epochDay := le_yearOf_iff
  have ends : daysBefore 0 = 0 ∧ daysBefore 10000 = 3652425 := ⟨rfl, rfl⟩
  -- an offset is less than a day, so only the first day of these years and the last are left
  rw [FourDigitYear, Crosses, first, last]
  omega

end LocalTime

namespace Timestamp
open LocalTime

theorem exists_sign {t : Timestamp} (outside : ¬ t.FourDigitYear) :
    ∃ sign, t.text.head? = some sign ∧ sign.isDigit = false := by
  by_cases early : t.date.year < 0
  · refine ⟨'-', ?_, rfl⟩
    simp [text, yearText, early]
  · have late : 9999 < t.date.year := by
      simp only [FourDigitYear, not_and] at outside
      omega
    refine ⟨'+', ?_, rfl⟩
    simp [text, yearText, early, late]

theorem ofText?_text_eq_none {t : Timestamp} (outside : ¬ t.FourDigitYear) :
    ofText? t.text = none := by
  obtain ⟨sign, head, noDigit⟩ := exists_sign outside
  rw [Option.eq_none_iff_forall_ne_some]
  intro u read
  obtain ⟨l, spells, _⟩ := ofText?_eq_some_iff.mp read
  have digit := spells.head?_isDigit head
  rw [noDigit] at digit
  contradiction

end Timestamp

end DataLayer.Time
