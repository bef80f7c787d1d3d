import DataLayer.Time.Timestamp
import DataLayer.Proofs.Text.Numerals

/- Moments read back. Every day has a date of its own, and the text of a moment whose year has four
   digits is read as that moment to the millisecond, leap seconds included. -/
namespace DataLayer.Time
open Text

theorem placeIn_of_lt_sum {lengths : List Nat} {n : Nat} (within : n < total lengths) :
    ∃ length, lengths[(placeIn lengths n).1]? = some length ∧ (placeIn lengths n).2 < length ∧
      total (lengths.take (placeIn lengths n).1) + (placeIn lengths n).2 = n := by
  induction lengths generalizing n with
  | nil => simp at within
  | cons length rest ih =>
    by_cases first : n < length
    · exact ⟨length, by simp [placeIn, first], by simp [placeIn, first], by simp [placeIn, first]⟩
    · rw [total_cons] at within
      obtain ⟨found, run, inside, before⟩ := ih (n := n - length) (by omega)
      refine ⟨found, by simpa [placeIn, first] using run,
        by simpa [placeIn, first] using inside, ?_⟩
      simp only [placeIn, first, if_false, List.take_succ_cons, total_cons]
      omega

theorem monthLengths_le (leap : Bool) : ∀ length ∈ monthLengths leap, length ≤ 31 := by
  cases leap <;> decide

namespace Date

theorem ofDay_place (day : Int) :
    ∃ length, (monthLengths (isLeap (ofDay day).year))[(ofDay day).month - 1]? = some length ∧
      0 < (ofDay day).month ∧ 0 < (ofDay day).day ∧ (ofDay day).day ≤ length ∧
      (ofDay day).toDay = day := by
  have bounds := yearOf_bounds day
  have next := daysBefore_succ (yearOf day)
  have within : (day - daysBefore (yearOf day)).toNat <
      total (monthLengths (isLeap (yearOf day))) := by
    omega
  obtain ⟨length, run, inside, before⟩ := placeIn_of_lt_sum within
  refine ⟨length, run, Nat.succ_pos _, Nat.succ_pos _, inside, ?_⟩
  simp only [toDay, ofDay, Nat.add_sub_cancel]
  omega

theorem toDay_ofDay (day : Int) : (ofDay day).toDay = day := by
  obtain ⟨_, _, _, _, _, same⟩ := ofDay_place day
  exact same

theorem isValid_ofDay (day : Int) : (ofDay day).isValid = true := by
  obtain ⟨length, run, month, first, last, _⟩ := ofDay_place day
  simp [isValid, monthLength?, run, Nat.ne_of_gt month, Nat.succ_le_of_lt first, last]

theorem ofDay_lt_hundred (day : Int) : (ofDay day).month < 100 ∧ (ofDay day).day < 100 := by
  obtain ⟨length, run, _, _, last, _⟩ := ofDay_place day
  have short := monthLengths_le _ length (List.mem_of_getElem? run)
  obtain ⟨isMonth, _⟩ := List.getElem?_eq_some_iff.mp run
  have twelve : (monthLengths (isLeap (ofDay day).year)).length = 12 := rfl
  omega

end Date

namespace Timestamp

/-- What reading gives: a fraction of a second, and a second more of it only in the last second of
    a minute. -/
def Readable (t : Timestamp) : Prop :=
  t.nanos < 2000000000 ∧ (1000000000 ≤ t.nanos → t.seconds % 60 = 59)

instance (t : Timestamp) : Decidable t.Readable := inferInstanceAs (Decidable (_ ∧ _))

def FourDigitYear (t : Timestamp) : Prop := 0 ≤ t.date.year ∧ t.date.year ≤ 9999

instance (t : Timestamp) : Decidable t.FourDigitYear := inferInstanceAs (Decidable (_ ∧ _))

/-- Nothing of the moment is left out where it is written, and nothing is added. -/
def InMillis (t : Timestamp) : Prop := t.nanos % 1000000 = 0 ∧ t.FourDigitYear

instance (t : Timestamp) : Decidable t.InMillis := inferInstanceAs (Decidable (_ ∧ _))

theorem nanosOf_lt (digits : List Char) : nanosOf digits < 1000000000 := by
  unfold nanosOf
  cases read : number? 10 ((digits ++ List.replicate 9 '0').take 9) with
  | none => decide
  | some n =>
    have bound := number?_lt read
    simpa using bound

theorem offset?_eq_some {s : List Char} {offset : Int} (read : offset? s = some offset) :
    ∃ hours minutes : Nat, hours ≤ 23 ∧ minutes ≤ 59 ∧
      (offset = hours * 3600 + minutes * 60 ∨ offset = -(hours * 3600 + minutes * 60)) := by
  unfold offset? at read
  split at read
  · cases read
    exact ⟨0, 0, by omega, by omega, .inl rfl⟩
  · cases read
    exact ⟨0, 0, by omega, by omega, .inl rfl⟩
  · obtain ⟨hours, _, read⟩ := Option.bind_eq_some_iff.mp read
    obtain ⟨minutes, _, read⟩ := Option.bind_eq_some_iff.mp read
    split at read
    · rename_i clock
      refine ⟨hours, minutes, clock.1, clock.2, ?_⟩
      dsimp only at read
      split at read
      · exact .inl (Option.some.inj read).symm
      · split at read
        · exact .inr (Option.some.inj read).symm
        · contradiction
    · contradiction
  · contradiction

theorem end?_eq_some {s : List Char} {nanos : Nat} {offset : Int}
    (read : end? s = some (nanos, offset)) :
    nanos < 1000000000 ∧ ∃ rest, offset? rest = some offset := by
  unfold end? at read
  split at read
  · dsimp only at read
    split at read
    · contradiction
    · obtain ⟨o, written, same⟩ := Option.map_eq_some_iff.mp read
      cases same
      exact ⟨nanosOf_lt _, _, written⟩
  · obtain ⟨o, written, same⟩ := Option.map_eq_some_iff.mp read
    cases same
    exact ⟨by decide, _, written⟩

theorem end?_bounds {s : List Char} {nanos : Nat} {offset : Int}
    (read : end? s = some (nanos, offset)) :
    nanos < 1000000000 ∧ offset % 60 = 0 ∧ -86400 < offset ∧ offset < 86400 := by
  obtain ⟨fraction, rest, written⟩ := end?_eq_some read
  obtain ⟨hours, minutes, _, _, ahead | behind⟩ := offset?_eq_some written
  · omega
  · omega

theorem ofTime?_readable {d : Date} {hour minute second nanos : Nat} {offset : Int}
    {t : Timestamp} (read : ofTime? d hour minute second nanos offset = some t)
    (fraction : nanos < 1000000000) (whole : offset % 60 = 0) : t.Readable := by
  unfold ofTime? at read
  split at read
  · cases read
    by_cases leap : second = 60
    · simp only [Readable, leap, beq_self_eq_true, if_true]
      omega
    · simp only [Readable, beq_iff_eq, leap, if_false]
      omega
  · contradiction

theorem ofText?_readable {s : List Char} {t : Timestamp} (read : ofText? s = some t) :
    t.Readable := by
  unfold ofText? at read
  split at read
  · obtain ⟨year, _, read⟩ := Option.bind_eq_some_iff.mp read
    obtain ⟨month, _, read⟩ := Option.bind_eq_some_iff.mp read
    obtain ⟨day, _, read⟩ := Option.bind_eq_some_iff.mp read
    obtain ⟨hour, _, read⟩ := Option.bind_eq_some_iff.mp read
    obtain ⟨minute, _, read⟩ := Option.bind_eq_some_iff.mp read
    obtain ⟨second, _, read⟩ := Option.bind_eq_some_iff.mp read
    obtain ⟨⟨nanos, offset⟩, ended, read⟩ := Option.bind_eq_some_iff.mp read
    obtain ⟨fraction, whole, _⟩ := end?_bounds ended
    dsimp only at read
    split at read
    · exact ofTime?_readable read fraction whole
    · contradiction
  · contradiction

theorem end?_millis {millis : Nat} (fits : millis < 1000) : end? ('.' :: padded 3 millis ++ ['Z']) =
      some (millis * 1000000, 0) := by
  have length : (padded 3 millis).length = 3 := length_padded (by decide) fits
  have some : padded 3 millis ≠ [] := by
    intro none
    simp [none] at length
  have digits : ∀ c ∈ padded 3 millis, c.isDigit = true := fun _ => isDigit_of_mem_padded
  have taken : (padded 3 millis ++ ['Z']).takeWhile Char.isDigit = padded 3 millis := by
    rw [List.takeWhile_append_of_pos digits]
    simp
  have dropped : (padded 3 millis ++ ['Z']).dropWhile Char.isDigit = ['Z'] := by
    rw [List.dropWhile_append_of_pos digits]
    simp
  have nine : (padded 3 millis ++ List.replicate 9 '0').take 9 =
      padded 3 millis ++ List.replicate 6 '0' := by
    rw [List.take_append, length, List.take_of_length_le (by omega)]
    rfl
  have value : nanosOf (padded 3 millis) = millis * 1000000 := by
    rw [nanosOf, nine, number?_append_zeros (by decide) 6 some, number?_padded]
    rfl
  simp only [end?, List.cons_append, taken, dropped, value]
  simp [some, offset?]

theorem ofText?_text {t : Timestamp} (readable : t.Readable) (four : t.FourDigitYear) :
    ofText? t.text = some ⟨t.seconds, t.nanos / 1000000 * 1000000⟩ := by
  obtain ⟨fraction, leap⟩ := readable
  obtain ⟨from_, upto⟩ := four
  have bounds : t.date.month < 100 ∧ t.date.day < 100 := Date.ofDay_lt_hundred _
  have clock : t.secondOfDay < 86400 := by
    simp only [secondOfDay]
    omega
  have minutes : (t.secondOfDay : Int) % 60 = t.seconds % 60 := by
    simp only [secondOfDay]
    omega
  have small : t.date.year.natAbs < 10000 := by omega
  obtain ⟨y1, y2, y3, y4, yearDigits, year⟩ := padded_four small
  obtain ⟨m1, m2, monthDigits, month⟩ := padded_two bounds.1
  obtain ⟨d1, d2, dayDigits, day⟩ := padded_two bounds.2
  obtain ⟨h1, h2, hourDigits, hour⟩ :=
    padded_two (show t.secondOfDay / 3600 < 100 by omega)
  obtain ⟨n1, n2, minuteDigits, minute⟩ :=
    padded_two (show t.secondOfDay / 60 % 60 < 100 by omega)
  obtain ⟨s1, s2, secondDigits, second⟩ :=
    padded_two (show t.secondOfDay % 60 + t.nanos / 1000000000 < 100 by omega)
  have millis := end?_millis (show t.nanos % 1000000000 / 1000000 < 1000 by omega)
  have plain : yearText t.date.year = padded 4 t.date.year.natAbs := by
    simp only [yearText]
    rw [if_neg (by omega), if_neg (by omega)]
  have written : t.text = y1 :: y2 :: y3 :: y4 :: '-' :: m1 :: m2 :: '-' :: d1 :: d2 :: 'T' ::
      h1 :: h2 :: ':' :: n1 :: n2 :: ':' :: s1 :: s2 ::
      ('.' :: padded 3 (t.nanos % 1000000000 / 1000000) ++ ['Z']) := by
    simp only [text, plain, yearDigits, monthDigits, dayDigits, hourDigits, minuteDigits,
      secondDigits]
    rfl
  have sameDate : (⟨(t.date.year.natAbs : Nat), t.date.month, t.date.day⟩ : Date) = t.date := by
    rw [Int.natAbs_of_nonneg from_]
  rw [written]
  simp only [ofText?, year, month, day, hour, minute, second, millis, Option.bind_eq_bind,
    Option.bind_some, sameDate, true_or, if_true]
  have valid : t.date.isValid = true := Date.isValid_ofDay _
  have sameDay : t.date.toDay = t.seconds / 86400 + epochDay := Date.toDay_ofDay _
  have whole : (t.secondOfDay : Int) = t.seconds % 86400 := by
    simp only [secondOfDay]
    omega
  by_cases extra : 1000000000 ≤ t.nanos
  · have last := leap extra
    have sixty : t.secondOfDay % 60 + t.nanos / 1000000000 = 60 := by omega
    rw [ofTime?, if_pos ⟨valid, by omega, by omega, by omega⟩, sameDay]
    simp only [sixty, beq_self_eq_true, if_true, Option.some.injEq, Timestamp.mk.injEq]
    omega
  · have ordinary : t.secondOfDay % 60 + t.nanos / 1000000000 = t.secondOfDay % 60 := by omega
    have notSixty : (t.secondOfDay % 60 == 60) = false := by
      rw [beq_eq_false_iff_ne]
      omega
    rw [ofTime?, if_pos ⟨valid, by omega, by omega, by omega⟩, sameDay]
    simp only [ordinary, notSixty, Bool.false_eq_true, if_false, Option.some.injEq,
      Timestamp.mk.injEq]
    omega

end Timestamp

end DataLayer.Time
