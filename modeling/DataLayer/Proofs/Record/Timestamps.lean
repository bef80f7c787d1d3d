import DataLayer.Proofs.Record.Rewriting
import DataLayer.Proofs.Time.Offsets

/- Moments in a record, exactly. A moment of a year with four digits is written in universal time
   and in milliseconds and is then settled. A moment that the offset of its text has taken out of
   those years is written too, but what is written is not read. -/
namespace DataLayer.Time.Timestamp

/-- The moment without what is less than a millisecond. A leap second stays one. -/
def cut (t : Timestamp) : Timestamp := { t with nanos := t.nanos - t.nanos % 1000000 }

theorem cut_nanos (t : Timestamp) : t.cut.nanos = t.nanos / 1000000 * 1000000 := by
  simp only [cut]
  omega

theorem date_cut (t : Timestamp) : t.cut.date = t.date := rfl

theorem secondOfDay_cut (t : Timestamp) : t.cut.secondOfDay = t.secondOfDay := rfl

theorem text_cut (t : Timestamp) : t.cut.text = t.text := by
  have second : t.cut.nanos / 1000000000 = t.nanos / 1000000000 := by
    rw [cut_nanos]
    omega
  have millis : t.cut.nanos % 1000000000 / 1000000 = t.nanos % 1000000000 / 1000000 := by
    rw [cut_nanos]
    omega
  simp only [text, date_cut, secondOfDay_cut, second, millis]

theorem cut_eq_self_iff {t : Timestamp} : t.cut = t ↔ t.nanos % 1000000 = 0 := by
  obtain ⟨seconds, nanos⟩ := t
  simp only [cut, mk.injEq, true_and]
  omega

theorem ofText?_text_cut {t : Timestamp} (readable : t.Readable) (four : t.FourDigitYear) :
    ofText? t.text = some t.cut := by
  rw [ofText?_text readable four, ← cut_nanos]
  rfl

end DataLayer.Time.Timestamp

namespace DataLayer.Record.Codec
open Json Time

variable {v : Value} {t : Timestamp}

theorem timestamp_write (t : Timestamp) :
    timestamp.write t = .ok (.string (String.ofList t.text)) :=
  rfl

/-- One writing and reading takes what is less than a millisecond from a moment, and nothing else is
    ever taken from it or written for it again. -/
theorem timestamp_settles (read : timestamp.read v = .ok t) (four : t.FourDigitYear) :
    ∃ w, timestamp.write t = .ok w ∧ timestamp.read w = .ok t.cut ∧
      timestamp.write t.cut = .ok w ∧ ∀ u, timestamp.Rewrites w u ↔ u = w := by
  have readable : t.Readable := timestamp_yields v t read
  have back : timestamp.read (.string (String.ofList t.text)) = .ok t.cut :=
    formatted_read_written.mpr (Timestamp.ofText?_text_cut readable four)
  have written : timestamp.write t.cut = .ok (.string (String.ofList t.text)) := by
    rw [timestamp_write, t.text_cut]
  exact ⟨_, rfl, back, written, fun u => rewrites_iff_of_back written back⟩

def leapSecond : Value := .string "2016-12-31T16:59:60.9876543210-07:00"

def settledLeapSecond : Value := .string "2016-12-31T23:59:60.987Z"

theorem leapSecond_settles :
    ∃ t, timestamp.read leapSecond = .ok t ∧ t.FourDigitYear ∧ t.nanos = 1987654321 ∧
      t.cut.nanos = 1987000000 ∧ timestamp.write t = .ok settledLeapSecond ∧
      timestamp.read settledLeapSecond = .ok t.cut ∧
      timestamp.write t.cut = .ok settledLeapSecond ∧
      ∀ u, timestamp.Rewrites settledLeapSecond u ↔ u = settledLeapSecond := by
  have read : timestamp.read leapSecond = .ok ⟨1483228799, 1987654321⟩ :=
    Outcome.eq_ok_of_toOption (by decide +kernel)
  have four : Timestamp.FourDigitYear ⟨1483228799, 1987654321⟩ := by decide +kernel
  have text : String.ofList (Timestamp.text ⟨1483228799, 1987654321⟩) =
      "2016-12-31T23:59:60.987Z" := by
    decide +kernel
  obtain ⟨w, written, settled⟩ := timestamp_settles read four
  have same : w = settledLeapSecond := by
    rw [timestamp_write, text] at written
    exact (Except.ok.inj written).symm
  subst same
  exact ⟨_, read, four, rfl, rfl, written, settled⟩

theorem timestamp_restores_iff : timestamp.Restores t ↔ t.Readable ∧ t.InMillis := by
  constructor
  · rintro ⟨w, written, back⟩
    have readable : t.Readable := timestamp_yields w t back
    cases written
    replace back := formatted_read_written.mp back
    have four : t.FourDigitYear := by
      by_contra outside
      rw [Timestamp.ofText?_text_eq_none outside] at back
      contradiction
    rw [Timestamp.ofText?_text_cut readable four] at back
    exact ⟨readable, Timestamp.cut_eq_self_iff.mp (Option.some.inj back), four⟩
  · rintro ⟨readable, inMillis⟩
    exact timestamp_restores readable inMillis

/-- What is written for a moment that has been read is read again exactly if the offset of its text
    does not cross the first midnight of the years of four digits or the last. -/
theorem timestamp_rereads_iff (read : timestamp.read v = .ok t) :
    ∃ s l w, v = .string s ∧ (∀ k, LocalTime.Spells s.toList k ↔ k = l) ∧ l.moment? = some t ∧
      timestamp.write t = .ok (.string w) ∧
      ((∃ u, timestamp.read (.string w) = .ok u) ↔ ¬ l.Crosses) ∧
      (l.Crosses →
        timestamp.read (.string w) = .error (.badValue "RFC 3339 timestamp" w)) := by
  obtain ⟨s, rfl, given⟩ := formatted_read_eq_ok.mp read
  obtain ⟨l, spells, moment⟩ := LocalTime.ofText?_eq_some_iff.mp given
  have single (k : LocalTime) : LocalTime.Spells s.toList k ↔ k = l := by
    constructor
    · intro other
      exact other.unique spells rfl
    · rintro rfl
      exact spells
  have four : t.FourDigitYear ↔ ¬ l.Crosses := LocalTime.fourDigitYear_iff spells moment
  have refused (crosses : l.Crosses) : timestamp.read (.string (String.ofList t.text)) =
      .error (.badValue "RFC 3339 timestamp" (String.ofList t.text)) := by
    have outside : ¬ t.FourDigitYear := fun inside => four.mp inside crosses
    exact formatted_read_written_eq_error.mpr ⟨Timestamp.ofText?_text_eq_none outside, rfl⟩
  refine ⟨s, l, String.ofList t.text, rfl, single, moment, rfl, ?_, refused⟩
  constructor
  · rintro ⟨u, back⟩ crosses
    rw [refused crosses] at back
    contradiction
  · intro inside
    obtain ⟨w, written, back, _⟩ := timestamp_settles read (four.mpr inside)
    cases written
    exact ⟨t.cut, back⟩

def firstMidnight : LocalTime where
  date := ⟨0, 1, 1⟩
  hour := 0
  minute := 30
  second := 0
  nanos := 0
  offset := 1800

theorem firstMidnight_rereads :
    ∃ t w, timestamp.read (.string "0000-01-01T00:30:00+00:30") = .ok t ∧
      firstMidnight.moment? = some t ∧ ¬ firstMidnight.Crosses ∧
      timestamp.write t = .ok (.string w) ∧ ∃ u, timestamp.read (.string w) = .ok u := by
  have moment : firstMidnight.moment? = some ⟨-62167219200, 0⟩ := by decide +kernel
  have read : timestamp.read (.string "0000-01-01T00:30:00+00:30") = .ok ⟨-62167219200, 0⟩ :=
    Outcome.eq_ok_of_toOption (by decide +kernel)
  have spells : LocalTime.Spells "0000-01-01T00:30:00+00:30".toList firstMidnight := by
    have year : LocalTime.Numeral 4 ['0', '0', '0', '0'] 0 := ⟨rfl, rfl⟩
    have one : LocalTime.Numeral 2 ['0', '1'] 1 := ⟨rfl, rfl⟩
    have zero : LocalTime.Numeral 2 ['0', '0'] 0 := ⟨rfl, rfl⟩
    have thirty : LocalTime.Numeral 2 ['3', '0'] 30 := ⟨rfl, rfl⟩
    have ended : Timestamp.end? ['+', '0', '0', ':', '3', '0'] = some (0, 1800) := rfl
    exact .parts year one one zero thirty zero (.inl rfl) ended
  obtain ⟨s, l, w, same, single, _, written, back, _⟩ := timestamp_rereads_iff read
  cases same
  have inside : ¬ firstMidnight.Crosses := by decide
  rw [← (single firstMidnight).mp spells] at back
  exact ⟨_, w, read, moment, inside, written, back.mpr inside⟩

theorem crossing_timestamps_unread :
    (∃ t, timestamp.read (.string "0000-01-01T00:00:00+00:01") = .ok t ∧
      timestamp.write t = .ok (.string "-0001-12-31T23:59:00.000Z")) ∧
    timestamp.read (.string "-0001-12-31T23:59:00.000Z") =
      .error (.badValue "RFC 3339 timestamp" "-0001-12-31T23:59:00.000Z") ∧
    (∃ t, timestamp.read (.string "9999-12-31T23:59:00-00:01") = .ok t ∧
      timestamp.write t = .ok (.string "+10000-01-01T00:00:00.000Z")) ∧
    timestamp.read (.string "+10000-01-01T00:00:00.000Z") =
      .error (.badValue "RFC 3339 timestamp" "+10000-01-01T00:00:00.000Z") := by
  have low : timestamp.read (.string "0000-01-01T00:00:00+00:01") = .ok ⟨-62167219260, 0⟩ :=
    Outcome.eq_ok_of_toOption (by decide +kernel)
  have lowText : String.ofList (Timestamp.text ⟨-62167219260, 0⟩) = "-0001-12-31T23:59:00.000Z" := by
    decide +kernel
  have high : timestamp.read (.string "9999-12-31T23:59:00-00:01") = .ok ⟨253402300800, 0⟩ :=
    Outcome.eq_ok_of_toOption (by decide +kernel)
  have highText : String.ofList (Timestamp.text ⟨253402300800, 0⟩) =
      "+10000-01-01T00:00:00.000Z" := by
    decide +kernel
  refine ⟨⟨_, low, ?_⟩, ?_, ⟨_, high, ?_⟩, ?_⟩
  · rw [timestamp_write, lowText]
  · exact formatted_read_string_eq_error.mpr ⟨by decide +kernel, rfl⟩
  · rw [timestamp_write, highText]
  · exact formatted_read_string_eq_error.mpr ⟨by decide +kernel, rfl⟩

end DataLayer.Record.Codec
