/- Sets of characters as ascending spans of code points. A span may skip every second code point,
   which is how upper and lower case alternate in most alphabets. -/
namespace DataLayer.Text

structure Span where
  first : Nat
  last : Nat
  step : Nat
  deriving DecidableEq, Repr

def Span.holds (s : Span) (n : Nat) : Bool :=
  s.first ≤ n && n ≤ s.last && (n - s.first) % s.step == 0

/-- Looks through ascending spans and stops at the first that begins after the code point. -/
def spansHold : List Span → Nat → Bool
  | [], _ => false
  | s :: rest, n => if n < s.first then false else s.holds n || spansHold rest n

theorem exists_of_spansHold {spans : List Span} {n : Nat} (held : spansHold spans n = true) :
    ∃ s ∈ spans, s.holds n = true := by
  induction spans with
  | nil => simp [spansHold] at held
  | cons s rest ih =>
    simp only [spansHold] at held
    split at held
    · contradiction
    · rcases Bool.or_eq_true _ _ ▸ held with here | there
      · exact ⟨s, by simp, here⟩
      · obtain ⟨t, mem, ht⟩ := ih there
        exact ⟨t, by simp [mem], ht⟩

end DataLayer.Text
