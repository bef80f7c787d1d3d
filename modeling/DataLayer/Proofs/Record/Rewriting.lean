import DataLayer.Proofs.Record.Codecs

/- Values of a record that are read and written again. What is written is settled if it is read
   back: rewriting it once more, or any number of times, gives nothing else. -/
namespace DataLayer.Record.Codec
open Json
variable {α : Type} {c : Codec α} {v w u : Value}

def Rewrites (c : Codec α) (v w : Value) : Prop := ∃ a, c.read v = .ok a ∧ c.write a = .ok w

theorem Rewrites.unique (first : c.Rewrites v w) (second : c.Rewrites v u) : w = u := by
  obtain ⟨a, read, written⟩ := first
  obtain ⟨b, readAgain, writtenAgain⟩ := second
  rw [read] at readAgain
  cases readAgain
  rw [written] at writtenAgain
  exact Except.ok.inj writtenAgain

theorem rewrites_iff_of_back {a : α} (written : c.write a = .ok w) (back : c.read w = .ok a) :
    c.Rewrites w u ↔ u = w := by
  have again : c.Rewrites w w := ⟨a, back, written⟩
  constructor
  · intro other
    exact other.unique again
  · rintro rfl
    exact again

/-- What has been rewritten is not changed by rewriting it, if what is written is read back. -/
theorem Rewrites.settled (restores : ∀ a, c.Restores a) (rewrites : c.Rewrites v w) :
    c.Rewrites w u ↔ u = w := by
  obtain ⟨a, _, written⟩ := rewrites
  obtain ⟨x, writtenAgain, back⟩ := restores a
  rw [written] at writtenAgain
  cases writtenAgain
  exact rewrites_iff_of_back written back

end DataLayer.Record.Codec
