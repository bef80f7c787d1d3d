import DataLayer.Code.Scope
import DataLayer.Proofs.Outcome
import DataLayer.Proofs.Tables

/- Claims in a scope. A claim that goes through gives the identifier to its source and leaves all
   others as they were, so that a run of claims goes through exactly if no identifier is claimed for
   two sources. -/
namespace DataLayer.Code.Scope
open Outcome
variable {s t : Scope} {ident source : String}

theorem get?_of_claim (run : s.claim ident source = .ok t) (other : String) :
    t.claimed.get? other = if other = ident then some source else s.claimed.get? other := by
  unfold Scope.claim at run
  split at run
  · cases run
    exact Table.get?_insert s.claimed ident source other
  · rename_i held
    split at run
    · rename_i same
      cases run
      split
      · rename_i here
        rw [here, held, same]
      · rfl
    · contradiction

theorem claim_succeeds :
    Succeeds (s.claim ident source) ↔
      ∀ holder, s.claimed.get? ident = some holder → holder = source := by
  unfold Scope.claim
  cases s.claimed.get? ident with
  | none => simp [succeeds_ok]
  | some holder =>
    by_cases same : holder = source
    · simp [same, succeeds_ok]
    · simp [same, not_succeeds_error]

theorem claim_eq_ok (run : s.claim ident source = .ok t) :
    t.claimed.get? ident = some source ∧
      ∀ other holder, s.claimed.get? other = some holder → t.claimed.get? other = some holder := by
  refine ⟨by simp [get?_of_claim run], fun other holder held => ?_⟩
  rw [get?_of_claim run]
  split
  · rename_i here
    rw [claim_succeeds.mp ⟨t, run⟩ holder (here ▸ held)]
  · exact held

/-- The claims agree with those that the scope holds already and with each other. -/
structure Admits (s : Scope) (claims : List (String × String)) : Prop where
  held : ∀ c ∈ claims, ∀ holder, s.claimed.get? c.1 = some holder → holder = c.2
  alike : ∀ a ∈ claims, ∀ b ∈ claims, a.1 = b.1 → a.2 = b.2

theorem admits_nil (s : Scope) : s.Admits [] := ⟨by simp, by simp⟩

theorem admits_cons {claims : List (String × String)} :
    s.Admits ((ident, source) :: claims) ↔
      ∃ t, s.claim ident source = .ok t ∧ t.Admits claims := by
  constructor
  · intro ⟨held, alike⟩
    obtain ⟨t, run⟩ := claim_succeeds.mpr (held (ident, source) List.mem_cons_self)
    refine ⟨t, run, ?_, ?_⟩
    · intro c mem holder found
      rw [get?_of_claim run] at found
      split at found
      · rename_i here
        cases found
        exact alike (ident, source) List.mem_cons_self c (List.mem_cons_of_mem _ mem) here.symm
      · exact held c (List.mem_cons_of_mem _ mem) holder found
    · intro a first b second
      exact alike a (List.mem_cons_of_mem _ first) b (List.mem_cons_of_mem _ second)
  · rintro ⟨t, run, held, alike⟩
    have mine : ∀ c ∈ claims, c.1 = ident → source = c.2 := by
      intro c mem here
      exact held c mem source (by simp [get?_of_claim run, here])
    refine ⟨?_, ?_⟩
    · intro c mem holder found
      rcases List.mem_cons.mp mem with rfl | mem
      · exact claim_succeeds.mp ⟨t, run⟩ holder found
      · exact held c mem holder ((claim_eq_ok run).2 c.1 holder found)
    · intro a first b second same
      rcases List.mem_cons.mp first with rfl | first
      · rcases List.mem_cons.mp second with rfl | second
        · rfl
        · exact mine b second same.symm
      · rcases List.mem_cons.mp second with rfl | second
        · exact (mine a first same).symm
        · exact alike a first b second same

theorem admits_new {label : String} {claims : List (String × String)} :
    (Scope.new label).Admits claims ↔ ∀ a ∈ claims, ∀ b ∈ claims, a.1 = b.1 → a.2 = b.2 := by
  constructor
  · exact Admits.alike
  · intro alike
    refine ⟨fun c _ holder found => ?_, alike⟩
    simp [Scope.new, Table.empty, Table.get?] at found

end DataLayer.Code.Scope
