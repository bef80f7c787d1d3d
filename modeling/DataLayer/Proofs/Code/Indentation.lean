import DataLayer.Proofs.Code.Layout
import Mathlib.Algebra.Ring.Int.Defs
import Mathlib.Data.List.Infix

/- How steps move the indentation. A dedent at the left margin moves nothing, so that the level at
   which steps end is what their moves add up to only where none of these is lost there. Steps that
   lose none add the same lines at every level, further in by this level. -/
namespace DataLayer.Code

mutual

def Step.moves : Step → List Int
  | .line _ => []
  | .blank => []
  | .indent => [1]
  | .dedent => [-1]
  | .block _ body => 1 :: (movesOf body ++ [-1])
  | .doc _ => []

def movesOf : List Step → List Int
  | [] => []
  | step :: rest => step.moves ++ movesOf rest

end

/-- Moves that never lead below the left margin from a height above it. -/
def StaysAbove (height : Int) (moves : List Int) : Prop :=
  ∀ before, before <+: moves → 0 ≤ height + before.sum

instance (height : Int) (moves : List Int) : Decidable (StaysAbove height moves) :=
  decidable_of_iff (∀ before ∈ moves.inits, 0 ≤ height + before.sum) <| by
    simp only [List.mem_inits, StaysAbove]

def NeverBelow (steps : List Step) : Prop := StaysAbove 0 (movesOf steps)

instance (steps : List Step) : Decidable (NeverBelow steps) :=
  inferInstanceAs (Decidable (StaysAbove 0 (movesOf steps)))

section Moves
variable {height : Int} {moves : List Int}

theorem StaysAbove.nonneg (above : StaysAbove height moves) : 0 ≤ height := by
  have start := above [] List.nil_prefix
  rwa [List.sum_nil, Int.add_zero] at start

theorem StaysAbove.end_nonneg (above : StaysAbove height moves) : 0 ≤ height + moves.sum :=
  above moves (List.prefix_refl moves)

theorem StaysAbove.mono {higher : Int} (le : height ≤ higher) (above : StaysAbove height moves) :
    StaysAbove higher moves := by
  intro before begins
  have reached := above before begins
  omega

theorem staysAbove_nil : StaysAbove height [] ↔ 0 ≤ height := by
  refine ⟨StaysAbove.nonneg, fun nonneg before begins => ?_⟩
  rw [List.prefix_nil.mp begins, List.sum_nil, Int.add_zero]
  exact nonneg

theorem staysAbove_cons {move : Int} :
    StaysAbove height (move :: moves) ↔ 0 ≤ height ∧ StaysAbove (height + move) moves := by
  constructor
  · intro above
    refine ⟨above.nonneg, fun before begins => ?_⟩
    have reached := above (move :: before) (List.cons_prefix_cons.mpr ⟨rfl, begins⟩)
    rwa [List.sum_cons, ← Int.add_assoc] at reached
  · intro ⟨nonneg, above⟩ before begins
    rcases List.prefix_cons_iff.mp begins with rfl | ⟨more, rfl, rest⟩
    · rwa [List.sum_nil, Int.add_zero]
    · rw [List.sum_cons, ← Int.add_assoc]
      exact above more rest

theorem staysAbove_append {more : List Int} :
    StaysAbove height (moves ++ more) ↔
      StaysAbove height moves ∧ StaysAbove (height + moves.sum) more := by
  induction moves generalizing height with
  | nil =>
    rw [List.nil_append, List.sum_nil, Int.add_zero, staysAbove_nil]
    exact ⟨fun above => ⟨above.nonneg, above⟩, And.right⟩
  | cons move moves ih =>
    rw [List.cons_append, staysAbove_cons, ih, staysAbove_cons, List.sum_cons, Int.add_assoc,
      and_assoc]

theorem exists_staysAbove (moves : List Int) : ∃ height : Nat, StaysAbove height moves := by
  induction moves with
  | nil => exact ⟨0, staysAbove_nil.mpr (Int.le_refl 0)⟩
  | cons move moves ih =>
    obtain ⟨height, above⟩ := ih
    refine ⟨height + move.natAbs, staysAbove_cons.mpr ⟨by omega, above.mono ?_⟩⟩
    omega

def moved (level : Nat) (move : Int) : Nat := (level + move).toNat

theorem le_foldl_moved (moves : List Int) (level : Nat) :
    level + moves.sum ≤ (moves.foldl moved level : Nat) := by
  induction moves generalizing level with
  | nil => simp
  | cons move moves ih =>
    have rest := ih (moved level move)
    have first : level + move ≤ (moved level move : Nat) := Int.self_le_toNat _
    rw [List.sum_cons, List.foldl_cons]
    omega

/-- A level is what the moves add up to exactly if none is lost at the left margin. -/
theorem foldl_moved_eq_iff (level : Nat) :
    ((moves.foldl moved level : Nat) : Int) = level + moves.sum ↔ StaysAbove level moves := by
  induction moves generalizing level with
  | nil => simp [staysAbove_nil]
  | cons move moves ih =>
    rw [List.sum_cons, List.foldl_cons, staysAbove_cons, ← Int.add_assoc]
    by_cases inside : 0 ≤ level + move
    · have first : ((moved level move : Nat) : Int) = level + move := Int.toNat_of_nonneg inside
      rw [← first, ih]
      exact ⟨fun above => ⟨by omega, above⟩, And.right⟩
    · -- the move is lost, and the level stays greater than the sum
      have lost : ((moved level move : Nat) : Int) = 0 := by
        rw [moved]
        omega
      have bound := le_foldl_moved moves (moved level move)
      refine ⟨fun same => ?_, fun above => ?_⟩
      · omega
      · exact absurd above.2.nonneg inside

end Moves

mutual

theorem level_emit (level : Nat) :
    (step : Step) → (step.emit level).2 = step.moves.foldl moved level
  | .line _ => rfl
  | .blank => rfl
  | .indent => by
      simp only [Step.emit, Step.moves, List.foldl_cons, List.foldl_nil, moved]
      omega
  | .dedent => by
      simp only [Step.emit, Step.moves, List.foldl_cons, List.foldl_nil, moved]
      omega
  | .block _ body => by
      have start : moved level 1 = level + 1 := by
        rw [moved]
        omega
      simp only [Step.emit, Step.moves, List.foldl_cons, List.foldl_append, List.foldl_nil, start,
        level_emitAll (level + 1) body]
      rw [moved]
      omega
  | .doc _ => rfl

theorem level_emitAll (level : Nat) :
    (steps : List Step) → (emitAll level steps).2 = (movesOf steps).foldl moved level
  | [] => rfl
  | step :: rest => by
      simp only [emitAll, movesOf, List.foldl_append, level_emit level step,
        level_emitAll _ rest]

end

theorem level_emit_eq_iff (level : Nat) (step : Step) :
    ((step.emit level).2 : Int) = level + step.moves.sum ↔ StaysAbove level step.moves := by
  rw [level_emit, foldl_moved_eq_iff]

theorem level_eq_iff (level : Nat) (steps : List Step) :
    ((emitAll level steps).2 : Int) = level + (movesOf steps).sum ↔
      StaysAbove level (movesOf steps) := by
  rw [level_emitAll, foldl_moved_eq_iff]

/-- Steps are balanced exactly if they make as many moves out as in and none below the level at
    which they start. -/
theorem balanced_iff (steps : List Step) :
    Balanced steps ↔ NeverBelow steps ∧ (movesOf steps).sum = 0 := by
  constructor
  · intro balanced
    obtain ⟨height, above⟩ := exists_staysAbove (movesOf steps)
    -- from this height no dedent is lost, so that the level tells the sum
    have even : (movesOf steps).sum = 0 := by
      have finish := (level_eq_iff height steps).mpr above
      rw [balanced height] at finish
      omega
    have lowest := level_eq_iff 0 steps
    rw [balanced 0, even] at lowest
    exact ⟨lowest.mp rfl, even⟩
  · intro ⟨above, even⟩ level
    have finish := (level_eq_iff level steps).mpr (above.mono (Int.natCast_nonneg level))
    rw [even] at finish
    omega

theorem indentation_add (base height : Nat) :
    indentation (base + height) = indentation base ++ indentation height := by
  induction base with
  | zero => rw [Nat.zero_add, indentation, String.empty_append]
  | succ base ih => rw [Nat.succ_add, indentation, ih, indentation, String.append_assoc]

theorem indented_indented (base height : Nat) (text : String) :
    indented base (indented height text) = indented (base + height) text := by
  by_cases empty : text = ""
  · subst empty
    rfl
  · have some : text.isEmpty = false := by simpa using empty
    have someIndented : (indentation height ++ text).isEmpty = false := by simp [empty]
    rw [indented, indented, some, if_neg Bool.false_ne_true, someIndented,
      if_neg Bool.false_ne_true, indented, some, if_neg Bool.false_ne_true, indentation_add,
      String.append_assoc]

theorem map_indented_indented (base height : Nat) (texts : List String) :
    (texts.map (indented height)).map (indented base) = texts.map (indented (base + height)) := by
  rw [List.map_map]
  exact List.map_congr_left fun text _ => indented_indented base height text

def raised (base : Nat) (written : List String × Nat) : List String × Nat :=
  (written.1.map (indented base), base + written.2)

mutual

theorem emit_raised (base height : Nat) : (step : Step) → StaysAbove height step.moves →
    step.emit (base + height) = raised base (step.emit height)
  | .line text, _ => by
      simp only [Step.emit, raised, List.map_cons, List.map_nil, indented_indented]
  | .blank, _ => rfl
  | .indent, _ => rfl
  | .dedent, above => by
      have inside : 0 ≤ (height : Int) + -1 := above.end_nonneg
      simp only [Step.emit, raised, List.map_nil, Prod.mk.injEq, true_and]
      omega
  | .block header body, above => by
      rw [Step.moves, staysAbove_cons, staysAbove_append] at above
      obtain ⟨_, inner, closing⟩ := above
      have bodyRaised := emitAll_raised base (height + 1) body inner
      have finish := (level_eq_iff (height + 1) body).mpr inner
      -- the brace that closes the block does not stand below the start either
      have inside : 1 ≤ (emitAll (height + 1) body).2 := by
        have reached := closing.end_nonneg
        simp only [List.sum_cons, List.sum_nil] at reached
        omega
      have outer : base + (emitAll (height + 1) body).2 - 1 =
          base + ((emitAll (height + 1) body).2 - 1) := by omega
      simp only [Step.emit, ← Nat.add_assoc] at bodyRaised ⊢
      simp only [bodyRaised, raised, outer, List.map_cons, List.map_append, List.map_nil,
        indented_indented]
  | .doc description, _ => by
      simp only [Step.emit, raised, map_indented_indented]

theorem emitAll_raised (base height : Nat) : (steps : List Step) →
    StaysAbove height (movesOf steps) →
    emitAll (base + height) steps = raised base (emitAll height steps)
  | [], _ => rfl
  | step :: rest, above => by
      rw [movesOf, staysAbove_append] at above
      obtain ⟨first, others⟩ := above
      -- the rest starts at the level of the first step, which its moves have led to
      have reached := (level_emit_eq_iff height step).mpr first
      rw [← reached] at others
      have firstRaised := emit_raised base height step first
      have restRaised := emitAll_raised base (step.emit height).2 rest others
      simp only [raised] at firstRaised restRaised
      simp only [emitAll, raised, firstRaised, restRaised, List.map_append]

end

/-- Steps that never dedent below their start have the same lines at every level, but for how far
    these are in. -/
theorem emitAll_of_neverBelow {steps : List Step} (above : NeverBelow steps) (level : Nat) :
    emitAll level steps = ((emitted steps).map (indented level), level + (emitAll 0 steps).2) :=
  emitAll_raised level 0 steps above

end DataLayer.Code
