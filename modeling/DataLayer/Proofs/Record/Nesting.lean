import DataLayer.Proofs.Record.Codecs

/- Lists and values that may be null, exactly, and in turns around each other. A list is read
   element by element up to the first one that is refused. What is nested is restored exactly if
   everything in it is, because no list is null and nothing that is restored is written as null. -/
namespace DataLayer.Record.Codec
open Json Outcome
variable {α : Type} {c : Codec α}

/-- The value is written as something that is not null, and is read back from there. -/
def Survives (c : Codec α) (a : α) : Prop :=
  ∃ v, c.write a = .ok v ∧ v.isNull = false ∧ c.read v = .ok a

theorem Survives.restores {a : α} (survives : c.Survives a) : c.Restores a := by
  obtain ⟨v, written, _, back⟩ := survives
  exact ⟨v, written, back⟩

/-- A codec that reads nothing from null writes nothing as null that it restores. -/
theorem survives_of_restores (refuses : ∀ a, c.read .null ≠ .ok a) {a : α}
    (restores : c.Restores a) : c.Survives a := by
  obtain ⟨v, written, back⟩ := restores
  refine ⟨v, written, ?_, back⟩
  cases v with
  | null => exact absurd back (refuses a)
  | _ => rfl

theorem list_read_eq_ok {v : Value} {values : List α} :
    c.list.read v = .ok values ↔
      ∃ vs, v = .array vs ∧ List.Forall₂ (fun v a => c.read v = .ok a) vs values := by
  constructor
  · intro read
    cases v with
    | array vs => exact ⟨vs, rfl, mapM_eq_ok.mp read⟩
    | _ => contradiction
  · rintro ⟨vs, rfl, each⟩
    exact mapM_eq_ok.mpr each

theorem list_read_eq_error {v : Value} {f : Fault} :
    c.list.read v = .error f ↔
      (∀ vs, v ≠ .array vs) ∧ f = .wrongKind "array" v.kind ∨
      ∃ before refused behind, v = .array (before ++ refused :: behind) ∧
        (∀ u ∈ before, ∃ a, c.read u = .ok a) ∧ c.read refused = .error f := by
  constructor
  · intro failed
    cases v with
    | array vs =>
      obtain ⟨before, refused, behind, rfl, fine, fails⟩ := mapM_eq_error.mp failed
      exact .inr ⟨before, refused, behind, rfl, fine, fails⟩
    | _ =>
      cases failed
      exact .inl ⟨by simp, rfl⟩
  · rintro (⟨noArray, rfl⟩ | ⟨before, refused, behind, rfl, fine, fails⟩)
    · cases v with
      | array vs => exact absurd rfl (noArray vs)
      | _ => rfl
    · exact mapM_eq_error.mpr ⟨before, refused, behind, rfl, fine, fails⟩

theorem list_restores_iff {values : List α} :
    c.list.Restores values ↔ ∀ a ∈ values, c.Restores a := by
  constructor
  · rintro ⟨v, written, back⟩ a mem
    obtain ⟨vs, writes, rfl⟩ := map_eq_ok.mp written
    have forth := mapM_eq_ok.mp writes
    obtain ⟨_, same, reads⟩ := list_read_eq_ok.mp back
    cases same
    have both : List.Forall₂ (fun a v => c.write a = .ok v ∧ c.read v = .ok a) values vs :=
      List.Forall₂.mp (fun _ _ => And.intro) forth reads.flip
    obtain ⟨v, _, writes, reads⟩ := exists_right_of_mem both mem
    exact ⟨v, writes, reads⟩
  · exact list_restores

theorem list_survives_iff {values : List α} :
    c.list.Survives values ↔ ∀ a ∈ values, c.Restores a := by
  constructor
  · intro survives
    exact list_restores_iff.mp survives.restores
  · intro each
    obtain ⟨v, written, back⟩ := list_restores each
    exact ⟨v, written, list_solid values v written, back⟩

theorem nullable_restores_iff {value : Option α} :
    c.nullable.Restores value ↔ ∀ a ∈ value, c.Survives a := by
  cases value with
  | none => exact iff_of_true ⟨.null, rfl, rfl⟩ (by simp)
  | some a =>
    constructor
    · rintro ⟨v, written, back⟩ b isB
      cases isB
      simp only [nullable] at back
      -- what is written as null is read as none and not as the value
      cases null : v.isNull with
      | true => simp [null] at back
      | false =>
        simp only [null, Bool.false_eq_true, if_false] at back
        obtain ⟨b, inner, same⟩ := map_eq_ok.mp back
        cases same
        exact ⟨v, written, null, inner⟩
    · intro each
      obtain ⟨v, written, nonNull, back⟩ := each a rfl
      refine ⟨v, written, ?_⟩
      simp only [nullable, nonNull, back, Bool.false_eq_true, if_false]
      rfl

theorem nullable_restores_toList_iff (solid : ∀ a, c.Restores a → c.Survives a)
    {value : Option α} : c.nullable.Restores value ↔ ∀ a ∈ value.toList, c.Restores a := by
  rw [nullable_restores_iff]
  refine forall_congr' fun a => ?_
  rw [Option.mem_toList]
  exact imp_congr_right fun _ => ⟨Survives.restores, solid a⟩

def OrNull : Bool → Type → Type
  | true, α => Option α
  | false, α => α

def OrNull.present : (nullable : Bool) → OrNull nullable α → List α
  | true, value => Option.toList value
  | false, value => [value]

def orNull (c : Codec α) : (nullable : Bool) → Codec (OrNull nullable α)
  | true => c.nullable
  | false => c

theorem orNull_restores_iff {nullable : Bool} {x : OrNull nullable α}
    (solid : ∀ a, c.Restores a → c.Survives a) :
    (c.orNull nullable).Restores x ↔ ∀ a ∈ OrNull.present nullable x, c.Restores a := by
  cases nullable with
  | true => exact nullable_restores_toList_iff solid
  | false => exact List.forall_mem_singleton.symm

section Inside
variable {β : Type} {inside : α → List β} {P : β → Prop}
  (each : ∀ a, c.Restores a ↔ ∀ b ∈ inside a, P b)
include each

theorem list_restores_flatMap_iff {values : List α} :
    c.list.Restores values ↔ ∀ b ∈ values.flatMap inside, P b := by
  rw [list_restores_iff, List.forall_mem_flatMap]
  exact forall_congr' fun a => imp_congr_right fun _ => each a

theorem orNull_restores_flatMap_iff {nullable : Bool} {x : OrNull nullable α}
    (solid : ∀ a, c.Restores a → c.Survives a) :
    (c.orNull nullable).Restores x ↔ ∀ b ∈ (OrNull.present nullable x).flatMap inside, P b := by
  rw [orNull_restores_iff solid, List.forall_mem_flatMap]
  exact forall_congr' fun a => imp_congr_right fun _ => each a

end Inside

inductive Nesting
  | leaf
  | list (item : Nesting) (nullable : Bool)
  deriving DecidableEq, Repr

namespace Nesting

def Values (α : Type) : Nesting → Type
  | leaf => α
  | list item nullable => List (OrNull nullable (item.Values α))

def leaves : (n : Nesting) → n.Values α → List α
  | leaf, a => [a]
  | list item nullable, values =>
      List.flatMap (fun x => (OrNull.present nullable x).flatMap item.leaves) values

def codec (c : Codec α) : (n : Nesting) → Codec (n.Values α)
  | leaf => c
  | list item nullable => ((item.codec c).orNull nullable).list

theorem survives_of_restores {n : Nesting} {x : n.Values α}
    (solid : ∀ a, c.Restores a → c.Survives a) (restores : (n.codec c).Restores x) :
    (n.codec c).Survives x := by
  cases n with
  | leaf => exact solid x restores
  | list item nullable => exact list_survives_iff.mpr (list_restores_iff.mp restores)

theorem restores_iff {n : Nesting} {x : n.Values α}
    (solid : ∀ a, c.Restores a → c.Survives a) :
    (n.codec c).Restores x ↔ ∀ a ∈ n.leaves x, c.Restores a := by
  induction n with
  | leaf => exact List.forall_mem_singleton.symm
  | list item nullable ih =>
    have inside (y : OrNull nullable (item.Values α)) :
        ((item.codec c).orNull nullable).Restores y ↔
          ∀ a ∈ (OrNull.present nullable y).flatMap item.leaves, c.Restores a :=
      orNull_restores_flatMap_iff (fun _ => ih) fun _ => survives_of_restores solid
    exact list_restores_flatMap_iff inside

/-- A value of any depth is restored exactly if all its leaves are. -/
theorem orNull_restores_iff {n : Nesting} {nullable : Bool} {x : OrNull nullable (n.Values α)}
    (solid : ∀ a, c.Restores a → c.Survives a) :
    ((n.codec c).orNull nullable).Restores x ↔
      ∀ a ∈ (OrNull.present nullable x).flatMap n.leaves, c.Restores a :=
  orNull_restores_flatMap_iff (fun _ => restores_iff solid) fun _ => survives_of_restores solid

end Nesting

end DataLayer.Record.Codec
