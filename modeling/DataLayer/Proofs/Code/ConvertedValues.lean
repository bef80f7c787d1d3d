import DataLayer.Code.Conversion
import DataLayer.Proofs.Record.Nesting
import DataLayer.Proofs.Record.Timestamps

/- What the conversions of a property do to its values. A property of lists around a scalar is read
   and written by the codec of the scalar, lifted through the lists and through what may be null in
   them. Lifting loses nothing: a value is restored exactly if the scalars in it are. -/
namespace DataLayer.Schema
open Number Time Record.Codec

def Scalar.Values : Scalar → Type
  | .id => String
  | .string => String
  | .int => Int32
  | .float => Binary64
  | .boolean => Bool
  | .dateTime => Timestamp
  | .bigInt => Int
  | .bytes => List UInt8

def PropertyType.nesting : PropertyType → Nesting
  | .list item nullable _ => .list item.nesting nullable
  | .scalar _ | .enumeration _ | .object _ | .union _ | .reference _ | .inverse _ _ => .leaf

end DataLayer.Schema

namespace DataLayer.Record.Codec
open Json Schema Outcome
variable {α : Type}

def ofScalar : (s : Scalar) → Codec s.Values
  | .id => text
  | .string => text
  | .int => integer
  | .float => double
  | .boolean => boolean
  | .dateTime => timestamp
  | .bigInt => wholeNumber
  | .bytes => bytes

/-- A number that is finite, a moment that can be read and is written without loss, or any value of
    another scalar. -/
def Durable : (s : Scalar) → s.Values → Prop
  | .float, x => ∃ d, x = .finite d
  | .dateTime, t => Time.Timestamp.Readable t ∧ Time.Timestamp.InMillis t
  | .id, _ | .string, _ | .int, _ | .boolean, _ | .bigInt, _ | .bytes, _ => True

theorem ofScalar_restores_iff {s : Scalar} {a : s.Values} :
    (ofScalar s).Restores a ↔ Durable s a := by
  cases s with
  | id => exact iff_of_true (text_restores a) trivial
  | string => exact iff_of_true (text_restores a) trivial
  | int => exact iff_of_true (integer_restores a) trivial
  | float => exact double_restores_iff
  | boolean => exact iff_of_true (boolean_restores a) trivial
  | dateTime => exact timestamp_restores_iff
  | bigInt => exact iff_of_true (wholeNumber_restores a) trivial
  | bytes => exact iff_of_true (bytes_restores a) trivial

theorem ofScalar_read_null (s : Scalar) (a : s.Values) : (ofScalar s).read .null ≠ .ok a := by
  intro read
  cases s <;> contradiction

def ofPair (read : Value → Except Fault α) (write : α → Value) : Codec α where
  read := read
  write a := .ok (write a)

/-- What is made of the values of a reader and a writer is read back: null or a value, an array, and
    lists of any depth. -/
structure Lifts (read : Value → Except Fault α) (write : α → Value) : Prop where
  absent : (ofPair read write).nullable.read .null = .ok none
  present : ∀ a, (ofPair read write).nullable.read (write a) = .ok (some a)
  array : ∀ values, (ofPair read write).list.read (.array (values.map write)) = .ok values
  nested : ∀ (n : Nesting) (nullable : Bool) (x : OrNull nullable (n.Values α)),
    ((n.codec (ofPair read write)).orNull nullable).Restores x

structure ReadsLists (c : Codec α) (v : Value) : Prop where
  accepted : ∀ values, c.list.read v = .ok values ↔
    ∃ vs, v = .array vs ∧ List.Forall₂ (fun v a => c.read v = .ok a) vs values
  refused : ∀ f, c.list.read v = .error f ↔
    (∀ vs, v ≠ .array vs) ∧ f = .wrongKind "array" v.kind ∨
    ∃ before refused behind, v = .array (before ++ refused :: behind) ∧
      (∀ u ∈ before, ∃ a, c.read u = .ok a) ∧ c.read refused = .error f

theorem lifts_of_back {read : Value → Except Fault α} {write : α → Value}
    (back : ∀ a, read (write a) = .ok a) (nonNull : ∀ a, (write a).isNull = false) :
    Lifts read write where
  absent := rfl
  present a := by
    simp only [nullable, ofPair, nonNull a, back a, Bool.false_eq_true, if_false]
    rfl
  array values := by
    refine list_read_eq_ok.mpr ⟨_, rfl, ?_⟩
    rw [List.forall₂_map_left_iff, List.forall₂_same]
    exact fun a _ => back a
  nested n nullable x := by
    have survives (a : α) : (ofPair read write).Survives a := ⟨write a, rfl, nonNull a, back a⟩
    rw [Nesting.orNull_restores_iff fun a _ => survives a]
    exact fun a _ => (survives a).restores

end DataLayer.Record.Codec

namespace DataLayer.Code
open Schema Record Record.Codec Outcome

inductive Converts : ReadExpr → WriteExpr → {α : Type} → Codec α → Prop
  | scalar (s : Scalar) : Converts (.scalar s) (scalarWrite s) (ofScalar s)
  | list {r : ReadExpr} {w : WriteExpr} {α : Type} {c : Codec α} (item : Converts r w c) :
      Converts (.list r) (.list w) c.list
  | nullable {r : ReadExpr} {w : WriteExpr} {α : Type} {c : Codec α} (inner : Converts r w c) :
      Converts (.nullable r) (.nullable w) c.nullable

theorem Converts.orNull {r : ReadExpr} {w : WriteExpr} {α : Type} {c : Codec α}
    (converts : Converts r w c) (nullable : Bool) :
    Converts (r.orNull nullable) (w.orNull nullable) (c.orNull nullable) := by
  cases nullable with
  | true => exact .nullable converts
  | false => exact converts

theorem exists_converts {t : PropertyType} {s : Scalar} (below : t.leaf = .scalar s.name)
    (nullable : Bool) :
    ∃ r w, readExpr t nullable = .ok r ∧ writeExpr t nullable = .ok w ∧
      Converts r w ((t.nesting.codec (ofScalar s)).orNull nullable) := by
  induction t generalizing nullable with
  | scalar name =>
    cases below
    have known : scalarOf s.name = .ok s := by rw [scalarOf, Scalar.ofName?_name]; rfl
    refine ⟨_, _, ?_, ?_, (Converts.scalar s).orNull nullable⟩
    · rw [readExpr, known]
      rfl
    · rw [writeExpr, known]
      rfl
  | list item itemNullable description ih =>
    obtain ⟨r, w, reads, writes, converts⟩ := ih below itemNullable
    refine ⟨_, _, ?_, ?_, (Converts.list converts).orNull nullable⟩
    · rw [readExpr, reads]
      rfl
    · rw [writeExpr, writes]
      rfl
  | enumeration _ | object _ | union _ | reference _ | inverse _ _ => contradiction

/-- Reading undoes writing through every list and everything that may be null, whatever is lifted
    if it is read back and never null. A list is read exactly from an array of what is read, and
    refused as its first element that is. So values of the properties that lists and scalars make
    up are restored exactly if their scalars are. -/
theorem combinators_lift :
    (∀ {α : Type} (read : Json.Value → Except Record.Fault α) (write : α → Json.Value),
      (∀ a, read (write a) = .ok a) → (∀ a, (write a).isNull = false) → Lifts read write) ∧
    (∀ {α : Type} (c : Codec α) (v : Json.Value), ReadsLists c v) ∧
    (∀ (s : Scalar) (n : Nesting) (nullable : Bool) (x : OrNull nullable (n.Values s.Values)),
      ((n.codec (ofScalar s)).orNull nullable).Restores x ↔
        ∀ a ∈ (OrNull.present nullable x).flatMap n.leaves, Durable s a) ∧
    ∀ (t : PropertyType) (s : Scalar) (nullable : Bool), t.leaf = .scalar s.name →
      ∃ r w, readExpr t nullable = .ok r ∧ writeExpr t nullable = .ok w ∧
        Converts r w ((t.nesting.codec (ofScalar s)).orNull nullable) := by
  refine ⟨?_, ?_, ?_, ?_⟩
  · intro α read write back nonNull
    exact lifts_of_back back nonNull
  · intro α c v
    exact ⟨fun _ => list_read_eq_ok, fun _ => list_read_eq_error⟩
  · intro s n nullable x
    have solid (a : s.Values) (restores : (ofScalar s).Restores a) : (ofScalar s).Survives a :=
      survives_of_restores (ofScalar_read_null s) restores
    rw [Nesting.orNull_restores_iff solid]
    exact forall_congr' fun a => imp_congr_right fun _ => ofScalar_restores_iff
  · intro t s nullable below
    exact exists_converts below nullable

def numberText (n : Int) : Json.Value := .string (String.ofList (Number.Integer.text n))

def weightTable : Option (List (Option (List (Option Int)))) := some [some [some 10, none], none]

theorem weightTable_restored :
    (∀ n, wholeNumber.read (numberText n) = .ok n) ∧ (∀ n, (numberText n).isNull = false) ∧
      Lifts wholeNumber.read numberText ∧
      wholeNumber.nullable.list.nullable.list.nullable.Restores weightTable := by
  obtain ⟨lifts, _, scalars, _⟩ := combinators_lift
  have back (n : Int) : wholeNumber.read (numberText n) = .ok n :=
    formatted_read_written.mpr (Number.Integer.ofText?_text n)
  have restores := (scalars .bigInt (.list (.list .leaf true) true) true weightTable).mpr
    fun _ _ => trivial
  exact ⟨back, fun _ => rfl, lifts _ _ back fun _ => rfl, restores⟩

end DataLayer.Code
