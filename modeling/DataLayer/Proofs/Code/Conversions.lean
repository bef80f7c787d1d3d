import DataLayer.Proofs.Code.Success

/- Which properties can be converted. Reading and writing go their own ways through a type, and so
   does the type of the field, but where they fail is decided below all lists: at a derived
   relation, which has a type and no form in a record, and at an unknown scalar, which has neither.
   What the file has used so far and the expression of the value play no part. -/
namespace DataLayer.Code
open Schema Outcome

def readCode (used : Imports) (p : Property) (value : String) : Imports × Except Fault String :=
  (used.addAll (readUses p.type p.nullable),
    (readExpr p.type p.nullable).map fun e => e.render value)

def writeCode (used : Imports) (p : Property) (value : String) : Imports × Except Fault String :=
  (used.addAll (writeUses p.type), (writeExpr p.type p.nullable).map fun e => e.render value)

/-- Below all lists is a scalar that code cannot hold, and the fault names it. -/
def UnknownScalar (t : PropertyType) (f : Fault) : Prop :=
  ∃ name, t.leaf = .scalar name ∧ name ∉ scalarNames ∧ f = .unsupported "scalar" name

def DerivedRelation (t : PropertyType) (f : Fault) : Prop :=
  ∃ entity field, t.leaf = .inverse entity field ∧ f = .unsupported "list-relation" entity

def Unsupported (t : PropertyType) (f : Fault) : Prop := DerivedRelation t f ∨ UnknownScalar t f

theorem scalarOf_eq_error {name : String} {f : Fault} :
    scalarOf name = .error f ↔ UnknownScalar (.scalar name) f := by
  have known : (Scalar.ofName? name).isSome = true ↔ name ∈ scalarNames := ofName?_isSome
  unfold scalarOf UnknownScalar
  cases found : Scalar.ofName? name with
  | none =>
    have unknown : name ∉ scalarNames := fun listed => by simp [found] at known; exact known listed
    simp [PropertyType.leaf, unknown, eq_comm]
  | some s =>
    have listed : name ∈ scalarNames := known.mp (by rw [found]; rfl)
    simp [PropertyType.leaf, listed]

/-- The type of a field fails at unknown scalars alone, whoever holds the field. -/
theorem typeOf_eq_error {holder : Holder} {t : PropertyType} {nullable : Bool} {f : Fault} :
    typeOf holder t nullable = .error f ↔ UnknownScalar t f := by
  induction t generalizing holder nullable with
  | scalar name => rw [typeOf, bind_pure_eq_error, scalarOf_eq_error]
  | enumeration _ | object _ | union _ | inverse _ _ =>
    simp [typeOf, UnknownScalar, PropertyType.leaf]
  | reference entity => cases holder <;> simp [typeOf, UnknownScalar, PropertyType.leaf]
  | list item itemNullable description ih =>
    rw [typeOf, bind_pure_eq_error, ih]
    rfl

theorem readExpr_eq_error {t : PropertyType} {nullable : Bool} {f : Fault} :
    readExpr t nullable = .error f ↔ Unsupported t f := by
  induction t generalizing nullable with
  | scalar name =>
    rw [readExpr, bind_pure_eq_error, scalarOf_eq_error]
    simp [Unsupported, DerivedRelation, PropertyType.leaf]
  | enumeration _ | object _ | union _ | reference _ =>
    simp [readExpr, Unsupported, DerivedRelation, UnknownScalar, PropertyType.leaf]
  | inverse entity field =>
    simp [readExpr, Unsupported, DerivedRelation, UnknownScalar, PropertyType.leaf, eq_comm]
  | list item itemNullable description ih =>
    rw [readExpr, bind_pure_eq_error, ih]
    rfl

theorem writeExpr_eq_error {t : PropertyType} {nullable : Bool} {f : Fault} :
    writeExpr t nullable = .error f ↔ Unsupported t f := by
  induction t generalizing nullable with
  | scalar name =>
    rw [writeExpr, bind_pure_eq_error, scalarOf_eq_error]
    simp [Unsupported, DerivedRelation, PropertyType.leaf]
  | enumeration _ | object _ | union _ | reference _ =>
    simp [writeExpr, Unsupported, DerivedRelation, UnknownScalar, PropertyType.leaf]
  | inverse entity field =>
    simp [writeExpr, Unsupported, DerivedRelation, UnknownScalar, PropertyType.leaf, eq_comm]
  | list item itemNullable description ih =>
    rw [writeExpr, bind_pure_eq_error, ih]
    rfl

/-- Reading and writing succeed on the same properties and fail on the others with the same fault,
    whatever the file has used and whatever the values are called. A property that a value object
    holds has no type exactly where that fault is an unknown scalar, which is then its fault too. -/
theorem conversions_agree (p : Property) (used reused : Imports) (value written : String) :
    (Succeeds (readCode used p value).2 ↔ HasRecordForm p.type) ∧
    (Succeeds (writeCode reused p written).2 ↔ HasRecordForm p.type) ∧
    (∀ f, (readCode used p value).2 = .error f ↔ Unsupported p.type f) ∧
    (∀ f, (writeCode reused p written).2 = .error f ↔ Unsupported p.type f) ∧
    ∀ f, typeOf .object p.type p.nullable = .error f ↔ UnknownScalar p.type f := by
  refine ⟨?_, ?_, fun f => ?_, fun f => ?_, fun f => typeOf_eq_error⟩
  · exact succeeds_map.trans readExpr_succeeds
  · exact succeeds_map.trans writeExpr_succeeds
  · exact map_eq_error.trans readExpr_eq_error
  · exact map_eq_error.trans writeExpr_eq_error

end DataLayer.Code
