import DataLayer.Proofs.Code.Fields
import DataLayer.Proofs.Code.LinkClosure
import DataLayer.Proofs.Code.Methods
import DataLayer.Support.MarshalText

/- How the fields of a variant are filled when it is read. An entity declares its fields by one
   function on types and reads them by another, and both agree wherever a value is read. A derived
   relation is not read but starts as an empty list, and may still have been declared optional. -/
namespace DataLayer.Code
open Schema Outcome

def helperResult : Scalar → String
  | .dateTime => "DateTime<Utc>"
  | .bigInt => "BigInt"
  | s => (scalarType s).render

def helperImports : Scalar → List String
  | .id => ["    use super::\x7bMarshalError, Value\x7d;"]
  | .string | .int | .float | .boolean =>
      ["    use super::\x7bMarshalError, Value, invalid_type\x7d;"]
  | .dateTime =>
      ["    use super::\x7bMarshalError, Value, invalid_value\x7d;",
       "    use chrono::\x7bDateTime, SecondsFormat, Utc\x7d;"]
  | .bigInt =>
      ["    use super::\x7bMarshalError, Value, invalid_value\x7d;", "    use num_bigint::BigInt;"]
  | .bytes => ["    use super::\x7bMarshalError, Value, invalid_value\x7d;"]

def helperOpening (s : Scalar) : List String :=
  ("pub mod " ++ scalarModule s ++ " \x7b") :: helperImports s ++
    ["", "    pub fn from_json(json: &Value) -> Result<" ++ helperResult s ++
      ", MarshalError> \x7b"]

def helperLine : Scalar → Nat
  | .string => 167
  | .id => 181
  | .int => 193
  | .float => 207
  | .boolean => 219
  | .dateTime => 232
  | .bigInt => 249
  | .bytes => 264

set_option maxRecDepth 8000 in
theorem helperOpening_held (s : Scalar) : helperOpening s <:+: Support.marshalLines := by
  refine ⟨Support.marshalLines.take (helperLine s),
    (Support.marshalLines.drop (helperLine s)).drop (helperOpening s).length, ?_⟩
  -- Once the texts are literals, both sides are the same list.
  cases s <;>
    simp only [helperOpening, helperImports, helperResult, scalarModule, scalarType,
      CodeType.render, String.reduceAppend] <;>
    rfl

/-- The type of what reading gives if it does not fail, by the signatures of what is called: the
    helpers for scalars and enumerations, the combinators for lists and values that may be null, and
    the functions that read objects and unions. -/
inductive ReadExpr.Gives : ReadExpr → CodeType → Prop
  | scalar (s : Scalar) : Gives (.scalar s) (scalarType s)
  | enumeration (name : String) : Gives (.enumeration name) (.named name)
  | identifier : Gives .identifier (scalarType .string)
  | object (name : String) : Gives (.object name) (.named name)
  | union (name : String) : Gives (.union name) (.named name)
  | list {item : ReadExpr} {t : CodeType} (each : Gives item t) : Gives (.list item) (.vector t)
  | nullable {inner : ReadExpr} {t : CodeType} (value : Gives inner t) :
      Gives (.nullable inner) (.optional t)

theorem ReadExpr.gives_iff {e : ReadExpr} {t : CodeType} : e.Gives t ↔ e.type = t := by
  constructor
  · intro gives
    induction gives with
    | list each ih => exact congrArg CodeType.vector ih
    | nullable value ih => exact congrArg CodeType.optional ih
    | _ => rfl
  · rintro rfl
    induction e with
    | scalar s => exact .scalar s
    | enumeration name => exact .enumeration name
    | identifier => exact .identifier
    | object name => exact .object name
    | union name => exact .union name
    | list item ih => exact .list ih
    | nullable inner ih => exact .nullable ih

/-- The types that an initialiser can have. An empty list may hold elements of any type. -/
inductive Initial.HasType : Initial → CodeType → Prop
  | emptyList (item : CodeType) : HasType .emptyList (.vector item)
  | read {e : ReadExpr} {t : CodeType} (gives : e.Gives t) : HasType (.read e) t

theorem ReadExpr.type_orNull {e : ReadExpr} {t : CodeType} (same : e.type = t) (nullable : Bool) :
    (e.orNull nullable).type = t.orNull nullable := by
  cases nullable with
  | true => exact congrArg CodeType.optional same
  | false => exact same

theorem type_of_readExpr {t : PropertyType} {nullable : Bool} {e : ReadExpr} {type : CodeType}
    (read : readExpr t nullable = .ok e) (held : typeOf .object t nullable = .ok type) :
    e.type = type := by
  induction t generalizing nullable e type with
  | scalar name =>
    obtain ⟨s, known, same⟩ := bind_eq_ok.mp read
    cases pure_eq_ok.mp same
    obtain ⟨other, again, same⟩ := bind_eq_ok.mp held
    cases pure_eq_ok.mp same
    rw [known] at again
    cases again
    exact ReadExpr.type_orNull rfl nullable
  | enumeration _ | object _ | union _ | reference _ =>
    cases read
    cases held
    exact ReadExpr.type_orNull rfl nullable
  | inverse entity field => contradiction
  | list item itemNullable description ih =>
    obtain ⟨inner, itemRead, same⟩ := bind_eq_ok.mp read
    cases pure_eq_ok.mp same
    obtain ⟨innerType, itemHeld, same⟩ := bind_eq_ok.mp held
    cases pure_eq_ok.mp same
    have same : (ReadExpr.list inner).type = .vector innerType :=
      congrArg CodeType.vector (ih itemRead itemHeld)
    exact ReadExpr.type_orNull same nullable

theorem typeOf_entity {t : PropertyType} (nullable : Bool)
    (other : ∀ entity, t ≠ .reference entity) :
    typeOf .entity t nullable = typeOf .object t nullable := by
  cases t with
  | reference entity => exact absurd rfl (other entity)
  | _ => rfl

def NullableInverse (p : Property) : Prop :=
  p.nullable = true ∧ ∃ entity field, p.type = .inverse entity field

theorem hasType_of_recordPartOf {owner key : String} {t : PropertyType} {nullable : Bool}
    {part : RecordPart} {type : CodeType} (made : recordPartOf owner key t nullable = .ok part)
    (typed : typeOf .entity t nullable = .ok type)
    (read : ∀ entity field, t ≠ .inverse entity field) :
    part.initial.HasType type := by
  have conversion : ∀ e, readExpr t nullable = .ok e → (∀ entity, t ≠ .reference entity) →
      Initial.HasType (.read e) type := by
    intro e run other
    rw [typeOf_entity nullable other] at typed
    exact .read (ReadExpr.gives_iff.mpr (type_of_readExpr run typed))
  cases t with
  | reference entity => contradiction
  | inverse entity field => exact absurd rfl (read entity field)
  | scalar _ | enumeration _ | object _ | union _ | list _ _ _ =>
    obtain ⟨e, run, made⟩ := bind_eq_ok.mp made
    obtain ⟨write, _, same⟩ := bind_eq_ok.mp made
    cases pure_eq_ok.mp same
    exact conversion e run (by simp)

/-- The initialiser of a field has the declared type, unless the property is a derived relation that
    may be null. -/
theorem hasType_iff {m : Model} {owner : String} {p : String × Property} {f : EntityField}
    (made : EntityFieldFor m owner true p f) :
    ∃ part, f.part = some part ∧ (part.initial.HasType f.type ↔ ¬ NullableInverse p.2) := by
  obtain ⟨binding, bound, run⟩ := made
  obtain ⟨_, typed, parts⟩ := entityFieldOf_eq_ok run
  obtain ⟨part, parted, some⟩ := parts rfl
  refine ⟨part, some, ?_⟩
  by_cases inverse : ∃ entity field, p.2.type = .inverse entity field
  · obtain ⟨entity, field, type⟩ := inverse
    obtain ⟨storage, stored, same⟩ := bind_eq_ok.mp bound
    cases pure_eq_ok.mp same
    rw [type] at stored parted typed
    cases stored
    cases parted
    cases nullable : p.2.nullable with
    | true =>
      have declared : f.type = .optional (.vector (.named entity)) := by
        simpa [Binding.ofStorage, Storage.columnType, nullable, typeOf, CodeType.orNull] using
          typed.symm
      rw [declared]
      refine iff_of_false ?_ (not_not_intro ⟨nullable, entity, field, type⟩)
      intro typed
      cases typed
    | false =>
      have declared : f.type = .vector (.named entity) := by
        simpa [Binding.ofStorage, nullable, typeOf, CodeType.orNull] using typed.symm
      rw [declared]
      exact iff_of_true (.emptyList _) (by simp [NullableInverse, nullable])
  · have read : ∀ entity field, p.2.type ≠ .inverse entity field := by simpa using inverse
    exact iff_of_true (hasType_of_recordPartOf parted typed read) fun h => inverse h.2

/-- The file of a variant declares the fields of a struct, in a method fills each of them, and gives
    a field what its declaration says exactly if it is no derived relation that may be null. The
    helpers that it calls for scalars are in the tree. -/
def FillsFields (t : Tree) (name : String) (x : Entity) : Prop :=
  (∀ s, Supplies t "marshal" (helperOpening s)) ∧
    ∃ f ∈ t.files, f.source.item = name ∧ ∃ c : EntityCode,
      HasDefinition f.source.body ("pub struct " ++ name) c.fieldSteps ∧
      HasMethod f.source.body name newHeader c.newSteps ∧
      List.Forall₂
        (fun p field => field.key = p.1 ∧ ∃ part, field.part = some part ∧
          (part.initial.HasType field.type ↔ ¬ NullableInverse p.2))
        x.properties.entries c.fields

theorem generateText_fillsFields {text : String} {tree : Tree}
    (run : generateText text = .ok tree) :
    ∃ m, Model.ofText text = .ok m ∧ ∀ name x, m.get? name = some (.entity x) →
      m.IsVariant name → FillsFields tree name x := by
  obtain ⟨m, loaded, run⟩ := generateText_eq_ok run
  refine ⟨m, loaded, fun name x found isVariant => ?_⟩
  obtain ⟨f, there, named, c, isCode, made⟩ := exists_entityCode run found isVariant
  obtain ⟨rfl, variant, fields⟩ := entityCodeOf_eq_ok made
  have body : f.source.body = emitted c.body := by rw [ItemFile.source, isCode, ItemCode.body]
  have helpers : ∀ s, Supplies tree "marshal" (helperOpening s) := by
    obtain ⟨union, u, listing, _⟩ := isVariant
    intro s
    exact supplies_of_union run listing (helperOpening_held s)
  refine ⟨helpers, f, there, named, c, ?_, ?_,
    fields.imp fun p field made => ⟨made.key_eq, hasType_iff made⟩⟩
  · rw [body]
    exact c.hasDefinition_struct
  · rw [body]
    exact EntityCode.hasMethod_new variant

def relatedText : String :=
  "<schema><entity name=\"A\"><property name=\"as\" type=\"[A]!\" derivedFrom=\"a\"/>" ++
  "<property name=\"n\" type=\"Int\"/></entity>" ++
  "<union name=\"U\"><variant name=\"A\"/></union></schema>"

def relatedEntity : Entity where
  description := none
  properties := { entries :=
    [("id", ⟨.scalar "ID", false, none⟩), ("as", ⟨.inverse "A" "a", false, none⟩),
     ("n", ⟨.scalar "Int", true, none⟩)] }

def relatedModel : Model where
  items := { entries := [("A", .entity relatedEntity), ("U", .union ⟨none, ["A"]⟩)] }

theorem relatedText_fillsFields :
    ∃ tree, generateText relatedText = .ok tree ∧ FillsFields tree "A" relatedEntity := by
  have loaded : Model.ofText relatedText = .ok relatedModel :=
    eq_ok_of_toOption (by decide +kernel)
  have generates : (generate relatedModel).toOption.isSome = true := by decide +kernel
  obtain ⟨tree, some⟩ := Option.isSome_iff_exists.mp generates
  have run : generateText relatedText = .ok tree :=
    generateText_of_ofText loaded (eq_ok_of_toOption (by decide +kernel)) (eq_ok_of_toOption some)
  obtain ⟨m, same, fills⟩ := generateText_fillsFields run
  rw [loaded] at same
  cases same
  exact ⟨tree, run, fills "A" relatedEntity rfl ⟨"U", ⟨none, ["A"]⟩, rfl, by simp⟩⟩

def nullableText : String :=
  "<schema><entity name=\"A\"><property name=\"ts\" type=\"[A!]\" derivedFrom=\"x\"/></entity>" ++
  "<union name=\"U\"><variant name=\"A\"/></union></schema>"

theorem nullableText_declares :
    ∃ tree, generateText nullableText = .ok tree ∧
      (∃ f ∈ tree.files, f.source.item = "A" ∧
        "    pub ts: Option<Vec<A>>," ∈ f.source.body ∧
        "            ts: Vec::new()," ∈ f.source.body) ∧
      ¬ Initial.emptyList.HasType (.optional (.vector (.named "A"))) := by
  have generates : ((generateText nullableText).toOption.any fun tree =>
      tree.files.any fun f => decide (f.source.item = "A" ∧
        "    pub ts: Option<Vec<A>>," ∈ f.source.body ∧
        "            ts: Vec::new()," ∈ f.source.body)) = true := by decide +kernel
  cases result : (generateText nullableText).toOption with
  | none =>
    rw [result] at generates
    contradiction
  | some tree =>
    rw [result] at generates
    obtain ⟨f, mem, shown⟩ := List.any_eq_true.mp generates
    refine ⟨tree, eq_ok_of_toOption result, ⟨f, mem, of_decide_eq_true shown⟩, ?_⟩
    intro typed
    cases typed

end DataLayer.Code
