import DataLayer.Code.Tree
import DataLayer.Proofs.Code.Scopes
import DataLayer.Proofs.Code.Uses

/- When code is generated. Of a loaded and valid model it is, exactly if every type has a form where
   it stands, every member of an enumeration is an identifier and no two names are turned into the
   same one within a scope. Every function of the generator has its own condition, and that of the
   whole is put together from these. -/
namespace DataLayer.Code
open Schema Outcome

def scalarNames : List String :=
  ["ID", "String", "Int", "Float", "Boolean", "DateTime", "BigInt", "Bytes"]

def HasRecordForm (t : PropertyType) : Prop :=
  (∀ entity field, t.leaf ≠ .inverse entity field) ∧
    ∀ name, t.leaf = .scalar name → name ∈ scalarNames

def HasColumn (t : PropertyType) : Prop :=
  (∀ item nullable description, t ≠ .list item nullable description) ∧
    ∀ name, t = .scalar name → name ∈ scalarNames

structure EntityFits (isVariant : Prop) (x : Entity) : Prop where
  columns : ∀ p ∈ x.properties.entries, HasColumn p.2.type
  fields : ∀ a ∈ x.properties.keys, ∀ b ∈ x.properties.keys, a ≠ b →
    Name.fieldIdent a ≠ Name.fieldIdent b
  record : isVariant → ∀ p ∈ x.properties.entries, ∀ entity, p.2.type ≠ .reference entity

structure ObjectFits (x : ValueObject) : Prop where
  forms : ∀ p ∈ x.properties.entries, HasRecordForm p.2.type
  getters : ∀ key ∈ x.properties.keys, Name.fieldIdent key ∉ ["new", "to_json", "is_type_of"]
  accessors : ∀ a ∈ x.properties.keys, ∀ b ∈ x.properties.keys, a ≠ b →
    [Name.fieldIdent a, Name.setterIdent a].Disjoint [Name.fieldIdent b, Name.setterIdent b]

def IsLetter (c : Char) : Prop := 'a' ≤ c ∧ c ≤ 'z' ∨ 'A' ≤ c ∧ c ≤ 'Z'

def IsDigit (c : Char) : Prop := '0' ≤ c ∧ c ≤ '9'

/-- A letter or an underscore, then letters, digits and underscores, but no lone underscore. -/
def IsMemberName (value : String) : Prop :=
  (∃ first rest, value.toList = first :: rest ∧ (IsLetter first ∨ first = '_') ∧
    ∀ c ∈ rest, IsLetter c ∨ IsDigit c ∨ c = '_') ∧
  value ≠ "_"

structure Generable (m : Model) : Prop where
  modules : ∀ a ∈ m.names, ∀ b ∈ m.names, a ≠ b → Name.moduleName a ≠ Name.moduleName b
  entities : ∀ name x, m.get? name = some (.entity x) → EntityFits (m.IsVariant name) x
  objects : ∀ name x, m.get? name = some (.object x) → ObjectFits x
  enumerations : ∀ name x, m.get? name = some (.enumeration x) →
    ∀ value ∈ x.values.names, IsMemberName value

theorem ofName?_isSome {name : String} :
    (Scalar.ofName? name).isSome = true ↔ name ∈ scalarNames := by
  have names : scalarNames = Scalar.all.map Scalar.name := rfl
  rw [Scalar.ofName?, List.find?_isSome, names, List.mem_map]
  simp

theorem scalarOf_succeeds {name : String} : Succeeds (scalarOf name) ↔ name ∈ scalarNames := by
  rw [← ofName?_isSome, scalarOf]
  cases Scalar.ofName? name with
  | none => simp [not_succeeds_error]
  | some s => simp [succeeds_ok]

theorem typeOf_succeeds {holder : Holder} {t : PropertyType} {nullable : Bool} :
    Succeeds (typeOf holder t nullable) ↔ ∀ name, t.leaf = .scalar name → name ∈ scalarNames := by
  induction t generalizing holder nullable with
  | scalar name =>
    rw [typeOf, succeeds_bind_pure, scalarOf_succeeds]
    simp [PropertyType.leaf]
  | enumeration _ | object _ | union _ | inverse _ _ =>
    exact iff_of_true (succeeds_ok _) (by simp [PropertyType.leaf])
  | reference entity =>
    cases holder with
    | entity => exact iff_of_true (succeeds_ok _) (by simp [PropertyType.leaf])
    | object => exact iff_of_true (succeeds_ok _) (by simp [PropertyType.leaf])
  | list item itemNullable description ih =>
    rw [typeOf, succeeds_bind_pure, ih]
    rfl

theorem readExpr_succeeds {t : PropertyType} {nullable : Bool} :
    Succeeds (readExpr t nullable) ↔ HasRecordForm t := by
  induction t generalizing nullable with
  | scalar name =>
    rw [readExpr, succeeds_bind_pure, scalarOf_succeeds]
    simp [HasRecordForm, PropertyType.leaf]
  | enumeration _ | object _ | union _ | reference _ =>
    exact iff_of_true (succeeds_ok _) (by simp [HasRecordForm, PropertyType.leaf])
  | inverse entity field =>
    exact iff_of_false (not_succeeds_error _) (by simp [HasRecordForm, PropertyType.leaf])
  | list item itemNullable description ih =>
    rw [readExpr, succeeds_bind_pure, ih]
    rfl

theorem writeExpr_succeeds {t : PropertyType} {nullable : Bool} :
    Succeeds (writeExpr t nullable) ↔ HasRecordForm t := by
  induction t generalizing nullable with
  | scalar name =>
    rw [writeExpr, succeeds_bind_pure, scalarOf_succeeds]
    simp [HasRecordForm, PropertyType.leaf]
  | enumeration _ | object _ | union _ | reference _ =>
    exact iff_of_true (succeeds_ok _) (by simp [HasRecordForm, PropertyType.leaf])
  | inverse entity field =>
    exact iff_of_false (not_succeeds_error _) (by simp [HasRecordForm, PropertyType.leaf])
  | list item itemNullable description ih =>
    rw [writeExpr, succeeds_bind_pure, ih]
    rfl

/-- What a property of an entity refers to is in the model, so that only its type decides. -/
theorem storageOf_succeeds {m : Model} {p : Property}
    (resolves : m.Resolves p.type ∨ p = idProperty) :
    Succeeds (storageOf m p.type) ↔ HasColumn p.type := by
  cases type : p.type with
  | scalar name =>
    rw [storageOf]
    have named : (Scalar.ofName? name).isSome = true ↔ name ∈ scalarNames := ofName?_isSome
    cases found : Scalar.ofName? name with
    | none => simp_all [HasColumn, not_succeeds_error]
    | some s => simp_all [HasColumn, succeeds_ok]
  | enumeration name =>
    have known : m.kind? name = some .enumeration := by
      rcases resolves with resolves | rfl
      · rwa [type] at resolves
      · contradiction
    obtain ⟨item, found, kind⟩ := Model.kind?_eq_some.mp known
    refine iff_of_true (succeeds_bind_pure.mpr ?_) (by simp [HasColumn])
    cases item with
    | enumeration e => exact ⟨e, ofModel_eq_ok.mpr (Model.enumeration_of_get? found)⟩
    | _ => contradiction
  | object _ | union _ | reference _ | inverse _ _ =>
    exact iff_of_true (succeeds_ok _) (by simp [HasColumn])
  | list item nullable description =>
    exact iff_of_false (not_succeeds_error _) (by simp [HasColumn])

theorem documentOf_succeeds (t : PropertyType) (nullable : Bool) :
    Succeeds (documentOf t nullable) := by
  cases t with
  | object _ | union _ => exact succeeds_ok _
  | _ => exact succeeds_ok none

theorem leaf_of_hasColumn {t : PropertyType} (column : HasColumn t) : t.leaf = t := by
  cases t with
  | list item nullable description => exact absurd rfl (column.1 item nullable description)
  | _ => rfl

theorem recordPartOf_succeeds {owner key : String} {t : PropertyType} {nullable : Bool}
    (column : HasColumn t) :
    Succeeds (recordPartOf owner key t nullable) ↔ ∀ entity, t ≠ .reference entity := by
  have form : (∀ entity field, t ≠ .inverse entity field) → HasRecordForm t := by
    intro other
    unfold HasRecordForm
    rw [leaf_of_hasColumn column]
    exact ⟨other, column.2⟩
  cases t with
  | reference entity => exact iff_of_false (not_succeeds_error _) (by simp)
  | inverse entity field => exact iff_of_true (succeeds_ok _) (by simp)
  | list item itemNullable description => exact absurd rfl (column.1 item itemNullable description)
  | scalar _ | enumeration _ | object _ | union _ =>
    refine iff_of_true ?_ (by simp)
    have form := form (by simp)
    obtain ⟨read, run⟩ : Succeeds (readExpr _ nullable) := readExpr_succeeds.mpr form
    exact (succeeds_bind_of_eq_ok run).mpr (succeeds_bind_pure.mpr (writeExpr_succeeds.mpr form))

theorem entityFieldOf_succeeds {owner key : String} {isVariant : Bool} {p : Property}
    {binding : Binding} (column : HasColumn p.type) :
    Succeeds (entityFieldOf owner isVariant key p binding) ↔
      (isVariant = true → ∀ entity, p.type ≠ .reference entity) := by
  have leaf : ∀ name, p.type.leaf = .scalar name → name ∈ scalarNames :=
    (leaf_of_hasColumn column).symm ▸ column.2
  obtain ⟨type, typed⟩ := typeOf_succeeds.mpr leaf
  obtain ⟨document, documented⟩ := documentOf_succeeds p.type binding.nullable
  rw [entityFieldOf, succeeds_bind_of_eq_ok typed, succeeds_bind_of_eq_ok documented]
  cases isVariant with
  | true =>
    have part : Succeeds (recordPartOf owner key p.type binding.nullable) ↔
        ∀ entity, p.type ≠ .reference entity := recordPartOf_succeeds column
    simpa using succeeds_bind_pure.trans (succeeds_map.trans part)
  | false => exact iff_of_true (succeeds_ok _) (by simp)

theorem entityFields_succeeds {m : Model} {owner : String} {isVariant : Bool} {scope : Scope}
    {properties : List (String × Property)}
    (resolves : ∀ p ∈ properties, m.Resolves p.2.type ∨ p.2 = idProperty) :
    Succeeds (entityFields m owner isVariant scope properties) ↔
      (∀ p ∈ properties, HasColumn p.2.type ∧
        (isVariant = true → ∀ entity, p.2.type ≠ .reference entity)) ∧
      scope.Admits (properties.map fun p => (Name.fieldIdent p.1, p.1)) := by
  induction properties generalizing scope with
  | nil => exact iff_of_true (succeeds_ok []) ⟨by simp, Scope.admits_nil scope⟩
  | cons first rest ih =>
    obtain ⟨key, p⟩ := first
    have bound : Succeeds (bindingOf m p) ↔ HasColumn p.type :=
      succeeds_bind_pure.trans (storageOf_succeeds (resolves (key, p) List.mem_cons_self))
    have others : ∀ next : Scope, Succeeds (entityFields m owner isVariant next rest) ↔ _ :=
      fun next => ih fun q mem => resolves q (List.mem_cons_of_mem _ mem)
    rw [entityFields, List.map_cons, Scope.admits_cons, List.forall_mem_cons]
    constructor
    · intro succeeds
      obtain ⟨binding, stored, succeeds⟩ := succeeds_bind.mp succeeds
      obtain ⟨next, claim, succeeds⟩ := succeeds_bind.mp succeeds
      obtain ⟨field, made, succeeds⟩ := succeeds_bind.mp succeeds
      have column := bound.mp ⟨binding, stored⟩
      obtain ⟨each, admits⟩ := (others next).mp (succeeds_bind_pure.mp succeeds)
      exact ⟨⟨⟨column, (entityFieldOf_succeeds column).mp ⟨field, made⟩⟩, each⟩, next, claim,
        admits⟩
    · rintro ⟨⟨⟨column, record⟩, each⟩, next, claim, admits⟩
      obtain ⟨binding, stored⟩ := bound.mpr column
      obtain ⟨field, made⟩ := (entityFieldOf_succeeds column).mpr record
      rw [succeeds_bind_of_eq_ok stored, succeeds_bind_of_eq_ok claim, succeeds_bind_of_eq_ok made,
        succeeds_bind_pure]
      exact (others next).mpr ⟨each, admits⟩

theorem alike_map_iff {ident : String → String} {keys : List String} :
    (∀ a ∈ keys.map fun key => (ident key, key), ∀ b ∈ keys.map fun key => (ident key, key),
      a.1 = b.1 → a.2 = b.2) ↔
    ∀ a ∈ keys, ∀ b ∈ keys, a ≠ b → ident a ≠ ident b := by
  simp only [List.forall_mem_map]
  refine forall₂_congr fun a _ => forall₂_congr fun b _ => ?_
  exact not_imp_not.symm

theorem entityCodeOf_succeeds {m : Model} {isVariant : Bool} {name : String} {x : Entity}
    (resolves : ∀ p ∈ x.properties.entries, m.Resolves p.2.type ∨ p.2 = idProperty) :
    Succeeds (entityCodeOf m isVariant name x) ↔ EntityFits (isVariant = true) x := by
  have claims : x.properties.entries.map (fun p => (Name.fieldIdent p.1, p.1)) =
      x.properties.keys.map fun key => (Name.fieldIdent key, key) := by
    simp [Table.keys]
  rw [entityCodeOf, succeeds_bind_pure, entityFields_succeeds resolves, claims, Scope.admits_new,
    alike_map_iff]
  constructor
  · rintro ⟨each, fields⟩
    exact ⟨fun p mem => (each p mem).1, fields, fun isVariant p mem => (each p mem).2 isVariant⟩
  · rintro ⟨columns, fields, record⟩
    exact ⟨fun p mem => ⟨columns p mem, fun isVariant => record isVariant p mem⟩, fields⟩

theorem claimAccessors_succeeds {scope : Scope} {keys : List String} :
    Succeeds (claimAccessors scope keys) ↔
      scope.Admits (keys.flatMap fun key =>
        [(Name.fieldIdent key, key), (Name.setterIdent key, key)]) := by
  induction keys generalizing scope with
  | nil => exact iff_of_true (succeeds_ok scope) (Scope.admits_nil scope)
  | cons key rest ih =>
    rw [claimAccessors, List.flatMap_cons, List.cons_append, List.cons_append, List.nil_append,
      Scope.admits_cons, succeeds_bind]
    refine exists_congr fun getters => and_congr_right fun _ => ?_
    rw [Scope.admits_cons, succeeds_bind]
    exact exists_congr fun setters => and_congr_right fun _ => ih

theorem alike_accessors_iff {keys : List String} :
    (∀ a ∈ keys.flatMap fun key => [(Name.fieldIdent key, key), (Name.setterIdent key, key)],
      ∀ b ∈ keys.flatMap fun key => [(Name.fieldIdent key, key), (Name.setterIdent key, key)],
      a.1 = b.1 → a.2 = b.2) ↔
    ∀ a ∈ keys, ∀ b ∈ keys, a ≠ b →
      [Name.fieldIdent a, Name.setterIdent a].Disjoint
        [Name.fieldIdent b, Name.setterIdent b] := by
  have mem_iff : ∀ c : String × String,
      (c ∈ keys.flatMap fun key => [(Name.fieldIdent key, key), (Name.setterIdent key, key)]) ↔
        c.2 ∈ keys ∧ c.1 ∈ [Name.fieldIdent c.2, Name.setterIdent c.2] := by
    rintro ⟨ident, key⟩
    simp only [List.mem_flatMap, List.mem_cons, List.not_mem_nil, or_false, Prod.mk.injEq]
    constructor
    · rintro ⟨other, mem, ⟨rfl, rfl⟩ | ⟨rfl, rfl⟩⟩
      · exact ⟨mem, .inl rfl⟩
      · exact ⟨mem, .inr rfl⟩
    · rintro ⟨mem, same | same⟩
      · exact ⟨key, mem, .inl ⟨same, rfl⟩⟩
      · exact ⟨key, mem, .inr ⟨same, rfl⟩⟩
  constructor
  · intro alike a first b second differs ident ofA ofB
    have same := alike (ident, a) ((mem_iff _).mpr ⟨first, ofA⟩) (ident, b)
      ((mem_iff _).mpr ⟨second, ofB⟩) rfl
    exact differs same
  · intro disjoint a first b second same
    obtain ⟨first, ofA⟩ := (mem_iff a).mp first
    obtain ⟨second, ofB⟩ := (mem_iff b).mp second
    by_contra differs
    exact disjoint a.2 first b.2 second differs ofA (same ▸ ofB)

theorem objectFieldType_succeeds {owner key : String} {p : Property} :
    Succeeds (objectFieldType owner key p) ↔
      Name.fieldIdent key ∉ reservedMethods ∧
        ∀ name, p.type.leaf = .scalar name → name ∈ scalarNames := by
  unfold objectFieldType
  split
  · rename_i reserved
    exact iff_of_false (not_succeeds_error _) fun h => h.1 reserved
  · rename_i free
    rw [typeOf_succeeds]
    exact (and_iff_right free).symm

theorem objectFieldOf_succeeds {owner key : String} {p : Property} :
    Succeeds (objectFieldOf owner key p) ↔
      Name.fieldIdent key ∉ reservedMethods ∧ HasRecordForm p.type := by
  have conversions : ∀ type, objectFieldType owner key p = .ok type →
      (Succeeds (do
        let read ← readExpr p.type p.nullable
        let write ← writeExpr p.type p.nullable
        return (⟨key, Name.fieldIdent key, Name.setterIdent key, type, p.nullable, p.description,
          read, write⟩ : ObjectField)) ↔ HasRecordForm p.type) := by
    intro type _
    rw [succeeds_bind_of_iff fun read _ => succeeds_bind_pure, readExpr_succeeds,
      writeExpr_succeeds, and_self]
  rw [objectFieldOf, succeeds_bind_of_iff conversions, objectFieldType_succeeds]
  constructor
  · rintro ⟨⟨free, _⟩, form⟩
    exact ⟨free, form⟩
  · rintro ⟨free, form⟩
    exact ⟨⟨free, form.2⟩, form⟩

theorem objectCodeOf_succeeds {isVariant : Bool} {name : String} {x : ValueObject} :
    Succeeds (objectCodeOf isVariant name x) ↔ ObjectFits x := by
  have keys : ∀ {q : String → Prop},
      (∀ p ∈ x.properties.entries, q p.1) ↔ ∀ key ∈ x.properties.keys, q key := by
    simp [Table.keys]
  rw [objectCodeOf, succeeds_bind_of_iff fun _ _ => succeeds_bind_of_iff fun _ _ =>
    succeeds_bind_pure, succeeds_mapM, succeeds_mapM, claimAccessors_succeeds, Scope.admits_new,
    alike_accessors_iff]
  simp only [objectFieldType_succeeds, objectFieldOf_succeeds]
  constructor
  · rintro ⟨_, accessors, each⟩
    exact ⟨fun p mem => (each p mem).2, keys.mp fun p mem => (each p mem).1, accessors⟩
  · rintro ⟨forms, getters, accessors⟩
    have free := keys.mpr getters
    exact ⟨fun p mem => ⟨free p mem, (forms p mem).2⟩, accessors,
      fun p mem => ⟨free p mem, forms p mem⟩⟩

theorem isUpper_iff {c : Char} : c.isUpper = true ↔ 'A' ≤ c ∧ c ≤ 'Z' := by
  change decide ('A'.val ≤ c.val ∧ c.val ≤ 'Z'.val) = true ↔ _
  rw [decide_eq_true_eq]
  rfl

theorem isLower_iff {c : Char} : c.isLower = true ↔ 'a' ≤ c ∧ c ≤ 'z' := by
  change (decide ('a'.val ≤ c.val) && decide (c.val ≤ 'z'.val)) = true ↔ _
  simp only [Bool.and_eq_true, decide_eq_true_eq]
  rfl

theorem isAlpha_iff {c : Char} : c.isAlpha = true ↔ IsLetter c := by
  change (c.isUpper || c.isLower) = true ↔ _
  rw [Bool.or_eq_true, isUpper_iff, isLower_iff, IsLetter, or_comm]

theorem isDigit_iff {c : Char} : c.isDigit = true ↔ IsDigit c := by
  simp only [Char.isDigit, Bool.and_eq_true, decide_eq_true_eq, IsDigit]
  rfl

theorem memberOf_succeeds {owner value : String} :
    Succeeds (memberOf owner value) ↔ IsMemberName value := by
  have start : ∀ c, Name.isIdentStart c = true ↔ IsLetter c ∨ c = '_' := by
    simp [Name.isIdentStart, isAlpha_iff]
  have part : ∀ c, Name.isIdentPart c = true ↔ IsLetter c ∨ IsDigit c ∨ c = '_' := by
    simp [Name.isIdentPart, Char.isAlphanum, isAlpha_iff, isDigit_iff, or_assoc]
  have ident : Name.isAsciiIdent value = true ↔
      ∃ first rest, value.toList = first :: rest ∧ (IsLetter first ∨ first = '_') ∧
        ∀ c ∈ rest, IsLetter c ∨ IsDigit c ∨ c = '_' := by
    unfold Name.isAsciiIdent
    cases value.toList with
    | nil => simp
    | cons first rest => simp [start, part]
  unfold memberOf IsMemberName
  rw [← ident]
  split
  · rename_i valid
    exact iff_of_true (succeeds_ok _) valid
  · rename_i invalid
    exact iff_of_false (not_succeeds_error _) invalid

theorem enumerationCodeOf_succeeds {name : String} {x : Enumeration} :
    Succeeds (enumerationCodeOf name x) ↔ ∀ value ∈ x.values.names, IsMemberName value := by
  rw [enumerationCodeOf, succeeds_bind_pure, succeeds_mapM]
  exact forall₂_congr fun _ _ => memberOf_succeeds

def ItemFits (m : Model) (name : String) : Item → Prop
  | .entity x => EntityFits (m.IsVariant name) x
  | .object x => ObjectFits x
  | .union _ => True
  | .enumeration x => ∀ value ∈ x.values.names, IsMemberName value

theorem itemFiles_succeeds {m : Model} {variants : List String} {modules : Scope}
    {entries : List (String × Item)} :
    Succeeds (itemFiles m variants modules entries) ↔
      (∀ e ∈ entries, Succeeds (itemFileOf m variants e.1 e.2)) ∧
      modules.Admits (entries.map fun e => (Name.moduleName e.1, e.1)) := by
  induction entries generalizing modules with
  | nil => exact iff_of_true (succeeds_ok []) ⟨by simp, Scope.admits_nil modules⟩
  | cons first rest ih =>
    obtain ⟨name, item⟩ := first
    have named : ∀ file, itemFileOf m variants name item = .ok file →
        file.source.module = Name.moduleName name := by
      intro file made
      obtain ⟨code, composed, made⟩ := bind_eq_ok.mp made
      obtain ⟨imported, _, same⟩ := bind_eq_ok.mp made
      cases pure_eq_ok.mp same
      exact congrArg Name.moduleName (itemCodeOf_composedFrom composed).name_eq
    rw [itemFiles, List.map_cons, Scope.admits_cons, List.forall_mem_cons]
    constructor
    · intro succeeds
      obtain ⟨file, made, succeeds⟩ := succeeds_bind.mp succeeds
      obtain ⟨next, claim, succeeds⟩ := succeeds_bind.mp succeeds
      obtain ⟨each, admits⟩ := ih.mp (succeeds_bind_pure.mp succeeds)
      rw [named file made] at claim
      exact ⟨⟨⟨file, made⟩, each⟩, next, claim, admits⟩
    · rintro ⟨⟨⟨file, made⟩, each⟩, next, claim, admits⟩
      rw [succeeds_bind_of_eq_ok made, named file made, succeeds_bind_of_eq_ok claim,
        succeeds_bind_pure]
      exact ih.mpr ⟨each, admits⟩

section Loaded
variable {text : String} {m : Model} (loaded : Model.ofText text = .ok m)
  (valid : m.validate = .ok ())
include loaded valid

theorem itemCodeOf_succeeds {name : String} {item : Item} (mem : (name, item) ∈ m.items.entries) :
    Succeeds (itemCodeOf m m.variantNames name item) ↔ ItemFits m name item := by
  cases item with
  | entity x =>
    rw [itemCodeOf, succeeds_bind_pure, entityCodeOf_succeeds (entity_resolves loaded mem),
      variantNames_contains_iff]
    rfl
  | object x =>
    rw [itemCodeOf, succeeds_bind_pure]
    exact objectCodeOf_succeeds
  | union u =>
    have union := unionCodeOf_succeeds name (forM_eq_ok.mp valid (name, .union u) mem)
    exact iff_of_true (succeeds_bind_pure.mpr union) trivial
  | enumeration x =>
    rw [itemCodeOf, succeeds_bind_pure]
    exact enumerationCodeOf_succeeds

theorem itemFileOf_succeeds {name : String} {item : Item} (mem : (name, item) ∈ m.items.entries) :
    Succeeds (itemFileOf m m.variantNames name item) ↔ ItemFits m name item := by
  have imported : ∀ code, itemCodeOf m m.variantNames name item = .ok code →
      (Succeeds (code.imports.lines m >>= fun lines => pure (⟨code, lines⟩ : ItemFile)) ↔ True) := by
    intro code made
    have lines := lines_succeeds loaded mem (itemCodeOf_composedFrom made)
    exact iff_true_intro (succeeds_bind_pure.mpr lines)
  rw [itemFileOf, succeeds_bind_of_iff imported, and_true, itemCodeOf_succeeds loaded valid mem]

/-- Code is generated from a loaded and valid model if and only if the types, the names and the
    members of its items allow it. -/
theorem generate_succeeds_iff : (∃ tree, generate m = .ok tree) ↔ Generable m := by
  have claims : m.items.entries.map (fun e => (Name.moduleName e.1, e.1)) =
      m.names.map fun name => (Name.moduleName name, name) := by
    simp [Model.names, Table.keys]
  have opened : Succeeds (generate m) ↔
      (∀ e ∈ m.items.entries, ItemFits m e.1 e.2) ∧
        ∀ a ∈ m.names, ∀ b ∈ m.names, a ≠ b → Name.moduleName a ≠ Name.moduleName b := by
    rw [generate, succeeds_bind_pure, itemFiles_succeeds, claims, Scope.admits_new, alike_map_iff]
    exact and_congr_left fun _ => forall₂_congr fun e mem => itemFileOf_succeeds loaded valid mem
  rw [← Succeeds, opened]
  constructor
  · rintro ⟨items, modules⟩
    refine ⟨modules, ?_, ?_, ?_⟩
    · intro name x found
      exact items (name, .entity x) (Table.get?_eq_some_iff.mp found)
    · intro name x found
      exact items (name, .object x) (Table.get?_eq_some_iff.mp found)
    · intro name x found
      exact items (name, .enumeration x) (Table.get?_eq_some_iff.mp found)
  · rintro ⟨modules, entities, objects, enumerations⟩
    refine ⟨?_, modules⟩
    rintro ⟨name, item⟩ mem
    have found := Table.get?_eq_some_iff.mpr mem
    cases item with
    | entity x => exact entities name x found
    | object x => exact objects name x found
    | union u => trivial
    | enumeration x => exact enumerations name x found

end Loaded

def mixedText : String :=
  "<schema><entity name=\"A\"><property name=\"type\" type=\"[A]\" derivedFrom=\"a\"/></entity>" ++
  "<object name=\"O\"><property name=\"a\" type=\"[[A!]]\"/></object>" ++
  "<union name=\"U\"><variant name=\"A\"/></union></schema>"

def mixedModel : Model := ⟨{ entries :=
  [("A", .entity ⟨none, { entries :=
     [("id", ⟨.scalar "ID", false, none⟩), ("type", ⟨.inverse "A" "a", true, none⟩)] }⟩),
   ("O", .object ⟨none, { entries :=
     [("a", ⟨.list (.list (.reference "A") false none) true none, true, none⟩)] }⟩),
   ("U", .union ⟨none, ["A"]⟩)] }⟩

theorem mixedText_generable :
    Model.ofText mixedText = .ok mixedModel ∧ mixedModel.validate = .ok () ∧
      (∃ tree, generate mixedModel = .ok tree) ∧ Generable mixedModel := by
  have loaded : Model.ofText mixedText = .ok mixedModel := eq_ok_of_toOption (by decide +kernel)
  have generates : (generate mixedModel).toOption.isSome = true := by decide +kernel
  obtain ⟨tree, some⟩ := Option.isSome_iff_exists.mp generates
  have made : ∃ tree, generate mixedModel = .ok tree := ⟨tree, eq_ok_of_toOption some⟩
  exact ⟨loaded, rfl, made, (generate_succeeds_iff loaded rfl).mp made⟩

end DataLayer.Code
