import DataLayer.Code.Item
import DataLayer.Proofs.Code.Imports
import DataLayer.Proofs.Schema.References
import DataLayer.Schema.Validation

/- What the code of an item uses. The items that it names are items of the model, because the types
   of properties have been resolved and the variants of unions have been looked up. -/
namespace DataLayer.Schema
open Outcome

theorem hasShape_iff {m : Model} {variant : String} : m.HasShape variant ↔
    ∃ item, m.get? variant = some item ∧ (item.kind = .entity ∨ item.kind = .object) := by
  simp only [Model.HasShape, Model.kind?_eq_some, ← exists_or, ← and_or_left]

theorem validateVariant_eq_ok {m : Model} {variant : String} :
    validateVariant m variant = .ok () ↔ m.HasShape variant := by
  unfold validateVariant
  simp only [bind_eq_ok, Model.item_eq_ok, hasShape_iff]
  refine exists_congr fun item => and_congr_right fun _ => ?_
  cases item.kind <;> simp [pure_eq_ok, throw_ne_ok]

theorem hasShape_of_validateItem {m : Model} {name : String} {u : Union}
    (valid : validateItem m name (.union u) = .ok ()) : ∀ variant ∈ u.variants,
    m.HasShape variant := by
  simp only [validateItem] at valid
  split at valid
  · contradiction
  · intro variant listed
    exact validateVariant_eq_ok.mp (forM_eq_ok.mp valid variant listed)

def Model.IsVariant (m : Model) (name : String) : Prop :=
  ∃ union u, m.get? union = some (.union u) ∧ name ∈ u.variants

theorem mem_variantNames_iff {m : Model} {name : String} :
    name ∈ m.variantNames ↔ m.IsVariant name := by
  constructor
  · intro mem
    obtain ⟨⟨union, item⟩, there, listed⟩ := List.mem_flatMap.mp mem
    cases item with
    | union u => exact ⟨union, u, Table.get?_eq_some_iff.mpr there, listed⟩
    | _ => contradiction
  · rintro ⟨union, u, found, listed⟩
    exact List.mem_flatMap.mpr ⟨(union, .union u), Table.get?_eq_some_iff.mp found, listed⟩

theorem variantNames_contains_iff {m : Model} {name : String} :
    m.variantNames.contains name = true ↔ m.IsVariant name := by
  rw [List.contains_iff_mem, mem_variantNames_iff]

def PropertyType.target? (t : PropertyType) : Option String :=
  match t.leaf with
  | .enumeration name | .object name | .union name | .reference name | .inverse name _ => some name
  | .scalar _ | .list _ _ _ => none

/-- The item that a record holds in the place of a property, below all its lists. Of an entity it
    holds the identifier alone. -/
def PropertyType.recordItem? (t : PropertyType) : Option String :=
  match t.leaf with
  | .enumeration name | .object name | .union name => some name
  | .scalar _ | .reference _ | .inverse _ _ | .list _ _ _ => none

theorem target?_of_recordItem? {t : PropertyType} {name : String}
    (held : t.recordItem? = some name) : t.target? = some name := by
  unfold PropertyType.recordItem? at held
  unfold PropertyType.target?
  split at held
  · rename_i leaf
    rw [leaf]
    exact held
  · rename_i leaf
    rw [leaf]
    exact held
  · rename_i leaf
    rw [leaf]
    exact held
  all_goals contradiction

def Item.Refers : Item → String → Prop
  | .entity x, name => ∃ p ∈ x.properties.entries, p.2.type.target? = some name
  | .object x, name => ∃ p ∈ x.properties.entries, p.2.type.target? = some name
  | .union u, name => name ∈ u.variants
  | .enumeration _, _ => False

theorem mem_names_of_target? {m : Model} {t : PropertyType} {name : String}
    (resolves : m.Resolves t) (target : t.target? = some name) : name ∈ m.names := by
  induction t with
  | list item nullable description ih => exact ih resolves target
  | scalar scalar => contradiction
  | enumeration _ | object _ | union _ | reference _ | inverse _ _ =>
    cases target
    exact Model.mem_names_of_kind? resolves

/-- The properties of entities in a loaded model refer to its items, the identifier put before all
    others apart. -/
theorem entity_resolves {text : String} {m : Model} (loaded : Model.ofText text = .ok m)
    {name : String} {x : Entity} (mem : (name, .entity x) ∈ m.items.entries) :
    ∀ p ∈ x.properties.entries, m.Resolves p.2.type ∨ p.2 = idProperty := by
  obtain ⟨e, declared, _, _, resolves, same, first⟩ := exists_represents loaded mem
  intro p isProperty
  by_cases declares : "id" ∈ declared.keys
  · rw [same declares] at isProperty
    exact .inl (resolves p isProperty)
  · rw [first declares] at isProperty
    rcases List.mem_cons.mp isProperty with rfl | isDeclared
    · exact .inr rfl
    · exact .inl (resolves p isDeclared)

theorem object_resolves {text : String} {m : Model} (loaded : Model.ofText text = .ok m)
    {name : String} {x : ValueObject} (mem : (name, .object x) ∈ m.items.entries) :
    ∀ p ∈ x.properties.entries, m.Resolves p.2.type := by
  obtain ⟨e, _, _, resolves⟩ := exists_represents loaded mem
  exact resolves

end DataLayer.Schema

namespace DataLayer.Code
open Schema Outcome

theorem checkVariant_eq_ok {m : Model} {variant : String} :
    checkVariant m variant = .ok () ↔ m.HasShape variant := by
  unfold checkVariant
  simp only [bind_eq_ok, ofModel_eq_ok, Model.item_eq_ok, hasShape_iff]
  refine exists_congr fun item => and_congr_right fun _ => ?_
  cases item.kind <;> simp [pure_eq_ok, throw_ne_ok]

theorem unionCodeOf_succeeds {m : Model} (name : String) {u : Union}
    (valid : validateItem m name (.union u) = .ok ()) : Succeeds (unionCodeOf m name u) := by
  have shaped := hasShape_of_validateItem valid
  have checked : u.variants.forM (checkVariant m) = .ok () :=
    forM_eq_ok.mpr fun variant listed => checkVariant_eq_ok.mpr (shaped variant listed)
  exact succeeds_bind_pure.mpr ⟨(), checked⟩

section Targets
variable {name : String}

theorem item_mem_readUses {t : PropertyType} {nullable : Bool} :
    .item name ∈ readUses t nullable ↔ t.recordItem? = some name := by
  induction t generalizing nullable with
  | list item itemNullable description ih =>
    have inner : .item name ∈ readUses (.list item itemNullable description) nullable ↔
        .item name ∈ readUses item itemNullable := by
      cases nullable <;> simp [readUses]
    exact inner.trans ih
  | enumeration _ | object _ | union _ | scalar _ | reference _ | inverse _ _ =>
    cases nullable <;> simp [readUses, PropertyType.recordItem?, PropertyType.leaf, eq_comm]

theorem item_mem_writeUses {t : PropertyType} :
    .item name ∈ writeUses t ↔ t.recordItem? = some name := by
  induction t with
  | list item itemNullable description ih => exact ih
  | enumeration _ | object _ | union _ | reference _ | inverse _ _ =>
    simp [writeUses, PropertyType.recordItem?, PropertyType.leaf, eq_comm]
  | scalar scalar =>
    have plain : .item name ∉ writeUses (.scalar scalar) := by
      unfold writeUses
      split <;> simp
    exact iff_of_false plain (by simp [PropertyType.recordItem?, PropertyType.leaf])

theorem item_of_entityFieldUses {isVariant : Bool} {p : Property}
    (used : .item name ∈ entityFieldUses isVariant p) :
    p.type = .reference name ∨ (∃ field, p.type = .inverse name field) ∨
      p.type.recordItem? = some name := by
  unfold entityFieldUses at used
  rcases List.mem_append.mp used with own | part
  · cases type : p.type <;>
      simp_all [item_mem_readUses, item_mem_writeUses, PropertyType.recordItem?, PropertyType.leaf]
  · cases isVariant with
    | false => simp at part
    | true => cases type : p.type <;> simp_all [item_mem_readUses, item_mem_writeUses]

theorem target?_of_entityFieldUses {isVariant : Bool} {p : Property}
    (used : .item name ∈ entityFieldUses isVariant p) : p.type.target? = some name := by
  rcases item_of_entityFieldUses used with type | ⟨field, type⟩ | held
  · rw [type]
    rfl
  · rw [type]
    rfl
  · exact target?_of_recordItem? held

end Targets

def Use.Converts : Use → Prop
  | .marshal | .item _ => True
  | .assertion | .column _ => False

theorem readUses_convert (t : PropertyType) (nullable : Bool) :
    ∀ u ∈ readUses t nullable, u.Converts := by
  induction t generalizing nullable with
  | list item itemNullable description ih =>
    cases nullable <;> simpa [readUses, Use.Converts] using ih itemNullable
  | enumeration _ | object _ | union _ | scalar _ | reference _ | inverse _ _ =>
    cases nullable <;> simp [readUses, Use.Converts]

theorem writeUses_convert (t : PropertyType) : ∀ u ∈ writeUses t, u.Converts := by
  induction t with
  | list item itemNullable description ih => exact ih
  | enumeration _ | object _ | union _ | reference _ | inverse _ _ =>
    simp [writeUses, Use.Converts]
  | scalar scalar =>
    unfold writeUses
    split <;> simp [Use.Converts]

theorem entityFieldUses_convert (isVariant : Bool) (p : Property) :
    ∀ u ∈ entityFieldUses isVariant p, u.Converts := by
  have converted : ∀ u ∈ readUses p.type p.nullable ++ writeUses p.type, u.Converts :=
    List.forall_mem_append.mpr ⟨readUses_convert p.type p.nullable, writeUses_convert p.type⟩
  have stored : ∀ u ∈ writeUses p.type ++ readUses p.type p.nullable, u.Converts :=
    List.forall_mem_append.mpr ⟨writeUses_convert p.type, readUses_convert p.type p.nullable⟩
  unfold entityFieldUses
  refine List.forall_mem_append.mpr ⟨?_, ?_⟩
  · split <;> simp_all [Use.Converts]
  · cases isVariant with
    | false => simp
    | true =>
      rw [if_pos rfl]
      split
      · simp [Use.Converts]
      · simp [Use.Converts]
      · exact List.forall_mem_cons.mpr ⟨trivial, converted⟩

/-- What other code relies on in the code of an item: its name, whether it is the code of a variant,
    and what it uses. -/
def ComposedFrom (m : Model) (isVariant : Bool) (name : String) : Item → ItemCode → Prop
  | .entity x, .entity c =>
      c.name = name ∧ c.isVariant = isVariant ∧
      c.uses = ColumnSymbol.all.map Use.column ++
        x.properties.entries.flatMap fun p => entityFieldUses isVariant p.2
  | .object x, .object c =>
      c.name = name ∧ c.isVariant = isVariant ∧ c.uses = objectUses x.properties.entries
  | .union u, .union c =>
      c.name = name ∧ c.variants = u.variants ∧ ∀ variant ∈ u.variants, m.HasShape variant
  | .enumeration _, .enumeration c => c.name = name
  | _, _ => False

theorem itemCodeOf_composedFrom {m : Model} {variants : List String} {name : String}
    {item : Item} {code : ItemCode} (run : itemCodeOf m variants name item = .ok code) :
    ComposedFrom m (variants.contains name) name item code := by
  cases item with
  | entity x =>
    obtain ⟨c, made, same⟩ := bind_eq_ok.mp run
    cases pure_eq_ok.mp same
    obtain ⟨fields, _, same⟩ := bind_eq_ok.mp made
    cases pure_eq_ok.mp same
    exact ⟨rfl, rfl, rfl⟩
  | object x =>
    obtain ⟨c, made, same⟩ := bind_eq_ok.mp run
    cases pure_eq_ok.mp same
    obtain ⟨types, _, made⟩ := bind_eq_ok.mp made
    obtain ⟨scope, _, made⟩ := bind_eq_ok.mp made
    obtain ⟨fields, _, same⟩ := bind_eq_ok.mp made
    cases pure_eq_ok.mp same
    exact ⟨rfl, rfl, rfl⟩
  | union u =>
    obtain ⟨c, made, same⟩ := bind_eq_ok.mp run
    cases pure_eq_ok.mp same
    obtain ⟨_, checked, same⟩ := bind_eq_ok.mp made
    cases pure_eq_ok.mp same
    exact ⟨rfl, rfl, fun v isVariant => checkVariant_eq_ok.mp (forM_eq_ok.mp checked v isVariant)⟩
  | enumeration x =>
    obtain ⟨c, made, same⟩ := bind_eq_ok.mp run
    cases pure_eq_ok.mp same
    obtain ⟨members, _, same⟩ := bind_eq_ok.mp made
    cases pure_eq_ok.mp same
    rfl

namespace ComposedFrom
variable {m : Model} {isVariant : Bool} {name : String} {item : Item} {code : ItemCode}

theorem name_eq (composed : ComposedFrom m isVariant name item code) : code.name = name := by
  match item, code, composed with
  | .entity _, .entity _, ⟨same, _⟩ => exact same
  | .object _, .object _, ⟨same, _⟩ => exact same
  | .union _, .union _, ⟨same, _⟩ => exact same
  | .enumeration _, .enumeration _, same => exact same

theorem readsRecords_iff (composed : ComposedFrom m isVariant name item code) :
    code.readsRecords = true ↔ item.kind = .object ∨ item.kind = .union := by
  match item, code, composed with
  | .entity _, .entity _, _ => simp [ItemCode.readsRecords, Item.kind]
  | .object _, .object _, _ => simp [ItemCode.readsRecords, Item.kind]
  | .union _, .union _, _ => simp [ItemCode.readsRecords, Item.kind]
  | .enumeration _, .enumeration _, _ => simp [ItemCode.readsRecords, Item.kind]

theorem shaped {u : Union} (composed : ComposedFrom m isVariant name (.union u) code) :
    ∀ variant ∈ u.variants, m.HasShape variant := by
  match code, composed with
  | .union _, ⟨_, _, shaped⟩ => exact shaped

end ComposedFrom

theorem item_of_objectUses {properties : List (String × Property)} {name : String}
    (used : .item name ∈ objectUses properties) :
    ∃ p ∈ properties, p.2.type.recordItem? = some name := by
  unfold objectUses at used
  rcases List.mem_append.mp used with mem | mem
  · rcases List.mem_cons.mp mem with same | mem
    · contradiction
    · obtain ⟨p, isProperty, used⟩ := List.mem_flatMap.mp mem
      rcases List.mem_append.mp used with read | written
      · exact ⟨p, isProperty, item_mem_readUses.mp read⟩
      · exact ⟨p, isProperty, item_mem_writeUses.mp written⟩
  · split at mem
    · simp at mem
    · contradiction

theorem refers_of_uses {m : Model} {isVariant : Bool} {owner : String} {item : Item}
    {code : ItemCode} (composed : ComposedFrom m isVariant owner item code) {name : String}
    (used : .item name ∈ code.uses) : item.Refers name := by
  match item, code, composed with
  | .entity x, .entity c, ⟨_, _, uses⟩ =>
    rw [ItemCode.uses, uses] at used
    rcases List.mem_append.mp used with column | field
    · simp at column
    · obtain ⟨p, isProperty, used⟩ := List.mem_flatMap.mp field
      exact ⟨p, isProperty, target?_of_entityFieldUses used⟩
  | .object x, .object c, ⟨_, _, uses⟩ =>
    rw [ItemCode.uses, uses] at used
    obtain ⟨p, isProperty, held⟩ := item_of_objectUses used
    exact ⟨p, isProperty, target?_of_recordItem? held⟩
  | .union u, .union c, ⟨_, variants, _⟩ =>
    simpa [ItemCode.uses, UnionCode.uses, variants, Item.Refers] using used
  | .enumeration x, .enumeration c, _ => contradiction

theorem mem_names_of_uses {text : String} {m : Model} (loaded : Model.ofText text = .ok m)
    {isVariant : Bool} {owner : String} {item : Item} {code : ItemCode}
    (mem : (owner, item) ∈ m.items.entries) (composed : ComposedFrom m isVariant owner item code)
    {name : String} (used : .item name ∈ code.uses) : name ∈ m.names := by
  have refers := refers_of_uses composed used
  match item, code, composed with
  | .entity x, .entity c, _ =>
    obtain ⟨p, isProperty, target⟩ := refers
    rcases entity_resolves loaded mem p isProperty with resolves | isId
    · exact mem_names_of_target? resolves target
    · rw [isId] at target
      contradiction
  | .object x, .object c, _ =>
    obtain ⟨p, isProperty, target⟩ := refers
    exact mem_names_of_target? (object_resolves loaded mem p isProperty) target
  | .union u, .union c, ⟨_, _, shaped⟩ =>
    rcases shaped name refers with kind | kind
    · exact Model.mem_names_of_kind? kind
    · exact Model.mem_names_of_kind? kind
  | .enumeration x, .enumeration c, _ => contradiction

theorem lines_succeeds {text : String} {m : Model} (loaded : Model.ofText text = .ok m)
    {isVariant : Bool} {owner : String} {item : Item} {code : ItemCode}
    (mem : (owner, item) ∈ m.items.entries)
    (composed : ComposedFrom m isVariant owner item code) :
    Succeeds (code.imports.lines m) := by
  refine succeeds_bind_pure.mpr (succeeds_mapM.mpr fun used imported => ?_)
  have has : (Imports.ofUses code.name code.uses).Has (.item used) := imported
  have isUse := (Imports.has_ofUses.mp has).1
  exact exists_itemLine (mem_names_of_uses loaded mem composed isUse)

end DataLayer.Code
