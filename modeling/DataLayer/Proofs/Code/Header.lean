import DataLayer.Proofs.Code.PrimaryKeys

/- The header of a generated file is exact. It imports the items that the item of the file needs,
   each once and in the order in which the item first mentions them, and a helper only where it is
   needed. Uses are collected while code is composed, so that an item is used as often as a property
   is read and written; what is imported depends only on what the properties refer to. -/
namespace DataLayer.Schema

/-- The items to which the properties or variants of an item refer, in order and with repetitions.
    No property of an entity that can be stored is a list. A value object holds no entity but the
    entity's identifier, and so mentions none. -/
def Item.mentions : Item → List String
  | .entity x => x.properties.entries.filterMap (·.2.type.target?)
  | .object x => x.properties.entries.filterMap (·.2.type.recordItem?)
  | .union u => u.variants
  | .enumeration _ => []

def Entity.HoldsRecord (x : Entity) : Prop :=
  ∃ p ∈ x.properties.entries, ∃ name, p.2.type = .object name ∨ p.2.type = .union name

/-- The code of an item reads or writes JSON: that of an entity only as a variant of a union or for
    a property that holds a record. -/
def Model.Converts (m : Model) (name : String) : Item → Prop
  | .entity x => m.IsVariant name ∨ x.HoldsRecord
  | .object _ | .union _ => True
  | .enumeration _ => False

def Item.Insists : Item → Prop
  | .object x => ∃ p ∈ x.properties.entries, p.2.nullable = false
  | .entity _ | .union _ | .enumeration _ => False

end DataLayer.Schema

namespace DataLayer.Code
open Schema Outcome

/-- The import lines of a file are those that its item needs, and no others. -/
structure ImportsExactly (m : Model) (item : Item) (f : ItemFile) : Prop where
  header : f.source.header =
    banner :: if f.imported.isEmpty then [] else "" :: f.imported.map ImportLine.render
  once : f.imported.Nodup
  items : f.imported.filterMap ImportLine.item? =
    (item.mentions.filter (· ≠ f.source.item)).eraseDups
  marshal : .marshal ∈ f.imported ↔ m.Converts f.source.item item
  assertion : .assertion ∈ f.imported ↔ item.Insists
  columns : ∀ symbols, .columns symbols ∈ f.imported ↔
    item.kind = .entity ∧ symbols = ColumnSymbol.all

theorem ofList_flatMap_uses {α : Type} {xs : List α} {uses : α → List Use}
    {only : α → Option String}
    (same : ∀ x ∈ xs, ∀ name, .item name ∈ uses x ↔ only x = some name) (owner : String) :
    NameSet.ofList (((xs.flatMap uses).filterMap Use.item?).filter (· ≠ owner)) =
      NameSet.ofList ((xs.filterMap only).filter (· ≠ owner)) := by
  rw [List.filterMap_flatMap, List.filter_flatMap, List.filter_filterMap]
  refine NameSet.foldl_insert_flatMap (fun x mem name => ?_) .empty
  rw [List.mem_filter, mem_filterMap_item?, same x mem, Option.filter_eq_some_iff]

theorem ne_list_of_bindingOf {m : Model} {p : Property} {binding : Binding}
    (bound : bindingOf m p = .ok binding) (item : PropertyType) (nullable : Bool)
    (description : Option String) : p.type ≠ .list item nullable description := by
  intro type
  obtain ⟨storage, stored, _⟩ := bind_eq_ok.mp bound
  rw [type, storageOf] at stored
  contradiction

theorem item_mem_entityFieldUses {isVariant : Bool} {p : Property} {name : String}
    (single : ∀ item nullable description, p.type ≠ .list item nullable description) :
    .item name ∈ entityFieldUses isVariant p ↔ p.type.target? = some name := by
  constructor
  · exact target?_of_entityFieldUses
  · intro target
    unfold entityFieldUses
    refine List.mem_append_left _ ?_
    cases type : p.type with
    | list item nullable description => exact absurd type (single item nullable description)
    | _ => simp_all [PropertyType.target?, PropertyType.leaf, item_mem_writeUses,
        PropertyType.recordItem?]

theorem marshal_mem_entityFieldUses {isVariant : Bool} {p : Property} :
    .marshal ∈ entityFieldUses isVariant p ↔
      isVariant = true ∨ ∃ name, p.type = .object name ∨ p.type = .union name := by
  constructor
  · exact fun used => helper_of_entityFieldUses used (by simp)
  · unfold entityFieldUses
    rintro (rfl | ⟨name, type | type⟩)
    · refine List.mem_append_right _ ?_
      cases type : p.type <;> simp
    · simp [type]
    · simp [type]

theorem mem_objectUses {properties : List (String × Property)} {u : Use} :
    u ∈ objectUses properties ↔ u = .marshal ∨
      (∃ p ∈ properties, u ∈ readUses p.2.type p.2.nullable ++ writeUses p.2.type) ∨
      u = .assertion ∧ ∃ p ∈ properties, p.2.nullable = false := by
  unfold objectUses
  rw [List.mem_append, List.mem_cons, List.mem_flatMap, or_assoc]
  refine or_congr_right (or_congr_right ?_)
  by_cases insists : ∃ p ∈ properties, p.2.nullable = false
  · have found : properties.any (!·.2.nullable) = true := by simpa using insists
    rw [if_pos found, List.mem_singleton, and_iff_left insists]
  · have missing : ¬ properties.any (!·.2.nullable) = true := by simpa using insists
    simp [missing, insists]

theorem filterMap_item?_objectUses (properties : List (String × Property)) :
    (objectUses properties).filterMap Use.item? =
      (properties.flatMap fun p => readUses p.2.type p.2.nullable ++ writeUses p.2.type).filterMap
        Use.item? := by
  unfold objectUses
  rw [List.filterMap_append, List.filterMap_cons_none rfl]
  split
  · exact List.append_nil _
  · exact List.append_nil _

theorem converts_of_mem_conversion {p : Property} {u : Use}
    (used : u ∈ readUses p.type p.nullable ++ writeUses p.type) : u.Converts := by
  rcases List.mem_append.mp used with read | written
  · exact readUses_convert p.type p.nullable u read
  · exact writeUses_convert p.type u written

theorem ne_list_of_itemCodeOf {m : Model} {variants : List String} {name : String} {x : Entity}
    {code : ItemCode} (run : itemCodeOf m variants name (.entity x) = .ok code) :
    ∀ p ∈ x.properties.entries, ∀ item nullable description,
      p.2.type ≠ .list item nullable description := by
  intro p isProperty
  obtain ⟨c, made, _⟩ := bind_eq_ok.mp run
  obtain ⟨_, _, each⟩ := entityCodeOf_eq_ok made
  obtain ⟨f, _, binding, bound, _⟩ := exists_right_of_mem each isProperty
  exact ne_list_of_bindingOf bound

section Uses
variable {m : Model} {isVariant : Bool} {name : String} {item : Item} {code : ItemCode}

theorem column_mem_uses (composed : ComposedFrom m isVariant name item code)
    (symbol : ColumnSymbol) : .column symbol ∈ code.uses ↔ item.kind = .entity := by
  match item, code, composed with
  | .entity x, .entity c, ⟨_, _, uses⟩ =>
    have listed : symbol ∈ ColumnSymbol.all := by cases symbol <;> decide
    have used : .column symbol ∈ c.uses := by
      rw [uses]
      exact List.mem_append_left _ (List.mem_map_of_mem listed)
    exact iff_of_true used rfl
  | .object x, .object c, ⟨_, _, uses⟩ =>
    have unused : .column symbol ∉ c.uses := by
      rw [uses, mem_objectUses]
      rintro (same | ⟨p, _, converted⟩ | ⟨same, _⟩)
      · contradiction
      · exact converts_of_mem_conversion converted
      · contradiction
    exact iff_of_false unused (by simp [Item.kind])
  | .union u, .union c, _ => simp [ItemCode.uses, UnionCode.uses, Item.kind]
  | .enumeration x, .enumeration c, _ => simp [ItemCode.uses, Item.kind]

theorem assertion_mem_uses (composed : ComposedFrom m isVariant name item code) :
    .assertion ∈ code.uses ↔ item.Insists := by
  match item, code, composed with
  | .entity x, .entity c, ⟨_, _, uses⟩ =>
    have unused : .assertion ∉ c.uses := by
      rw [uses, List.mem_append, List.mem_flatMap]
      rintro (column | ⟨p, _, converted⟩)
      · simp at column
      · exact entityFieldUses_convert isVariant p.2 _ converted
    exact iff_of_false unused id
  | .object x, .object c, ⟨_, _, uses⟩ =>
    rw [ItemCode.uses, uses, mem_objectUses]
    constructor
    · rintro (same | ⟨p, _, converted⟩ | ⟨_, insists⟩)
      · contradiction
      · exact (converts_of_mem_conversion converted).elim
      · exact insists
    · exact fun insists => .inr (.inr ⟨rfl, insists⟩)
  | .union u, .union c, _ => simp [ItemCode.uses, UnionCode.uses, Item.Insists]
  | .enumeration x, .enumeration c, _ => simp [ItemCode.uses, Item.Insists]

/-- An entity that is a variant reads JSON for every property, and it has one: its identifier. -/
theorem marshal_mem_uses {text : String} (loaded : Model.ofText text = .ok m)
    (found : m.get? name = some item)
    (composed : ComposedFrom m (m.variantNames.contains name) name item code) :
    .marshal ∈ code.uses ↔ m.Converts name item := by
  match item, code, composed with
  | .entity x, .entity c, ⟨_, _, uses⟩ =>
    have mem : .marshal ∈ c.uses ↔ ∃ p ∈ x.properties.entries, m.IsVariant name ∨
        ∃ other, p.2.type = .object other ∨ p.2.type = .union other := by
      simp only [uses, List.mem_append, List.mem_flatMap, marshal_mem_entityFieldUses,
        variantNames_contains_iff]
      simp
    obtain ⟨id, isId⟩ := Table.mem_keys_iff.mp (idKey_of_ofText loaded found).1
    refine mem.trans ?_
    constructor
    · rintro ⟨p, isProperty, isVariant | holds⟩
      · exact .inl isVariant
      · exact .inr ⟨p, isProperty, holds⟩
    · rintro (isVariant | ⟨p, isProperty, holds⟩)
      · exact ⟨_, isId, .inl isVariant⟩
      · exact ⟨p, isProperty, .inr holds⟩
  | .object x, .object c, ⟨_, _, uses⟩ =>
    have used : .marshal ∈ c.uses := by
      rw [uses]
      exact mem_objectUses.mpr (.inl rfl)
    exact iff_of_true used trivial
  | .union u, .union c, _ => exact iff_of_true List.mem_cons_self trivial
  | .enumeration x, .enumeration c, _ => exact iff_of_false List.not_mem_nil id

theorem items_ofUses_mentions {variants : List String}
    (run : itemCodeOf m variants name item = .ok code) :
    (Imports.ofUses name code.uses).items.names =
      (item.mentions.filter (· ≠ name)).eraseDups := by
  have composed := itemCodeOf_composedFrom run
  rw [Imports.items_ofUses, ← NameSet.names_ofList]
  match item, code, composed with
  | .entity x, .entity c, ⟨_, _, uses⟩ =>
    have single := ne_list_of_itemCodeOf run
    have same : ∀ p ∈ x.properties.entries, ∀ other,
        .item other ∈ entityFieldUses (variants.contains name) p.2 ↔
          p.2.type.target? = some other :=
      fun p isProperty other => item_mem_entityFieldUses (single p isProperty)
    have columns : (ColumnSymbol.all.map Use.column).filterMap Use.item? = [] := rfl
    rw [ItemCode.uses, uses, List.filterMap_append, columns, List.nil_append,
      ofList_flatMap_uses same, Item.mentions]
  | .object x, .object c, ⟨_, _, uses⟩ =>
    have same : ∀ p ∈ x.properties.entries, ∀ other,
        .item other ∈ readUses p.2.type p.2.nullable ++ writeUses p.2.type ↔
          p.2.type.recordItem? = some other := by
      intro p isProperty other
      rw [List.mem_append, item_mem_readUses, item_mem_writeUses, or_self]
    rw [ItemCode.uses, uses, filterMap_item?_objectUses, ofList_flatMap_uses same, Item.mentions]
  | .union u, .union c, ⟨_, same, _⟩ =>
    have used : c.uses.filterMap Use.item? = u.variants := by
      rw [UnionCode.uses, same, List.filterMap_cons_none rfl, List.filterMap_map]
      exact List.filterMap_some
    rw [ItemCode.uses, used, Item.mentions]
  | .enumeration x, .enumeration c, _ => rfl

theorem importsExactly {text : String} {f : ItemFile} (loaded : Model.ofText text = .ok m)
    (found : m.get? name = some item) (run : itemFileOf m m.variantNames name item = .ok f) :
    ImportsExactly m item f := by
  obtain ⟨composed, lines⟩ := itemFileOf_eq_ok run
  have named : f.source.item = name := composed.name_eq
  have has : ∀ u, (∀ other, u ≠ .item other) →
      (f.code.imports.Has u ↔ u ∈ f.code.uses) := by
    intro u helper
    rw [ItemCode.imports, Imports.has_ofUses, and_iff_left (helper _)]
  refine ⟨?_, Imports.nodup_lines lines, ?_, ?_, ?_, fun symbols => ?_⟩
  · simp [SourceFile.header, ItemFile.source]
  · rw [Imports.items_of_lines lines, ItemCode.imports, composed.name_eq, named]
    exact items_ofUses_mentions (itemCodeOf_of_itemFileOf run)
  · rw [Imports.mem_lines_iff lines rfl, Imports.marshal_mem_supportLines, has _ (by simp), named]
    exact marshal_mem_uses loaded found composed
  · rw [Imports.mem_lines_iff lines rfl, Imports.assertion_mem_supportLines, has _ (by simp)]
    exact assertion_mem_uses composed
  · rw [Imports.mem_lines_iff lines rfl]
    refine Imports.columns_mem_supportLines_of_all fun symbol => ?_
    rw [has _ (by simp), column_mem_uses composed symbol]

end Uses

end DataLayer.Code
