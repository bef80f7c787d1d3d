import DataLayer.Proofs.Schema.Loading

/- The references of a loaded model. Names in type expressions are looked up among all items of the
   document, so that whatever a property of the model refers to is an item of the model, of the kind
   that the property's type says. The identifier that an entity gets without declaring it is not
   looked up: it is a scalar even where an item has the scalar's name. -/
namespace DataLayer

def Xml.Element.attribute? (e : Xml.Element) (key : String) : Option String :=
  (Schema.attributesOf e.name e.attributes).toOption.bind (·.get? key)

namespace Schema
open Xml Outcome

/-- Every name in a type stands for an item of the kind that the type says, and the name of a scalar
    for none. -/
def Model.Resolves (m : Model) : PropertyType → Prop
  | .scalar name => name ∉ m.names
  | .enumeration name => m.kind? name = some .enumeration
  | .object name => m.kind? name = some .object
  | .union name => m.kind? name = some .union
  | .reference entity => m.kind? entity = some .entity
  | .inverse entity _ => m.kind? entity = some .entity
  | .list item _ _ => m.Resolves item

def Lists (e : Element) (names : List String) : Prop :=
  e.children.map (·.attribute? "name") = names.map some

/-- An item is what its element declares, an entity with an identifier put before all else if it
    declares none. -/
def Represents (m : Model) (e : Element) : Item → Prop
  | .entity x =>
      ∃ declared : Table Property,
        Lists e declared.keys ∧ declared.keys.Nodup ∧
        (∀ p ∈ declared.entries, m.Resolves p.2.type) ∧
        ("id" ∈ declared.keys → x.properties = declared) ∧
        ("id" ∉ declared.keys →
          x.properties.entries = ("id", ⟨.scalar "ID", false, none⟩) :: declared.entries)
  | .object x =>
      Lists e x.properties.keys ∧ x.properties.keys.Nodup ∧
      ∀ p ∈ x.properties.entries, m.Resolves p.2.type
  | .union u => Lists e u.variants ∧ u.variants.Nodup
  | .enumeration x => Lists e x.values.names ∧ x.values.names.Nodup

theorem attribute?_of_required {e : Element} {attributes : Attributes} {element key value : String}
    (read : attributesOf e.name e.attributes = .ok attributes)
    (found : required attributes element key = .ok value) :
    e.attribute? key = some value ∧ value ≠ "" := by
  unfold required at found
  split at found
  · rename_i v there
    split at found
    · contradiction
    · rename_i filled
      cases found
      refine ⟨by simp [Element.attribute?, read, Except.toOption, there], ?_⟩
      rintro rfl
      simp at filled
  · contradiction

theorem lists_of_required {e : Element} {children : List Attributes} {names : List String}
    {child element : String}
    (read : List.Forall₂ (fun c a => c.name = child ∧ attributesOf c.name c.attributes = .ok a)
      e.children children)
    (named : List.Forall₂ (fun a n => required a element "name" = .ok n) children names) :
    Lists e names := by
  unfold Lists
  generalize e.children = elements at read
  induction read generalizing names with
  | nil =>
    cases named
    rfl
  | cons head _ ih =>
    cases named with
    | cons found rest =>
      simp [(attribute?_of_required head.2 found).1, ih rest]

theorem mapM_propertyOf {children : List Attributes} {declared : List PropertyDeclaration}
    (read : children.mapM propertyOf = .ok declared) :
    List.Forall₂ (fun a n => required a "property" "name" = .ok n) children
      (declared.map PropertyDeclaration.name) := by
  rw [List.forall₂_map_right_iff]
  refine (mapM_eq_ok.mp read).imp fun a d run => ?_
  unfold propertyOf at run
  obtain ⟨name, named, run⟩ := bind_eq_ok.mp run
  obtain ⟨text, _, run⟩ := bind_eq_ok.mp run
  split at run
  · cases pure_eq_ok.mp run
    exact named
  · exact absurd run throw_ne_ok

theorem namesOf_eq_ok {item element duplicated : String} {children : List Attributes}
    {s : NameSet} (read : namesOf item element duplicated children = .ok s) :
    List.Forall₂ (fun a n => required a element "name" = .ok n) children s.names := by
  unfold namesOf at read
  obtain ⟨names, each, all⟩ := foldlM_appends NameSet.names
    (fun a n => required a element "name" = .ok n) (by
      intro known a more step
      obtain ⟨name, named, step⟩ := bind_eq_ok.mp step
      split at step
      · rename_i added
        cases pure_eq_ok.mp step
        exact ⟨name, named, NameSet.names_insertNew? added⟩
      · exact absurd step throw_ne_ok) read
  have all : s.names = names := by simpa [NameSet.empty] using all
  exact all ▸ each

theorem resolveProperties_eq_ok {kinds : Table ItemKind} {owner : String}
    {declared : List PropertyDeclaration} {t : Table Property}
    (run : resolveProperties kinds owner declared = .ok t) :
    List.Forall₂ (fun d p => p.1 = d.name ∧ d.resolve kinds = .ok p.2) declared t.entries := by
  unfold resolveProperties at run
  obtain ⟨entries, each, all⟩ := foldlM_appends Table.entries
    (fun d p => p.1 = d.name ∧ d.resolve kinds = .ok p.2) (by
      intro known d more step
      obtain ⟨property, resolved, step⟩ := bind_eq_ok.mp step
      split at step
      · rename_i added
        cases pure_eq_ok.mp step
        exact ⟨(d.name, property), ⟨rfl, resolved⟩, (Table.entries_insertNew? added).2⟩
      · exact absurd step throw_ne_ok) run
  have all : t.entries = entries := by simpa [Table.empty] using all
  exact all ▸ each

theorem keys_of_resolveProperties {kinds : Table ItemKind} {owner : String}
    {declared : List PropertyDeclaration} {t : Table Property}
    (run : resolveProperties kinds owner declared = .ok t) :
    t.keys = declared.map PropertyDeclaration.name := by
  exact (map_eq_map_of_forall₂ ((resolveProperties_eq_ok run).imp fun d p h => h.1.symm)).symm

section Kinds
variable {m : Model} {kinds : Table ItemKind} (agree : ∀ name, m.kind? name = kinds.get? name)
include agree

theorem namedType_resolves (name : String) : m.Resolves (namedType kinds name) := by
  have found := agree name
  unfold namedType
  split
  case h_5 none =>
    rw [none, Model.kind?, Model.get?, Option.map_eq_none_iff] at found
    exact Table.get?_eq_none_iff.mp found
  all_goals
    rename_i some
    exact found.trans some

theorem typeExpr_resolves (t : TypeExpr) : m.Resolves (t.resolve kinds) := by
  induction t with
  | named name nullable => exact namedType_resolves agree name
  | list item nullable ih => exact ih

theorem propertyDeclaration_resolves {d : PropertyDeclaration} {p : Property}
    (run : d.resolve kinds = .ok p) : m.Resolves p.type := by
  unfold PropertyDeclaration.resolve at run
  split at run
  · cases run
    exact typeExpr_resolves agree d.type
  · split at run
    · rename_i related
      cases run
      unfold TypeExpr.relatedEntity? at related
      split at related
      · split at related
        · rename_i isEntity
          cases related
          exact (agree _).trans isEntity
        · contradiction
      · contradiction
    · contradiction

theorem resolveProperties_resolves {owner : String} {declared : List PropertyDeclaration}
    {t : Table Property} (run : resolveProperties kinds owner declared = .ok t) :
    ∀ p ∈ t.entries, m.Resolves p.2.type := by
  intro p mem
  obtain ⟨d, _, _, resolved⟩ := exists_left_of_mem (resolveProperties_eq_ok run) mem
  exact propertyDeclaration_resolves agree resolved

end Kinds

theorem declaration_resolve_kind {kinds : Table ItemKind} {name : String} {d : Declaration}
    {item : Item} (run : d.resolve kinds name = .ok item) : item.kind = d.kind := by
  cases d with
  | entity description declared =>
    obtain ⟨properties, _, same⟩ := bind_eq_ok.mp run
    cases pure_eq_ok.mp same
    rfl
  | object description declared =>
    obtain ⟨properties, _, same⟩ := bind_eq_ok.mp run
    cases pure_eq_ok.mp same
    rfl
  | union u =>
    cases pure_eq_ok.mp run
    rfl
  | enumeration e =>
    cases pure_eq_ok.mp run
    rfl

theorem resolve_entries {kinds : Table ItemKind} {start m : Model}
    {entries : List (String × Declaration)}
    (distinct : (start.items.keys ++ entries.map Prod.fst).Nodup)
    (run : entries.foldlM
      (fun model e => do return model.insert e.1 (← e.2.resolve kinds e.1)) start = .ok m) :
    ∃ items, m.items.entries = start.items.entries ++ items ∧
      List.Forall₂ (fun d e => e.1 = d.1 ∧ d.2.resolve kinds d.1 = .ok e.2) entries items := by
  induction entries generalizing start with
  | nil =>
    cases pure_eq_ok.mp run
    exact ⟨[], by simp, .nil⟩
  | cons d rest ih =>
    rw [List.foldlM_cons] at run
    obtain ⟨next, first, run⟩ := bind_eq_ok.mp run
    obtain ⟨item, resolved, same⟩ := bind_eq_ok.mp first
    cases pure_eq_ok.mp same
    have fresh : d.1 ∉ start.items.keys := Table.not_mem_of_nodup distinct
    have added : (start.items.insert d.1 item).entries = start.items.entries ++ [(d.1, item)] :=
      Table.entries_insert_of_not_mem fresh
    have distinct : ((start.insert d.1 item).items.keys ++ rest.map Prod.fst).Nodup := by
      simpa [Model.insert, Table.keys, added] using distinct
    obtain ⟨items, all, each⟩ := ih distinct run
    refine ⟨(d.1, item) :: items, ?_, .cons ⟨rfl, resolved⟩ each⟩
    rw [all]
    simp [Model.insert, added]

theorem resolveAll_eq_ok {declared : Table Declaration} {m : Model}
    (run : resolveAll declared = .ok m) :
    List.Forall₂ (fun d e => e.1 = d.1 ∧
        d.2.resolve (declared.map Declaration.kind) d.1 = .ok e.2)
      declared.entries m.items.entries := by
  have distinct : (Model.empty.items.keys ++ declared.entries.map Prod.fst).Nodup := by
    simpa [Model.empty, Table.empty, Table.keys] using declared.distinct
  obtain ⟨items, all, each⟩ := resolve_entries distinct run
  have all : m.items.entries = items := by simpa [Model.empty, Table.empty] using all
  exact all ▸ each

theorem names_of_resolveAll {declared : Table Declaration} {m : Model}
    (run : resolveAll declared = .ok m) : m.names = declared.keys :=
  (map_eq_map_of_forall₂ ((resolveAll_eq_ok run).imp fun _ _ h => h.1.symm)).symm

theorem kind?_of_resolveAll {declared : Table Declaration} {m : Model}
    (run : resolveAll declared = .ok m) (name : String) :
    m.kind? name = (declared.map Declaration.kind).get? name := by
  have kinds : m.items.map Item.kind = declared.map Declaration.kind := by
    simp only [Table.map, Table.mk.injEq]
    refine (map_eq_map_of_forall₂ ((resolveAll_eq_ok run).imp fun d e h => ?_)).symm
    rw [h.1, declaration_resolve_kind h.2]
  rw [← kinds, Table.get?_map]
  rfl

theorem word_of_ofWord? {word : String} {kind : ItemKind}
    (found : ItemKind.ofWord? word = some kind) : kind.word = word := by
  simpa using List.find?_some found

theorem represents_of_declares {m : Model} {kinds : Table ItemKind} {e : Element} {name : String}
    {d : Declaration} {item : Item} (agree : ∀ name, m.kind? name = kinds.get? name)
    (declares : Declares e name d) (run : d.resolve kinds name = .ok item) :
    e.name = item.kind.word ∧ e.attribute? "name" = some name ∧ name ≠ "" ∧
      Represents m e item := by
  obtain ⟨kind, attributes, children, word, own, named, below, declared⟩ := declares
  obtain ⟨written, nonempty⟩ := attribute?_of_required own named
  have word := word_of_ofWord? word
  refine ⟨?_, written, nonempty, ?_⟩
  · rw [declaration_resolve_kind run, ← word]
    cases kind <;> obtain ⟨_, _, same⟩ := bind_eq_ok.mp declared <;>
      cases pure_eq_ok.mp same <;> rfl
  · cases kind with
    | entity =>
      obtain ⟨properties, read, same⟩ := bind_eq_ok.mp declared
      cases pure_eq_ok.mp same
      obtain ⟨table, resolved, same⟩ := bind_eq_ok.mp run
      cases pure_eq_ok.mp same
      have first := Table.entries_insertFirst table idKey idProperty
      refine ⟨table, ?_, table.distinct, resolveProperties_resolves agree resolved, first.1,
        first.2⟩
      rw [keys_of_resolveProperties resolved]
      exact lists_of_required below (mapM_propertyOf read)
    | object =>
      obtain ⟨properties, read, same⟩ := bind_eq_ok.mp declared
      cases pure_eq_ok.mp same
      obtain ⟨table, resolved, same⟩ := bind_eq_ok.mp run
      cases pure_eq_ok.mp same
      refine ⟨?_, table.distinct, resolveProperties_resolves agree resolved⟩
      rw [keys_of_resolveProperties resolved]
      exact lists_of_required below (mapM_propertyOf read)
    | union =>
      obtain ⟨variants, read, same⟩ := bind_eq_ok.mp declared
      cases pure_eq_ok.mp same
      cases pure_eq_ok.mp run
      exact ⟨lists_of_required below (namesOf_eq_ok read), variants.distinct⟩
    | enumeration =>
      obtain ⟨values, read, same⟩ := bind_eq_ok.mp declared
      cases pure_eq_ok.mp same
      cases pure_eq_ok.mp run
      exact ⟨lists_of_required below (namesOf_eq_ok read), values.distinct⟩

theorem represents_all {declared : Table Declaration} {m : Model} {elements : List Element}
    (declares : List.Forall₂ (fun e d => Declares e d.1 d.2) elements declared.entries)
    (run : resolveAll declared = .ok m) :
    List.Forall₂ (fun e item => e.name = item.2.kind.word ∧
        e.attribute? "name" = some item.1 ∧ item.1 ≠ "" ∧ Represents m e item.2)
      elements m.items.entries := by
  have resolved := resolveAll_eq_ok run
  have agree := kind?_of_resolveAll run
  generalize declared.entries = declarations at declares resolved
  generalize m.items.entries = items at resolved
  induction declares generalizing items with
  | nil =>
    cases resolved
    exact .nil
  | cons head _ ih =>
    cases resolved with
    | cons item rest =>
      obtain ⟨same, run⟩ := item
      have here := represents_of_declares agree head run
      exact .cons (same ▸ here) (ih _ rest)

theorem exists_represents {text : String} {m : Model} (loaded : Model.ofText text = .ok m)
    {name : String} {item : Item} (mem : (name, item) ∈ m.items.entries) :
    ∃ e, Represents m e item := by
  obtain ⟨declared, read, run⟩ := bind_eq_ok.mp loaded
  obtain ⟨_, _, _, declares⟩ := declarationsOf_eq_ok read
  obtain ⟨e, _, _, _, _, represents⟩ := exists_left_of_mem (represents_all declares run) mem
  exact ⟨e, represents⟩

/-- A document has one schema element, and the children of this stand for the items of the model,
    one each and in their order. -/
def LoadedFrom (r : Reading) (m : Model) : Prop :=
  ∃ schema, r.roots = [schema] ∧ schema.name = "schema" ∧ m.names.Nodup ∧
    List.Forall₂ (fun e item => e.name = item.2.kind.word ∧
        e.attribute? "name" = some item.1 ∧ item.1 ≠ "" ∧ Represents m e item.2)
      schema.children m.items.entries

/-- Whatever a declared property of a loaded model refers to is an item of the kind that its type
    says, and no declared scalar bears the name of an item. -/
theorem ofText_loadedFrom {text : String} {m : Model} (loaded : Model.ofText text = .ok m) :
    LoadedFrom (Reading.ofText text) m := by
  obtain ⟨declared, read, run⟩ := bind_eq_ok.mp loaded
  obtain ⟨schema, roots, isSchema, declares⟩ := declarationsOf_eq_ok read
  exact ⟨schema, roots, isSchema, m.items.distinct, represents_all declares run⟩

def listText : String :=
  "<schema><entity name=\"A\"><property name=\"b\" type=\"[E!]\"/></entity>" ++
  "<enum name=\"E\"><value name=\"V\"/></enum></schema>"

theorem listText_loadedFrom :
    ∃ m, Model.ofText listText = .ok m ∧ LoadedFrom (Reading.ofText listText) m := by
  have loaded : Model.ofText listText = .ok ⟨{ entries :=
      [("A", .entity ⟨none, { entries :=
         [("id", ⟨.scalar "ID", false, none⟩),
          ("b", ⟨.list (.enumeration "E") false none, true, none⟩)] }⟩),
       ("E", .enumeration ⟨none, { names := ["V"] }⟩)] }⟩ :=
    eq_ok_of_toOption (by decide +kernel)
  exact ⟨_, loaded, ofText_loadedFrom loaded⟩

theorem implicit_identifier_shadowed :
    ∃ m x p,
      Model.ofText "<schema><entity name=\"A\"/><object name=\"ID\"/></schema>" = .ok m ∧
      m.get? "A" = some (.entity x) ∧ ("id", p) ∈ x.properties.entries ∧
      p.type = .scalar "ID" ∧ "ID" ∈ m.names := by
  refine ⟨⟨{ entries :=
      [("A", .entity ⟨none, { entries := [("id", ⟨.scalar "ID", false, none⟩)] }⟩),
       ("ID", .object ⟨none, .empty⟩)] }⟩,
    ⟨none, { entries := [("id", ⟨.scalar "ID", false, none⟩)] }⟩,
    ⟨.scalar "ID", false, none⟩, eq_ok_of_toOption (by decide +kernel), rfl, by simp, rfl,
    by decide⟩

end Schema

end DataLayer
