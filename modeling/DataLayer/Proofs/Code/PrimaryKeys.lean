import DataLayer.Proofs.Code.Fields
import DataLayer.Proofs.Code.LinkClosure

/- The primary keys of entities. Whether a column is one depends on the type of its property alone,
   and whether an entity gets an identifier depends on the keys of its properties alone. Both agree
   on an entity that has one property of that type, under the key of the identifier; an entity that
   declares its identifier as something else has no primary key, and one that declares another
   property of that type has several. -/
namespace DataLayer

def Support.Registration.primaryKeys (r : Support.Registration) : List Support.Column :=
  r.columns.filter (·.type = .primaryKey)

namespace Schema
open Xml Outcome

def DeclaresId (r : Reading) (name : String) : Prop :=
  ∃ schema ∈ r.roots, ∃ e ∈ schema.children, e.attribute? "name" = some name ∧
    ∃ p ∈ e.children, p.attribute? "name" = some "id"

theorem exists_element {text : String} {m : Model} (loaded : Model.ofText text = .ok m)
    {name : String} {item : Item} (found : m.get? name = some item) :
    ∃ schema ∈ (Reading.ofText text).roots, ∃ e ∈ schema.children,
      e.attribute? "name" = some name ∧ Represents m e item := by
  obtain ⟨declared, read, run⟩ := bind_eq_ok.mp loaded
  obtain ⟨schema, roots, _, declares⟩ := declarationsOf_eq_ok read
  have mem := Table.get?_eq_some_iff.mp found
  obtain ⟨e, child, _, named, _, represents⟩ :=
    exists_left_of_mem (represents_all declares run) mem
  exact ⟨schema, by simp [roots], e, child, named, represents⟩

theorem idKey_of_ofText {text : String} {m : Model} (loaded : Model.ofText text = .ok m)
    {name : String} {x : Entity} (found : m.get? name = some (.entity x)) :
    "id" ∈ x.properties.keys ∧
      (¬ DeclaresId (Reading.ofText text) name → x.properties.get? "id" = some idProperty) := by
  obtain ⟨schema, root, e, child, named, declared, lists, _, _, kept, first⟩ :=
    exists_element loaded found
  by_cases declares : "id" ∈ declared.keys
  · refine ⟨kept declares ▸ declares, fun undeclared => absurd ?_ undeclared⟩
    have listed : some "id" ∈ e.children.map (·.attribute? "name") :=
      lists ▸ List.mem_map_of_mem declares
    obtain ⟨p, inside, key⟩ := List.mem_map.mp listed
    exact ⟨schema, root, e, child, named, p, inside, key⟩
  · have entries := first declares
    have mem : ("id", idProperty) ∈ x.properties.entries := entries ▸ List.mem_cons_self
    exact ⟨Table.mem_keys_iff.mpr ⟨_, mem⟩, fun _ => Table.get?_eq_some_iff.mpr mem⟩

end Schema

namespace Code
open Schema Support Outcome

theorem scalarColumn_eq_primaryKey {s : Scalar} : scalarColumn s = .primaryKey ↔ s = .id := by
  cases s <;> simp [scalarColumn]

theorem storageOf_primaryKey {m : Model} {t : PropertyType} {s : Storage}
    (run : storageOf m t = .ok s) : s.columnType = .primaryKey ↔ t = .scalar "ID" := by
  cases t with
  | scalar name =>
    rw [storageOf] at run
    cases known : Scalar.ofName? name with
    | none => simp [known] at run
    | some scalar =>
      simp only [known, Except.ok.injEq] at run
      subst run
      rw [Storage.columnType, scalarColumn_eq_primaryKey, PropertyType.scalar.injEq]
      constructor
      · rintro rfl
        exact (Scalar.name_of_ofName? known).symm
      · rintro rfl
        exact Option.some.inj (known.symm.trans (Scalar.ofName?_name .id))
  | enumeration name =>
    obtain ⟨e, _, same⟩ := bind_eq_ok.mp run
    cases pure_eq_ok.mp same
    simp [Storage.columnType]
  | list item nullable description => simp [storageOf] at run
  | object _ | union _ | reference _ | inverse _ _ =>
    cases run
    simp [Storage.columnType]

def keyColumn (key : String) : Column := ⟨key, .primaryKey, false, false⟩

theorem column_of_entityFieldFor {m : Model} {owner : String} {isVariant : Bool}
    {p : String × Property} {f : EntityField} (made : EntityFieldFor m owner isVariant p f) :
    (f.column.type = .primaryKey ↔ p.2.type = .scalar "ID") ∧
      (f.column.type = .primaryKey → f.column = keyColumn p.1) := by
  obtain ⟨binding, bound, run⟩ := made
  obtain ⟨storage, stored, same⟩ := bind_eq_ok.mp bound
  cases pure_eq_ok.mp same
  obtain ⟨key, binding⟩ := entityFieldOf_binding run
  have type : f.column.type = storage.columnType := by rw [EntityField.column, binding]; rfl
  refine ⟨type ▸ storageOf_primaryKey stored, fun isKey => ?_⟩
  have isKey : storage.columnType = .primaryKey := type ▸ isKey
  simp [EntityField.column, binding, key, Binding.ofStorage, isKey, keyColumn]

theorem primaryKeys_of_fields {m : Model} {owner : String} {isVariant : Bool}
    {properties : List (String × Property)} {fields : List EntityField}
    (made : List.Forall₂ (EntityFieldFor m owner isVariant) properties fields) :
    (fields.map EntityField.column).filter (·.type = .primaryKey) =
      ((properties.filter (·.2.type = .scalar "ID")).map Prod.fst).map keyColumn := by
  induction made with
  | nil => rfl
  | @cons p f properties fields head _ ih =>
    obtain ⟨isKey, column⟩ := column_of_entityFieldFor head
    rw [List.map_cons]
    by_cases key : p.2.type = .scalar "ID"
    · have here : f.column.type = .primaryKey := isKey.mpr key
      rw [List.filter_cons_of_pos (by simpa using here), ih, column here,
        List.filter_cons_of_pos (by simpa using key), List.map_cons, List.map_cons]
    · have here : f.column.type ≠ .primaryKey := fun h => key (isKey.mp h)
      rw [List.filter_cons_of_neg (by simpa using here), ih,
        List.filter_cons_of_neg (by simpa using key)]

/-- Of keys without repetition exactly those that pass a test are left, and this is one key exactly
    if it alone passes. -/
theorem filter_keys_eq_singleton {t : Table Property} {key : String} (mem : key ∈ t.keys)
    (test : Property → Prop) [DecidablePred test] :
    (t.entries.filter fun p => test p.2).map Prod.fst = [key] ↔
      ∀ p ∈ t.entries, test p.2 ↔ p.1 = key := by
  have kept : ∀ other, other ∈ (t.entries.filter fun p => test p.2).map Prod.fst ↔
      ∃ p ∈ t.entries, test p.2 ∧ p.1 = other := by
    simp [and_assoc]
  have distinct : ((t.entries.filter fun p => test p.2).map Prod.fst).Nodup :=
    t.distinct.sublist (List.filter_sublist.map Prod.fst)
  constructor
  · intro alone p isEntry
    rw [alone] at kept
    constructor
    · intro passes
      exact List.mem_singleton.mp ((kept p.1).mpr ⟨p, isEntry, passes, rfl⟩)
    · rintro rfl
      obtain ⟨q, isOther, passes, same⟩ := (kept p.1).mp (List.mem_singleton.mpr rfl)
      have here : t.get? p.1 = some p.2 := Table.get?_eq_some_iff.mpr isEntry
      rw [← same, Table.get?_eq_some_iff.mpr isOther] at here
      exact Option.some.inj here ▸ passes
  · intro passes
    obtain ⟨value, isEntry⟩ := Table.mem_keys_iff.mp mem
    have single : [key].Nodup := by simp
    refine List.perm_singleton.mp ((List.perm_ext_iff_of_nodup distinct single).mpr ?_)
    intro other
    rw [kept, List.mem_singleton]
    constructor
    · rintro ⟨p, isOther, test, rfl⟩
      exact (passes p isOther).mp test
    · rintro rfl
      exact ⟨(other, value), isEntry, (passes _ isEntry).mpr rfl, rfl⟩

theorem registration_fields {m : Model} {isVariant : Bool} {name : String} {x : Entity}
    {c : EntityCode} (made : entityCodeOf m isVariant name x = .ok c) :
    c.registration.columns.map Column.field = x.properties.keys := by
  obtain ⟨_, _, fields⟩ := entityCodeOf_eq_ok made
  rw [EntityCode.registration, List.map_map]
  exact (map_eq_map_of_forall₂ (fields.imp fun p field made => made.key_eq.symm)).symm

theorem hasDefinition_of_entityCode {m : Model} {isVariant : Bool} {name : String} {x : Entity}
    {c : EntityCode} {f : ItemFile} (made : entityCodeOf m isVariant name x = .ok c)
    (code : f.code = .entity c) :
    HasDefinition f.source.body ("impl Entity for " ++ name)
      (EntityCode.tableSteps c.registration) := by
  rw [← (entityCodeOf_eq_ok made).1, ItemFile.source, code]
  exact c.hasDefinition_registration

theorem exists_registration {m : Model} {tree : Tree} (run : generate m = .ok tree) {name : String}
    {x : Entity} (found : m.get? name = some (.entity x)) :
    ∃ c, (∃ f ∈ tree.files, f.source.item = name ∧ f.code = .entity c ∧
        HasDefinition f.source.body ("impl Entity for " ++ name)
          (EntityCode.tableSteps c.registration)) ∧
      c.registration.columns.map Column.field = x.properties.keys ∧
      c.registration.primaryKeys =
        ((x.properties.entries.filter (·.2.type = .scalar "ID")).map Prod.fst).map keyColumn := by
  obtain ⟨f, there, named, composed⟩ := exists_code run found
  obtain ⟨c, made, same⟩ := bind_eq_ok.mp composed
  have code : f.code = .entity c := (Except.ok.inj same).symm
  obtain ⟨_, _, fields⟩ := entityCodeOf_eq_ok made
  exact ⟨c, ⟨f, there, named, code, hasDefinition_of_entityCode made code⟩,
    registration_fields made, primaryKeys_of_fields fields⟩

/-- What is registered of an entity: a column for every property, of which those with the
    identifier's type are primary keys and never null. There is always a property under the key of
    the identifier; it is the one primary key exactly if it and no other has that type. -/
structure Registered (text : String) (t : Tree) (name : String) (x : Entity) (c : EntityCode) :
    Prop where
  file : ∃ f ∈ t.files, f.source.item = name ∧ f.code = .entity c ∧
    HasDefinition f.source.body ("impl Entity for " ++ name) (EntityCode.tableSteps c.registration)
  columns : c.registration.columns.map Column.field = x.properties.keys
  primaryKeys : c.registration.primaryKeys =
    ((x.properties.entries.filter (·.2.type = .scalar "ID")).map Prod.fst).map keyColumn
  hasId : "id" ∈ x.properties.keys
  implicitId : ¬ DeclaresId (Xml.Reading.ofText text) name →
    x.properties.get? "id" = some ⟨.scalar "ID", false, none⟩
  single : c.registration.primaryKeys = [keyColumn "id"] ↔
    ∀ p ∈ x.properties.entries, p.2.type = .scalar "ID" ↔ p.1 = "id"

theorem generateText_primaryKeys {text : String} {tree : Tree}
    (run : generateText text = .ok tree) :
    ∃ m, Model.ofText text = .ok m ∧ ∀ name x, m.get? name = some (.entity x) →
      ∃ c, Registered text tree name x c := by
  obtain ⟨m, loaded, run⟩ := generateText_eq_ok run
  refine ⟨m, loaded, fun name x found => ?_⟩
  obtain ⟨c, file, columns, keys⟩ := exists_registration run found
  obtain ⟨hasId, implicitId⟩ := idKey_of_ofText loaded found
  refine ⟨c, file, columns, keys, hasId, implicitId, ?_⟩
  have injective : Function.Injective keyColumn := fun a b same => congrArg Column.field same
  rw [keys]
  exact (injective.list_map.eq_iff (b := ["id"])).trans
    (filter_keys_eq_singleton hasId fun p => p.type = .scalar "ID")

def keyedText : String :=
  "<schema><entity name=\"A\"><property name=\"a\" type=\"A\"/>" ++
  "<property name=\"n\" type=\"Int!\"/></entity></schema>"

def keyedEntity : Entity where
  description := none
  properties := { entries :=
    [("id", idProperty), ("a", ⟨.reference "A", true, none⟩), ("n", ⟨.scalar "Int", false, none⟩)] }

theorem keyedText_registered :
    ∃ tree c, generateText keyedText = .ok tree ∧ Registered keyedText tree "A" keyedEntity c ∧
      c.registration.primaryKeys = [keyColumn "id"] := by
  have loaded : Model.ofText keyedText = .ok ⟨{ entries := [("A", .entity keyedEntity)] }⟩ :=
    eq_ok_of_toOption (by decide +kernel)
  have generates : (generateText keyedText).toOption.isSome = true := by decide +kernel
  obtain ⟨tree, some⟩ := Option.isSome_iff_exists.mp generates
  have run : generateText keyedText = .ok tree := eq_ok_of_toOption some
  obtain ⟨m, same, entities⟩ := generateText_primaryKeys run
  rw [loaded] at same
  cases same
  obtain ⟨c, registered⟩ := entities "A" keyedEntity rfl
  exact ⟨tree, c, run, registered, registered.single.mpr (by decide)⟩

def unkeyedText : String :=
  "<schema><entity name=\"A\"><property name=\"id\" type=\"String!\"/></entity>" ++
  "<entity name=\"B\"><property name=\"key\" type=\"ID!\"/></entity></schema>"

def unkeyedModel : Model where
  items := { entries :=
    [("A", .entity ⟨none, { entries := [("id", ⟨.scalar "String", false, none⟩)] }⟩),
     ("B", .entity ⟨none, { entries :=
       [("id", idProperty), ("key", ⟨.scalar "ID", false, none⟩)] }⟩)] }

theorem unkeyedText_primaryKeys :
    ∃ tree, generateText unkeyedText = .ok tree ∧
      (∃ c, (∃ f ∈ tree.files, f.source.item = "A" ∧ f.code = .entity c) ∧
        c.registration.primaryKeys = []) ∧
      ∃ c, (∃ f ∈ tree.files, f.source.item = "B" ∧ f.code = .entity c) ∧
        c.registration.primaryKeys = [keyColumn "id", keyColumn "key"] := by
  have loaded : Model.ofText unkeyedText = .ok unkeyedModel :=
    eq_ok_of_toOption (by decide +kernel)
  have generates : (generate unkeyedModel).toOption.isSome = true := by decide +kernel
  obtain ⟨tree, result⟩ := Option.isSome_iff_exists.mp generates
  have run : generate unkeyedModel = .ok tree := eq_ok_of_toOption result
  have foundA : unkeyedModel.get? "A" = some (.entity _) := rfl
  have foundB : unkeyedModel.get? "B" = some (.entity _) := rfl
  obtain ⟨without, ⟨f, inA, called, code, _⟩, _, none⟩ := exists_registration run foundA
  obtain ⟨both, ⟨g, inB, named, composed, _⟩, _, two⟩ := exists_registration run foundB
  exact ⟨tree, generateText_of_ofText loaded rfl run, ⟨without, ⟨f, inA, called, code⟩, none⟩,
    both, ⟨g, inB, named, composed⟩, two⟩

end Code

end DataLayer
