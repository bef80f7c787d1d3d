import DataLayer.Proofs.Code.Fields
import DataLayer.Proofs.Code.LinkClosure
import DataLayer.Proofs.Code.Methods
import DataLayer.Proofs.Record.Codecs

/- The discriminator of a variant's record. It is written first, so that it lasts unless a property
   is written under the same key after it. A value object may have no such property, because its
   getter would have the name of a method that every value object has; an entity has no getters, and
   may. The union then reads whatever variant the property names. -/
namespace DataLayer.Code
open Schema Outcome Record Json

def discriminatorLine : String :=
  "pub const DISCRIMINATOR: &str = " ++ Text.quoted discriminatorKey ++ ";"

theorem discriminatorLine_held : [discriminatorLine] <:+: Support.marshalLines := by
  have mem : discriminatorLine ∈ Support.marshalLines := by decide +kernel
  obtain ⟨before, after, split⟩ := List.append_of_mem mem
  exact ⟨before, after, by rw [split, List.append_assoc, List.singleton_append]⟩

def writtenRecord (variant : String) (members : List (String × Value)) : Value :=
  .ofMembers ((discriminatorKey, .string variant) :: members)

/-- The variant as which a union reads a record: the first that the discriminator names. -/
def readAs? (variants : List String) (record : Value) : Option String :=
  variants.find? fun variant => discriminator? record = some variant

theorem member?_writtenRecord (variant : String) (members : List (String × Value)) (key : String) :
    (writtenRecord variant members).member? key =
      (members.foldl (fun all m => insertMember m.1 m.2 all)
        (insertMember discriminatorKey (.string variant) [])).lookup key := rfl

theorem discriminator?_writtenRecord {variant : String} {members : List (String × Value)}
    (absent : discriminatorKey ∉ members.map Prod.fst) :
    discriminator? (writtenRecord variant members) = some variant := by
  rw [discriminator?, member?_writtenRecord, lookup_inserted_of_not_mem absent,
    lookup_insertMember]
  rfl

theorem exists_discriminator?_writtenRecord (variant : String) {members : List (String × Value)}
    (present : discriminatorKey ∈ members.map Prod.fst) :
    ∃ v, (discriminatorKey, v) ∈ members ∧
      discriminator? (writtenRecord variant members) = v.string? := by
  obtain ⟨v, mem, found⟩ := exists_lookup_inserted present
    (insertMember discriminatorKey (.string variant) [])
  refine ⟨v, mem, ?_⟩
  rw [discriminator?, member?_writtenRecord, found]
  rfl

theorem readAs?_of_discriminator? {variants : List String} {variant : String} {record : Value}
    (listed : variant ∈ variants) (named : discriminator? record = some variant) :
    readAs? variants record = some variant := by
  have some : (readAs? variants record).isSome = true :=
    List.find?_isSome.mpr ⟨variant, listed, by simpa using named⟩
  obtain ⟨found, search⟩ := Option.isSome_iff_exists.mp some
  have same : discriminator? record = Option.some found := by
    simpa [readAs?] using List.find?_some search
  rw [named] at same
  cases same
  exact search

/-- A property of the entity is written under the key. Derived relations are not written. -/
def WritesKey (x : Entity) (key : String) : Prop :=
  ∃ p, (key, p) ∈ x.properties.entries ∧ ∀ entity field, p.type ≠ .inverse entity field

theorem recordPartOf_written {owner key : String} {t : PropertyType} {nullable : Bool}
    {part : RecordPart} (made : recordPartOf owner key t nullable = .ok part) :
    (∃ write, part.written = some write) ↔ ∀ entity field, t ≠ .inverse entity field := by
  cases t with
  | reference entity => contradiction
  | inverse entity field =>
    cases made
    exact iff_of_false (by simp) (by simp)
  | scalar _ | enumeration _ | object _ | union _ | list _ _ _ =>
    obtain ⟨read, _, made⟩ := bind_eq_ok.mp made
    obtain ⟨write, _, same⟩ := bind_eq_ok.mp made
    cases pure_eq_ok.mp same
    exact iff_of_true ⟨write, rfl⟩ (by simp)

theorem mem_members_iff {c : EntityCode} {key : String} :
    key ∈ c.members.map Prod.fst ↔
      ∃ f ∈ c.fields, f.key = key ∧ ∃ part, f.part = some part ∧
        ∃ write, part.written = some write := by
  simp only [EntityCode.members, EntityCode.writtenParts, EntityCode.parts, List.map_map,
    List.mem_map, List.mem_filterMap, Function.comp_apply, Option.map_eq_some_iff]
  constructor
  · rintro ⟨_, ⟨_, ⟨f, mem, part, some, rfl⟩, write, written, rfl⟩, rfl⟩
    exact ⟨f, mem, rfl, part, some, write, written⟩
  · rintro ⟨f, mem, rfl, part, some, write, written⟩
    exact ⟨(f, write), ⟨(f, part), ⟨f, mem, part, some, rfl⟩, write, written, rfl⟩, rfl⟩

theorem mem_memberKeys_iff {m : Model} {name key : String} {x : Entity} {c : EntityCode}
    (made : entityCodeOf m true name x = .ok c) :
    key ∈ c.members.map Prod.fst ↔ WritesKey x key := by
  obtain ⟨_, _, fields⟩ := entityCodeOf_eq_ok made
  rw [mem_members_iff]
  constructor
  · rintro ⟨f, mem, rfl, part, some, written⟩
    obtain ⟨⟨key, p⟩, there, binding, _, field⟩ := exists_left_of_mem fields mem
    obtain ⟨rfl, _, parts⟩ := entityFieldOf_eq_ok field
    obtain ⟨own, parted, same⟩ := parts rfl
    rw [some] at same
    cases same
    exact ⟨p, there, (recordPartOf_written parted).mp written⟩
  · rintro ⟨p, there, written⟩
    obtain ⟨f, mem, binding, _, field⟩ := exists_right_of_mem fields there
    obtain ⟨same, _, parts⟩ := entityFieldOf_eq_ok field
    obtain ⟨part, parted, some⟩ := parts rfl
    exact ⟨f, mem, same, part, some, (recordPartOf_written parted).mpr written⟩

theorem not_mem_memberKeys {name : String} {isVariant : Bool} {x : ValueObject} {c : ObjectCode}
    (made : objectCodeOf isVariant name x = .ok c) :
    discriminatorKey ∉ c.members.map Prod.fst := by
  obtain ⟨_, _, fields⟩ := objectCodeOf_eq_ok made
  have reserved : Name.fieldIdent discriminatorKey ∈ reservedMethods := by decide +kernel
  intro present
  obtain ⟨f, mem, key⟩ : ∃ f ∈ c.fields, f.key = discriminatorKey := by
    simpa [ObjectCode.members] using present
  obtain ⟨⟨_, p⟩, _, field⟩ := exists_left_of_mem fields mem
  obtain ⟨rfl, free⟩ := objectFieldOf_eq_ok field
  exact free (key ▸ reserved)

/-- The file of a variant has a method that writes its discriminator and after it these keys. -/
def WritesRecord (t : Tree) (variant : String) (keys : List String) : Prop :=
  ∃ f ∈ t.files, f.source.item = variant ∧
    HasBlock f.source.body ("impl " ++ variant) (variantDefinitions variant) ∧
    ∃ before members, members.map Prod.fst = keys ∧
      HasMethod f.source.body variant toJsonHeader (writingSteps before members)

/-- The file of a union has a function with an arm for each of the variants in their order, and the
    helpers name the key under which it looks for the discriminator. -/
def ReadsVariants (t : Tree) (union : String) (variants : List String) : Prop :=
  Supplies t "marshal" [discriminatorLine] ∧
    ∃ f ∈ t.files, f.source.item = union ∧
      ∃ c : UnionCode, c.name = union ∧ c.variants = variants ∧
        HasDefinition f.source.body c.dispatchHeader c.readingSteps

def Overwrites (m : Model) (variant : String) : Prop :=
  ∃ x, m.get? variant = some (.entity x) ∧ WritesKey x discriminatorKey

/-- How a union over these variants fares with the records of one of them. Unless the variant is an
    entity that overwrites its discriminator, the union reads it from whatever it writes. If it is,
    the union sees the value of its property instead. -/
structure Discriminated (m : Model) (t : Tree) (variants : List String) (variant : String)
    (keys : List String) : Prop where
  written : WritesRecord t variant keys
  overwrites : discriminatorKey ∈ keys ↔ Overwrites m variant
  kept : ¬ Overwrites m variant → ∀ members : List (String × Value),
    members.map Prod.fst = keys →
      discriminator? (writtenRecord variant members) = some variant ∧
      readAs? variants (writtenRecord variant members) = some variant
  lost : Overwrites m variant → ∀ members : List (String × Value),
    members.map Prod.fst = keys →
      ∃ v, (discriminatorKey, v) ∈ members ∧
        discriminator? (writtenRecord variant members) = v.string?

section Generated
variable {m : Model} {tree : Tree} (run : generate m = .ok tree) {name : String}
include run

theorem writesRecord_entity {x : Entity} (found : m.get? name = some (.entity x))
    (isVariant : m.IsVariant name) :
    ∃ c, entityCodeOf m true name x = .ok c ∧
      WritesRecord tree name (c.members.map Prod.fst) := by
  obtain ⟨f, there, named, c, isCode, made⟩ := exists_entityCode run found isVariant
  obtain ⟨rfl, variant, _⟩ := entityCodeOf_eq_ok made
  have body : f.source.body = emitted c.body := by rw [ItemFile.source, isCode, ItemCode.body]
  refine ⟨c, made, f, there, named, ?_, [.line c.destructuring], c.members, rfl, ?_⟩
  · rw [body]
    exact EntityCode.hasBlock_body variant
  · rw [body]
    exact EntityCode.hasMethod_toJson variant

theorem writesRecord_object {x : ValueObject} (found : m.get? name = some (.object x))
    (isVariant : m.IsVariant name) :
    ∃ c, objectCodeOf true name x = .ok c ∧ WritesRecord tree name (c.members.map Prod.fst) := by
  obtain ⟨f, there, named, c, isCode, made⟩ := exists_objectCode run found isVariant
  obtain ⟨rfl, variant, _⟩ := objectCodeOf_eq_ok made
  have body : f.source.body = emitted c.body := by rw [ItemFile.source, isCode, ItemCode.body]
  refine ⟨c, made, f, there, named, ?_, [], c.members, rfl, ?_⟩
  · rw [body]
    exact ObjectCode.hasBlock_body variant
  · rw [body]
    exact ObjectCode.hasMethod_toJson variant

theorem readsVariants {u : Union} (found : m.get? name = some (.union u)) :
    ReadsVariants tree name u.variants ∧ ∀ variant ∈ u.variants, m.HasShape variant := by
  obtain ⟨f, there, named, composed⟩ := exists_code run found
  obtain ⟨c, made, same⟩ := bind_eq_ok.mp composed
  obtain ⟨_, checked, pack⟩ := bind_eq_ok.mp made
  cases pure_eq_ok.mp pack
  have body : f.source.body = emitted (UnionCode.body ⟨name, u.description, u.variants⟩) := by
    rw [ItemFile.source, ← Except.ok.inj same, ItemCode.body]
  refine ⟨⟨supplies_of_union run found discriminatorLine_held, f, there, named, _, rfl, rfl,
    body ▸ UnionCode.hasDefinition_dispatch _⟩, ?_⟩
  intro variant listed
  exact checkVariant_eq_ok.mp (forM_eq_ok.mp checked variant listed)

theorem exists_writesRecord (isVariant : m.IsVariant name) (shaped : m.HasShape name) :
    ∃ keys, WritesRecord tree name keys ∧ (discriminatorKey ∈ keys ↔ Overwrites m name) := by
  obtain ⟨item, found, kind⟩ := hasShape_iff.mp shaped
  cases item with
  | entity x =>
    obtain ⟨c, made, writes⟩ := writesRecord_entity run found isVariant
    refine ⟨_, writes, (mem_memberKeys_iff made).trans ?_⟩
    constructor
    · intro written
      exact ⟨x, found, written⟩
    · rintro ⟨y, same, written⟩
      rw [found] at same
      cases same
      exact written
  | object x =>
    obtain ⟨c, made, writes⟩ := writesRecord_object run found isVariant
    refine ⟨_, writes, iff_of_false (not_mem_memberKeys made) ?_⟩
    rintro ⟨y, same, _⟩
    rw [found] at same
    cases same
  | union u => simp [Item.kind] at kind
  | enumeration e => simp [Item.kind] at kind

theorem exists_discriminated {u : Union} (found : m.get? name = some (.union u))
    {variant : String} (listed : variant ∈ u.variants) :
    ∃ keys, Discriminated m tree u.variants variant keys := by
  have shaped := (readsVariants run found).2 variant listed
  obtain ⟨keys, writes, overwrites⟩ := exists_writesRecord run ⟨name, u, found, listed⟩ shaped
  refine ⟨keys, writes, overwrites, ?_, ?_⟩
  · intro kept members sameKeys
    have absent : discriminatorKey ∉ members.map Prod.fst := by rwa [sameKeys, overwrites]
    have survives : discriminator? (writtenRecord variant members) = some variant :=
      discriminator?_writtenRecord absent
    exact ⟨survives, readAs?_of_discriminator? listed survives⟩
  · intro lost members sameKeys
    have present : discriminatorKey ∈ members.map Prod.fst := by rwa [sameKeys, overwrites]
    exact exists_discriminator?_writtenRecord variant present

end Generated

/-- A union reads back each of its variants, and only an entity with a written property under the
    key of the discriminator can be read as something else. -/
theorem generateText_discriminated {text : String} {tree : Tree}
    (run : generateText text = .ok tree) :
    ∃ m, Model.ofText text = .ok m ∧ ∀ union u, m.get? union = some (.union u) →
      ReadsVariants tree union u.variants ∧
      ∀ variant ∈ u.variants, ∃ keys, Discriminated m tree u.variants variant keys := by
  obtain ⟨m, loaded, run⟩ := generateText_eq_ok run
  refine ⟨m, loaded, fun union u found => ⟨(readsVariants run found).1, ?_⟩⟩
  intro variant listed
  exact exists_discriminated run found listed

def derivedKeyText : String :=
  "<schema><entity name=\"A\">" ++
  "<property name=\"isTypeOf\" type=\"[A]\" derivedFrom=\"a\"/></entity><object name=\"B\"/>" ++
  "<union name=\"U\"><variant name=\"A\"/><variant name=\"B\"/></union></schema>"

def derivedKeyModel : Model where
  items := { entries :=
    [("A", .entity ⟨none, { entries :=
       [("id", ⟨.scalar "ID", false, none⟩), ("isTypeOf", ⟨.inverse "A" "a", true, none⟩)] }⟩),
     ("B", .object ⟨none, .empty⟩), ("U", .union ⟨none, ["A", "B"]⟩)] }

theorem derivedKeyText_discriminated :
    ∃ tree, generateText derivedKeyText = .ok tree ∧ ReadsVariants tree "U" ["A", "B"] ∧
      (∃ keys, Discriminated derivedKeyModel tree ["A", "B"] "A" keys) ∧
      ∃ keys, Discriminated derivedKeyModel tree ["A", "B"] "B" keys := by
  have loaded : Model.ofText derivedKeyText = .ok derivedKeyModel :=
    eq_ok_of_toOption (by decide +kernel)
  have generates : (generate derivedKeyModel).toOption.isSome = true := by decide +kernel
  obtain ⟨tree, some⟩ := Option.isSome_iff_exists.mp generates
  have run : generateText derivedKeyText = .ok tree :=
    generateText_of_ofText loaded (eq_ok_of_toOption (by decide +kernel)) (eq_ok_of_toOption some)
  obtain ⟨m, same, unions⟩ := generateText_discriminated run
  rw [loaded] at same
  cases same
  obtain ⟨reads, variants⟩ := unions "U" ⟨none, ["A", "B"]⟩ rfl
  exact ⟨tree, run, reads, variants "A" (by simp), variants "B" (by simp)⟩

def overwritingText : String :=
  "<schema><entity name=\"A\"><property name=\"isTypeOf\" type=\"String\"/></entity>" ++
  "<union name=\"U\"><variant name=\"A\"/></union></schema>"

def overwritingEntity : Entity where
  description := none
  properties := { entries :=
    [("id", ⟨.scalar "ID", false, none⟩), ("isTypeOf", ⟨.scalar "String", true, none⟩)] }

def overwritingModel : Model where
  items := { entries :=
    [("A", .entity overwritingEntity), ("U", .union ⟨none, ["A"]⟩)] }

theorem overwritingText_overwrites :
    Model.ofText overwritingText = .ok overwritingModel ∧
      overwritingModel.get? "U" = some (.union ⟨none, ["A"]⟩) ∧
      ∃ tree, generateText overwritingText = .ok tree ∧
        WritesRecord tree "A" ["id", "isTypeOf"] ∧
        ∃ members : List (String × Value), members.map Prod.fst = ["id", "isTypeOf"] ∧
          discriminator? (writtenRecord "A" members) = some "B" ∧
          readAs? ["A"] (writtenRecord "A" members) = none := by
  have loaded : Model.ofText overwritingText = .ok overwritingModel :=
    eq_ok_of_toOption (by decide +kernel)
  have generates : (generate overwritingModel).toOption.isSome = true := by decide +kernel
  obtain ⟨tree, result⟩ := Option.isSome_iff_exists.mp generates
  have run : generate overwritingModel = .ok tree := eq_ok_of_toOption result
  refine ⟨loaded, rfl, tree,
    generateText_of_ofText loaded (eq_ok_of_toOption (by decide +kernel)) run, ?_,
    [("id", .string "1"), ("isTypeOf", .string "B")], rfl, by decide +kernel, by decide +kernel⟩
  have isVariant : overwritingModel.IsVariant "A" := ⟨"U", ⟨none, ["A"]⟩, rfl, by simp⟩
  have found : overwritingModel.get? "A" = some (.entity overwritingEntity) := rfl
  obtain ⟨c, made, writes⟩ := writesRecord_entity run found isVariant
  have keys : (entityCodeOf overwritingModel true "A" overwritingEntity).map
      (·.members.map Prod.fst) = .ok ["id", "isTypeOf"] := eq_ok_of_toOption (by decide +kernel)
  rw [made] at keys
  exact Except.ok.inj keys ▸ writes

end DataLayer.Code
