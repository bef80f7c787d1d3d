import Mathlib.Data.Finset.Card
import Mathlib.Logic.Relation
import DataLayer.Proofs.Code.Fields
import DataLayer.Proofs.Code.LinkClosure

/- Which generated types hold which. A field holds the type of its property as it is, unless this is
   a list or the property of an entity that refers to an entity, whose type is boxed. Types have a
   finite size exactly if none holds itself, and as nothing but a union holds an entity, it is value
   objects and unions that decide. -/
namespace DataLayer.Schema

def PropertyType.embedded? : PropertyType → Option String
  | .enumeration name | .object name | .union name => some name
  | .scalar _ | .reference _ | .inverse _ _ | .list _ _ _ => none

def Item.Embeds : Item → String → Prop
  | .entity x, name => ∃ p ∈ x.properties.entries, p.2.type.embedded? = some name
  | .object x, name => ∃ p ∈ x.properties.entries, p.2.type.embedded? = some name
  | .union u, name => name ∈ u.variants
  | .enumeration _, _ => False

namespace Model

def Contains (m : Model) (a b : String) : Prop := ∃ item, m.get? a = some item ∧ item.Embeds b

def Recursive (m : Model) (a : String) : Prop := Relation.TransGen m.Contains a a

/-- Every type is larger than each type that it holds. -/
def Measures (m : Model) (size : String → Nat) : Prop := ∀ a b, m.Contains a b → size b < size a

variable {m : Model}

theorem mem_names_of_contains {a b : String} (contains : m.Contains a b) : a ∈ m.names := by
  obtain ⟨item, found, _⟩ := contains
  exact mem_names_iff.mpr ⟨item, found⟩

theorem mem_names_of_recursive {a : String} (recursive : m.Recursive a) : a ∈ m.names := by
  obtain ⟨b, contains, _⟩ := Relation.TransGen.head'_iff.mp recursive
  exact mem_names_of_contains contains

theorem not_recursive_of_measures {size : String → Nat} (measures : m.Measures size) (a : String) :
    ¬ m.Recursive a := by
  have smaller : ∀ b, Relation.TransGen m.Contains a b → size b < size a := by
    intro b reached
    induction reached with
    | single contains => exact measures _ _ contains
    | tail _ contains ih => exact (measures _ _ contains).trans ih
  intro recursive
  exact Nat.lt_irrefl _ (smaller a recursive)

open Classical in
noncomputable def reached (m : Model) (a : String) : Finset String :=
  m.names.toFinset.filter fun b => Relation.ReflTransGen m.Contains a b

theorem mem_reached {a b : String} :
    b ∈ m.reached a ↔ b ∈ m.names ∧ Relation.ReflTransGen m.Contains a b := by
  classical
  simp only [reached, Finset.mem_filter, List.mem_toFinset]

theorem measures_of_not_recursive (finite : ∀ a, ¬ m.Recursive a) :
    m.Measures fun a => (m.reached a).card := by
  intro a b contains
  -- Whatever is reached from what is held is reached, and the holder itself only from outside.
  refine Finset.card_lt_card (Finset.ssubset_iff_subset_ne.mpr ⟨?_, ?_⟩)
  · intro c mem
    obtain ⟨known, onward⟩ := mem_reached.mp mem
    exact mem_reached.mpr ⟨known, .head contains onward⟩
  · intro same
    have here : a ∈ m.reached a := mem_reached.mpr ⟨mem_names_of_contains contains, .refl⟩
    rw [← same] at here
    exact finite a (.head' contains (mem_reached.mp here).2)

theorem exists_measures_iff : (∃ size, m.Measures size) ↔ ∀ a, ¬ m.Recursive a := by
  constructor
  · rintro ⟨size, measures⟩
    exact not_recursive_of_measures measures
  · intro finite
    exact ⟨_, measures_of_not_recursive finite⟩

end Model

theorem kind_of_embedded? {m : Model} {t : PropertyType} {name : String}
    (resolves : m.Resolves t) (embedded : t.embedded? = some name) :
    ∃ kind, m.kind? name = some kind ∧ kind ≠ .entity := by
  cases t with
  | enumeration _ | object _ | union _ =>
    cases embedded
    exact ⟨_, resolves, by simp⟩
  | scalar _ | reference _ | inverse _ _ | list _ _ _ => contradiction

theorem union_of_contains {text : String} {m : Model} (loaded : Model.ofText text = .ok m)
    {a b : String} (contains : m.Contains a b) (isEntity : m.kind? b = some .entity) :
    m.kind? a = some .union := by
  obtain ⟨item, found, embeds⟩ := contains
  have mem := Table.get?_eq_some_iff.mp found
  have other : ∀ p : String × Property, m.Resolves p.2.type ∨ p.2 = idProperty →
      p.2.type.embedded? ≠ some b := by
    intro p resolves embedded
    rcases resolves with resolves | isId
    · obtain ⟨kind, known, differs⟩ := kind_of_embedded? resolves embedded
      rw [isEntity] at known
      exact differs (Option.some.inj known).symm
    · rw [isId] at embedded
      contradiction
  cases item with
  | entity x =>
    obtain ⟨p, isProperty, embedded⟩ := embeds
    exact absurd embedded (other p (entity_resolves loaded mem p isProperty))
  | object x =>
    obtain ⟨p, isProperty, embedded⟩ := embeds
    exact absurd embedded (other p (.inl (object_resolves loaded mem p isProperty)))
  | union u => simp [Model.kind?, found, Item.kind]
  | enumeration e => contradiction

/-- An item that holds itself holds, on the way, a value object or a union that does. -/
theorem exists_recursive {text : String} {m : Model} (loaded : Model.ofText text = .ok m)
    {a : String} (recursive : m.Recursive a) :
    ∃ b, (m.kind? b = some .object ∨ m.kind? b = some .union) ∧ m.Recursive b := by
  obtain ⟨item, found⟩ := Model.mem_names_iff.mp (Model.mem_names_of_recursive recursive)
  cases item with
  | entity x =>
    have isEntity : m.kind? a = some .entity := by simp [Model.kind?, found, Item.kind]
    obtain ⟨b, around, contains⟩ := Relation.TransGen.tail'_iff.mp recursive
    exact ⟨b, .inr (union_of_contains loaded contains isEntity), .head' contains around⟩
  | object x => exact ⟨a, .inl (by simp [Model.kind?, found, Item.kind]), recursive⟩
  | union u => exact ⟨a, .inr (by simp [Model.kind?, found, Item.kind]), recursive⟩
  | enumeration e =>
    obtain ⟨b, ⟨other, same, embeds⟩, _⟩ := Relation.TransGen.head'_iff.mp recursive
    rw [found] at same
    cases same
    contradiction

end DataLayer.Schema

namespace DataLayer.Code
open Schema Outcome

def CodeType.inline? : CodeType → Option String
  | .named name => some name
  | .optional t => t.inline?
  | .boxed _ | .vector _ => none

theorem inline?_orNull (t : CodeType) (nullable : Bool) :
    (t.orNull nullable).inline? = t.inline? := by
  cases nullable with
  | true => rfl
  | false => rfl

def ItemCode.Holds : ItemCode → String → Prop
  | .entity c, name => ∃ f ∈ c.fields, f.type.inline? = some name
  | .object c, name => ∃ f ∈ c.fields, f.type.inline? = some name
  | .union c, name => name ∈ c.variants
  | .enumeration _, _ => False

/-- The type of a property holds the type of the item that is embedded, or else that of a scalar. -/
theorem inline?_of_typeOf {holder : Holder} {t : PropertyType} {nullable : Bool} {type : CodeType}
    (typed : typeOf holder t nullable = .ok type) (name : String) :
    (t.embedded? = some name → type.inline? = some name) ∧
      (type.inline? = some name → t.embedded? = some name ∨ ∃ s, scalarType s = .named name) := by
  cases t with
  | enumeration _ | object _ | union _ =>
    cases typed
    rw [inline?_orNull]
    exact ⟨id, .inl⟩
  | scalar _ =>
    obtain ⟨s, _, same⟩ := bind_eq_ok.mp typed
    cases pure_eq_ok.mp same
    rw [inline?_orNull]
    refine ⟨fun none => by contradiction, fun inline => .inr ⟨s, ?_⟩⟩
    cases s <;> cases inline <;> rfl
  | reference _ =>
    cases holder with
    | entity =>
      cases typed
      rw [inline?_orNull]
      exact ⟨fun none => by contradiction, fun none => by contradiction⟩
    | object =>
      cases typed
      rw [inline?_orNull]
      refine ⟨fun none => by contradiction, fun inline => .inr ⟨.string, ?_⟩⟩
      cases inline
      rfl
  | inverse _ _ =>
    cases typed
    rw [inline?_orNull]
    exact ⟨fun none => by contradiction, fun none => by contradiction⟩
  | list _ _ _ =>
    obtain ⟨item, _, same⟩ := bind_eq_ok.mp typed
    cases pure_eq_ok.mp same
    rw [inline?_orNull]
    exact ⟨fun none => by contradiction, fun none => by contradiction⟩

theorem type_of_objectFieldOf {owner key : String} {p : Property} {f : ObjectField}
    (run : objectFieldOf owner key p = .ok f) : typeOf .object p.type false = .ok f.type := by
  obtain ⟨type, typed, run⟩ := bind_eq_ok.mp run
  obtain ⟨read, _, run⟩ := bind_eq_ok.mp run
  obtain ⟨write, _, same⟩ := bind_eq_ok.mp run
  cases pure_eq_ok.mp same
  unfold objectFieldType at typed
  split at typed
  · contradiction
  · exact typed

/-- The code holds what the item embeds and nothing else, the types of scalars apart. -/
def ItemCode.Follows (c : ItemCode) (item : Item) : Prop := ∀ name,
  (item.Embeds name → c.Holds name) ∧
    (c.Holds name → item.Embeds name ∨ ∃ s, scalarType s = .named name)

section Fields
variable {φ : Type} {type : φ → CodeType} {properties : List (String × Property)} {fields : List φ}
  {holder : Holder} {nullable : String × Property → φ → Bool}
  (typed : List.Forall₂ (fun p f => typeOf holder p.2.type (nullable p f) = .ok (type f)) properties
    fields)
include typed

theorem fields_follow (name : String) :
    ((∃ p ∈ properties, p.2.type.embedded? = some name) →
        ∃ f ∈ fields, (type f).inline? = some name) ∧
      ((∃ f ∈ fields, (type f).inline? = some name) →
        (∃ p ∈ properties, p.2.type.embedded? = some name) ∨ ∃ s, scalarType s = .named name) := by
  constructor
  · rintro ⟨p, mem, embedded⟩
    obtain ⟨f, there, made⟩ := exists_right_of_mem typed mem
    exact ⟨f, there, (inline?_of_typeOf made name).1 embedded⟩
  · rintro ⟨f, mem, inline⟩
    obtain ⟨p, there, made⟩ := exists_left_of_mem typed mem
    exact ((inline?_of_typeOf made name).2 inline).imp_left fun embedded => ⟨p, there, embedded⟩

end Fields

theorem itemCodeOf_follows {m : Model} {variants : List String} {name : String} {item : Item}
    {c : ItemCode} (run : itemCodeOf m variants name item = .ok c) : c.Follows item := by
  cases item with
  | entity x =>
    obtain ⟨code, made, same⟩ := bind_eq_ok.mp run
    cases pure_eq_ok.mp same
    obtain ⟨_, _, fields⟩ := entityCodeOf_eq_ok made
    have typed : List.Forall₂ (fun p f => typeOf .entity p.2.type f.binding.nullable = .ok f.type)
        x.properties.entries code.fields := by
      refine fields.imp fun p f made => ?_
      obtain ⟨binding, _, run⟩ := made
      rw [(entityFieldOf_binding run).2]
      exact (entityFieldOf_eq_ok run).2.1
    exact fields_follow typed
  | object x =>
    obtain ⟨code, made, same⟩ := bind_eq_ok.mp run
    cases pure_eq_ok.mp same
    obtain ⟨_, _, fields⟩ := objectCodeOf_eq_ok made
    exact fields_follow (fields.imp fun p f made => type_of_objectFieldOf made)
  | union u =>
    obtain ⟨code, made, same⟩ := bind_eq_ok.mp run
    cases pure_eq_ok.mp same
    obtain ⟨_, _, same⟩ := bind_eq_ok.mp made
    cases pure_eq_ok.mp same
    exact fun other => ⟨id, .inl⟩
  | enumeration e =>
    obtain ⟨code, _, same⟩ := bind_eq_ok.mp run
    cases pure_eq_ok.mp same
    exact fun other => ⟨id, .inl⟩

/-- The types of a tree hold what the items of its model embed. They can be given sizes exactly if
    none holds itself, which is so exactly if no value object and no union does. -/
theorem generateText_finite {text : String} {tree : Tree} (run : generateText text = .ok tree) :
    ∃ m, Model.ofText text = .ok m ∧
      (∀ name item, m.get? name = some item →
        ∃ f ∈ tree.files, f.source.item = name ∧ f.code.Follows item) ∧
      ((∃ size, m.Measures size) ↔ ∀ a, ¬ m.Recursive a) ∧
      ((∀ a, ¬ m.Recursive a) ↔
        ∀ a, m.kind? a = some .object ∨ m.kind? a = some .union → ¬ m.Recursive a) := by
  obtain ⟨m, loaded, run⟩ := generateText_eq_ok run
  refine ⟨m, loaded, fun name item found => ?_, Model.exists_measures_iff, ?_, ?_⟩
  · obtain ⟨f, there, named, composed⟩ := exists_code run found
    exact ⟨f, there, named, itemCodeOf_follows composed⟩
  · intro finite a _
    exact finite a
  · intro finite a recursive
    obtain ⟨b, kind, again⟩ := exists_recursive loaded recursive
    exact finite b kind again

def layeredText : String :=
  "<schema><entity name=\"A\"><property name=\"next\" type=\"A\"/>" ++
  "<property name=\"u\" type=\"U\"/></entity>" ++
  "<object name=\"O\"><property name=\"os\" type=\"[O!]!\"/></object>" ++
  "<union name=\"U\"><variant name=\"O\"/></union></schema>"

def layeredEntity : Entity where
  description := none
  properties := { entries :=
    [("id", idProperty), ("next", ⟨.reference "A", true, none⟩), ("u", ⟨.union "U", true, none⟩)] }

def layeredModel : Model where
  items := { entries :=
    [("A", .entity layeredEntity),
     ("O", .object ⟨none, { entries :=
       [("os", ⟨.list (.object "O") false none, false, none⟩)] }⟩),
     ("U", .union ⟨none, ["O"]⟩)] }

def layeredSize (name : String) : Nat := if name = "A" then 2 else if name = "U" then 1 else 0

theorem layeredModel_measures : layeredModel.Measures layeredSize := by
  rintro a b ⟨item, found, embeds⟩
  have mem := Table.get?_eq_some_iff.mp found
  simp only [layeredModel, List.mem_cons, Prod.mk.injEq, List.not_mem_nil, or_false] at mem
  rcases mem with ⟨rfl, rfl⟩ | ⟨rfl, rfl⟩ | ⟨rfl, rfl⟩
  · obtain ⟨p, isProperty, embedded⟩ := embeds
    simp only [layeredEntity, List.mem_cons, List.not_mem_nil, or_false] at isProperty
    rcases isProperty with rfl | rfl | rfl <;> cases embedded
    decide
  · obtain ⟨p, isProperty, embedded⟩ := embeds
    cases List.mem_singleton.mp isProperty
    cases embedded
  · cases List.mem_singleton.mp embeds
    decide

theorem layeredText_finite :
    ∃ tree, generateText layeredText = .ok tree ∧ ∃ m, Model.ofText layeredText = .ok m ∧
      (∃ f ∈ tree.files, f.source.item = "A" ∧ f.code.Holds "U") ∧ ∀ a, ¬ m.Recursive a := by
  have loaded : Model.ofText layeredText = .ok layeredModel :=
    eq_ok_of_toOption (by decide +kernel)
  have generates : (generate layeredModel).toOption.isSome = true := by decide +kernel
  obtain ⟨tree, given⟩ := Option.isSome_iff_exists.mp generates
  have run : generateText layeredText = .ok tree :=
    generateText_of_ofText loaded (eq_ok_of_toOption (by decide +kernel)) (eq_ok_of_toOption given)
  obtain ⟨m, same, follows, sizes, _⟩ := generateText_finite run
  rw [loaded] at same
  cases same
  obtain ⟨f, there, named, holds⟩ := follows "A" (.entity layeredEntity) rfl
  have embeds : (Item.entity layeredEntity).Embeds "U" :=
    ⟨("u", ⟨.union "U", true, none⟩), by simp [layeredEntity], rfl⟩
  exact ⟨tree, run, _, loaded, ⟨f, there, named, (holds "U").1 embeds⟩,
    sizes.mp ⟨_, layeredModel_measures⟩⟩

def selfHeldText : String :=
  "<schema><object name=\"A\"><property name=\"a\" type=\"A\"/></object></schema>"

def unionHeldText : String :=
  "<schema><entity name=\"E\"><property name=\"u\" type=\"U!\"/></entity>" ++
  "<union name=\"U\"><variant name=\"E\"/></union></schema>"

def unionHeldModel : Model where
  items := { entries :=
    [("E", .entity ⟨none, { entries :=
       [("id", idProperty), ("u", ⟨.union "U", false, none⟩)] }⟩),
     ("U", .union ⟨none, ["E"]⟩)] }

theorem recursive_types_generated :
    (∃ tree m, generateText selfHeldText = .ok tree ∧ Model.ofText selfHeldText = .ok m ∧
      m.Recursive "A" ∧ ∃ f ∈ tree.files, f.source.item = "A" ∧
        "    a: Option<A>," ∈ f.source.body) ∧
    ∃ tree m, generateText unionHeldText = .ok tree ∧ Model.ofText unionHeldText = .ok m ∧
      m.Recursive "E" ∧ ∃ f ∈ tree.files, f.source.item = "E" ∧
        "    pub u: U," ∈ f.source.body := by
  constructor
  · have loaded : Model.ofText selfHeldText = .ok ⟨{ entries :=
        [("A", .object ⟨none, { entries := [("a", ⟨.object "A", true, none⟩)] }⟩)] }⟩ :=
      eq_ok_of_toOption (by decide +kernel)
    have generates : ((generateText selfHeldText).toOption.any fun tree =>
        tree.files.any fun f => decide (f.source.item = "A" ∧
          "    a: Option<A>," ∈ f.source.body)) = true := by decide +kernel
    obtain ⟨tree, given, shown⟩ := (Option.any_eq_true _ _).mp generates
    obtain ⟨f, mem, declared⟩ := List.any_eq_true.mp shown
    refine ⟨tree, _, eq_ok_of_toOption given, loaded, .single ⟨_, rfl, ?_⟩, f, mem,
      of_decide_eq_true declared⟩
    exact ⟨("a", ⟨.object "A", true, none⟩), List.mem_cons_self, rfl⟩
  · have loaded : Model.ofText unionHeldText = .ok unionHeldModel :=
      eq_ok_of_toOption (by decide +kernel)
    have generates : ((generateText unionHeldText).toOption.any fun tree =>
        tree.files.any fun f => decide (f.source.item = "E" ∧
          "    pub u: U," ∈ f.source.body)) = true := by decide +kernel
    obtain ⟨tree, given, shown⟩ := (Option.any_eq_true _ _).mp generates
    obtain ⟨f, mem, declared⟩ := List.any_eq_true.mp shown
    have held : unionHeldModel.Contains "E" "U" :=
      ⟨_, rfl, ("u", ⟨.union "U", false, none⟩), by simp, rfl⟩
    have listed : unionHeldModel.Contains "U" "E" := ⟨_, rfl, List.mem_cons_self⟩
    exact ⟨tree, _, eq_ok_of_toOption given, loaded, .head held (.single listed), f, mem,
      of_decide_eq_true declared⟩

end DataLayer.Code
