import DataLayer.Proofs.Schema.Documents
import DataLayer.Proofs.Schema.Reordering

/- A document loses nothing when it is loaded. The model has the items that were written, in their
   order, and each says what its declaration says: names in types mean the items of these names, the
   one property that comes in addition is the identifier of an entity without one. -/
namespace DataLayer.Schema
open Outcome

/-- What an expression says of a type among the items, its own nullability apart. -/
inductive Denotes (items : List (String × Declaration)) : TypeExpr → PropertyType → Prop
  | scalar {name : String} (nullable : Bool) (undeclared : name ∉ items.map Prod.fst) :
      Denotes items (.named name nullable) (.scalar name)
  | reference {name : String} (nullable : Bool) (declared : IsDeclared items name .entity) :
      Denotes items (.named name nullable) (.reference name)
  | object {name : String} (nullable : Bool) (declared : IsDeclared items name .object) :
      Denotes items (.named name nullable) (.object name)
  | union {name : String} (nullable : Bool) (declared : IsDeclared items name .union) :
      Denotes items (.named name nullable) (.union name)
  | enumeration {name : String} (nullable : Bool) (declared : IsDeclared items name .enumeration) :
      Denotes items (.named name nullable) (.enumeration name)
  | list {item : TypeExpr} {type : PropertyType} (nullable : Bool)
      (inner : Denotes items item type) :
      Denotes items (.list item nullable) (.list type item.nullable none)

structure CarriesProperty (items : List (String × Declaration)) (d : PropertyDeclaration)
    (p : String × Property) : Prop where
  name : p.1 = d.name
  nullable : p.2.nullable = d.type.nullable
  description : p.2.description = d.description
  type : d.derivedFrom = none → Denotes items d.type p.2.type
  derived : ∀ field, d.derivedFrom = some field → ∃ entity item nullable,
    d.type = .list (.named entity item) nullable ∧ IsDeclared items entity .entity ∧
      p.2.type = .inverse entity field

/-- An item of the model is as it was declared, with an identifier before all else if it is an
    entity without one. -/
def CarriesItem (items : List (String × Declaration)) : Declaration → Item → Prop
  | .entity description properties, .entity x =>
      x.description = description ∧ ∃ own,
        List.Forall₂ (CarriesProperty items) properties own ∧
        x.properties.entries = if "id" ∈ properties.map PropertyDeclaration.name then own
          else ("id", ⟨.scalar "ID", false, none⟩) :: own
  | .object description properties, .object x =>
      x.description = description ∧
        List.Forall₂ (CarriesProperty items) properties x.properties.entries
  | .union u, .union x => x = u
  | .enumeration e, .enumeration x => x = e
  | _, _ => False

def Carries (items : List (String × Declaration)) (m : Model) : Prop :=
  List.Forall₂ (fun e i => i.1 = e.1 ∧ CarriesItem items e.2 i.2) items m.items.entries

section Kinds
variable {t : Table Declaration}

theorem kind_eq_some_iff {name : String} {kind : ItemKind} :
    (t.map Declaration.kind).get? name = some kind ↔ IsDeclared t.entries name kind := by
  simp only [Table.get?_map, Option.map_eq_some_iff, Table.get?_eq_some_iff, IsDeclared]

theorem kind_eq_none_iff {name : String} :
    (t.map Declaration.kind).get? name = none ↔ name ∉ t.entries.map Prod.fst := by
  rw [Table.get?_map, Option.map_eq_none_iff, Table.get?_eq_none_iff, Table.keys]

theorem denotes_resolve (e : TypeExpr) :
    Denotes t.entries e (e.resolve (t.map Declaration.kind)) := by
  induction e with
  | named name nullable =>
    rw [TypeExpr.resolve, namedType]
    split <;> rename_i found
    · exact .reference nullable (kind_eq_some_iff.mp found)
    · exact .object nullable (kind_eq_some_iff.mp found)
    · exact .union nullable (kind_eq_some_iff.mp found)
    · exact .enumeration nullable (kind_eq_some_iff.mp found)
    · exact .scalar nullable (kind_eq_none_iff.mp found)
  | list item nullable ih => exact .list nullable ih

theorem relatedEntity?_eq_some {e : TypeExpr} {entity : String}
    (related : e.relatedEntity? (t.map Declaration.kind) = some entity) :
    ∃ item nullable, e = .list (.named entity item) nullable ∧
      IsDeclared t.entries entity .entity := by
  unfold TypeExpr.relatedEntity? at related
  split at related
  · split at related
    · rename_i found
      cases related
      exact ⟨_, _, rfl, kind_eq_some_iff.mp found⟩
    · contradiction
  · contradiction

theorem carriesProperty_of_resolve {d : PropertyDeclaration} {p : String × Property}
    (named : p.1 = d.name) (run : d.resolve (t.map Declaration.kind) = .ok p.2) :
    CarriesProperty t.entries d p := by
  obtain ⟨name, property⟩ := p
  unfold PropertyDeclaration.resolve at run
  split at run
  · rename_i plain
    cases run
    refine ⟨named, rfl, rfl, fun _ => denotes_resolve d.type, fun field derived => ?_⟩
    rw [plain] at derived
    contradiction
  · rename_i field derived
    split at run
    · rename_i entity related
      cases run
      obtain ⟨item, nullable, type, declared⟩ := relatedEntity?_eq_some related
      refine ⟨named, rfl, rfl, fun plain => ?_, fun other same => ?_⟩
      · rw [plain] at derived
        contradiction
      · rw [derived] at same
        cases same
        exact ⟨entity, item, nullable, type, declared, rfl⟩
    · contradiction

theorem carries_of_resolveProperties {owner : String} {declared : List PropertyDeclaration}
    {properties : Table Property}
    (run : resolveProperties (t.map Declaration.kind) owner declared = .ok properties) :
    List.Forall₂ (CarriesProperty t.entries) declared properties.entries :=
  (resolveProperties_eq_ok run).imp fun _ _ each => carriesProperty_of_resolve each.1 each.2

theorem carriesItem_of_resolve {name : String} {d : Declaration} {item : Item}
    (run : d.resolve (t.map Declaration.kind) name = .ok item) :
    CarriesItem t.entries d item := by
  cases d with
  | entity description declared =>
    obtain ⟨properties, resolved, same⟩ := bind_eq_ok.mp run
    cases pure_eq_ok.mp same
    refine ⟨rfl, properties.entries, carries_of_resolveProperties resolved, ?_⟩
    have keys := keys_of_resolveProperties resolved
    have first := properties.entries_insertFirst idKey idProperty
    split
    · rename_i present
      rw [first.1 (keys ▸ present)]
    · rename_i absent
      rw [first.2 (keys ▸ absent)]
      rfl
  | object description declared =>
    obtain ⟨properties, resolved, same⟩ := bind_eq_ok.mp run
    cases pure_eq_ok.mp same
    exact ⟨rfl, carries_of_resolveProperties resolved⟩
  | union u =>
    cases pure_eq_ok.mp run
    rfl
  | enumeration e =>
    cases pure_eq_ok.mp run
    rfl

theorem carries_of_resolveAll {m : Model} (run : resolveAll t = .ok m) : Carries t.entries m :=
  (resolveAll_eq_ok run).imp fun _ _ each => ⟨each.1, carriesItem_of_resolve each.2⟩

end Kinds

theorem resolveProperties_succeeds {kinds : Table ItemKind} {owner : String}
    {declared : List PropertyDeclaration}
    (distinct : (declared.map PropertyDeclaration.name).Nodup)
    (each : ∀ d ∈ declared, Succeeds (d.resolve kinds)) :
    Succeeds (resolveProperties kinds owner declared) := by
  have start : ((Table.empty : Table Property).keys ++
      declared.map PropertyDeclaration.name).Nodup := distinct
  refine (foldlM_reaches (fun (known : Table Property) rest =>
    (known.keys ++ rest.map PropertyDeclaration.name).Nodup ∧
      ∀ d ∈ rest, Succeeds (d.resolve kinds)) ?_ ⟨start, each⟩).imp fun _ reached => reached.1
  rintro known d rest ⟨distinct, each⟩
  obtain ⟨property, resolved⟩ := each d List.mem_cons_self
  have absent : d.name ∉ known.keys := Table.not_mem_of_nodup distinct
  have added : known.insertNew? d.name property = some (known.insert d.name property) :=
    Table.insertNew?_of_not_mem absent
  refine ⟨known.insert d.name property, bind_ok resolved (by rw [added]; rfl), ?_,
    fun b mem => each b (List.mem_cons_of_mem _ mem)⟩
  rw [Table.keys_insertNew? added]
  simpa using distinct

section WellFormed
variable {items : List (String × Declaration)} (good : WellFormed items)
include good

theorem property_resolve_succeeds {e : String × Declaration} (mem : e ∈ items)
    {d : PropertyDeclaration} (there : d ∈ e.2.properties) :
    Succeeds (d.resolve ((⟨items, good.names.1⟩ : Table Declaration).map Declaration.kind)) := by
  unfold PropertyDeclaration.resolve
  split
  · exact succeeds_ok _
  · rename_i field derived
    have isDerived : d.derivedFrom ≠ none := by
      rw [derived]
      exact Option.some_ne_none field
    obtain ⟨entity, item, nullable, type, declared⟩ := good.derived e mem d there isDerived
    have found := kind_eq_some_iff (t := ⟨items, good.names.1⟩).mpr declared
    rw [type, TypeExpr.relatedEntity?, if_pos found]
    exact succeeds_ok _

theorem resolveAll_succeeds : Succeeds (resolveAll ⟨items, good.names.1⟩) := by
  refine resolve_entries_succeeds.mpr fun e mem => ?_
  obtain ⟨name, d⟩ := e
  have distinct := (good.inside _ mem).1
  have each := fun d there => property_resolve_succeeds good mem (d := d) there
  cases d with
  | entity description declared =>
    exact succeeds_bind_pure.mpr (resolveProperties_succeeds distinct each)
  | object description declared =>
    exact succeeds_bind_pure.mpr (resolveProperties_succeeds distinct each)
  | union u => exact succeeds_ok _
  | enumeration e => exact succeeds_ok _

/-- However well-formed items are written, they are loaded as one model, which carries exactly what
    was declared. -/
theorem ofText_document : ∃ m, Model.ofText (document items) = .ok m ∧
    (∀ text, Writes items text → Model.ofText text = .ok m) ∧ Carries items m := by
  obtain ⟨m, run⟩ := resolveAll_succeeds good
  have loads : ∀ text, Writes items text → Model.ofText text = .ok m := fun text written =>
    bind_ok (declarationsOf_written good.names good.inside written) run
  exact ⟨m, loads _ (writes_document good.types), loads, carries_of_resolveAll run⟩

end WellFormed

def linkedItems : List (String × Declaration) :=
  [("Owner", .entity (some "Says \"<hi>\" & 'bye'\n")
     [⟨"links", .list (.named "Link" false) true, some "owner", some ""⟩,
      ⟨"state", .named "State" false, none, none⟩]),
   ("Link", .entity none
     [⟨"owner", .named "Owner" false, none, none⟩, ⟨"id", .named "ID" false, none, none⟩]),
   ("State", .enumeration ⟨none, { names := ["<new>", "old & gone"] }⟩),
   ("Either", .union ⟨none, ["Owner", "Link"]⟩)]

theorem linkedItems_loaded : WellFormed linkedItems ∧
    ∃ m, Model.ofText (document linkedItems) = .ok m ∧
      (∀ text, Writes linkedItems text → Model.ofText text = .ok m) ∧ Carries linkedItems m := by
  have good : WellFormed linkedItems := by
    refine ⟨by decide, by decide, by decide, ?_⟩
    intro e mem d there derived
    have link : d = ⟨"links", .list (.named "Link" false) true, some "owner", some ""⟩ := by
      simp only [linkedItems, List.mem_cons, List.not_mem_nil, or_false] at mem
      rcases mem with rfl | rfl | rfl | rfl <;>
        simp only [Declaration.properties, List.mem_cons, List.not_mem_nil, or_false] at there
      · rcases there with rfl | rfl
        · rfl
        · exact absurd rfl derived
      · rcases there with rfl | rfl <;> exact absurd rfl derived
    subst link
    exact ⟨"Link", false, true, rfl, _, List.mem_cons_of_mem _ List.mem_cons_self, rfl⟩
  exact ⟨good, ofText_document good⟩

end DataLayer.Schema
