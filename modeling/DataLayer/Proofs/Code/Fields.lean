import DataLayer.Proofs.Code.Generation

/- The fields of entities and value objects in generated code. They stand for the properties one by
   one and in order, and the type of a field and the way it is read and written come from the type
   of its property. -/
namespace DataLayer.Code
open Schema Outcome

theorem entityFieldOf_eq_ok {owner key : String} {isVariant : Bool} {p : Property}
    {binding : Binding} {f : EntityField}
    (run : entityFieldOf owner isVariant key p binding = .ok f) :
    f.key = key ∧ typeOf .entity p.type binding.nullable = .ok f.type ∧
      (isVariant = true → ∃ part,
        recordPartOf owner key p.type binding.nullable = .ok part ∧ f.part = some part) := by
  obtain ⟨type, typed, run⟩ := bind_eq_ok.mp run
  obtain ⟨document, _, run⟩ := bind_eq_ok.mp run
  cases isVariant with
  | true =>
    rw [if_pos rfl] at run
    obtain ⟨_, parted, same⟩ := bind_eq_ok.mp run
    obtain ⟨part, made, rfl⟩ := map_eq_ok.mp parted
    cases pure_eq_ok.mp same
    exact ⟨rfl, typed, fun _ => ⟨part, made, rfl⟩⟩
  | false =>
    cases pure_eq_ok.mp run
    exact ⟨rfl, typed, by simp⟩

theorem entityFieldOf_binding {owner key : String} {isVariant : Bool} {p : Property}
    {binding : Binding} {f : EntityField}
    (run : entityFieldOf owner isVariant key p binding = .ok f) :
    f.key = key ∧ f.binding = binding := by
  obtain ⟨type, _, run⟩ := bind_eq_ok.mp run
  obtain ⟨document, _, run⟩ := bind_eq_ok.mp run
  cases isVariant with
  | true =>
    rw [if_pos rfl] at run
    obtain ⟨part, _, same⟩ := bind_eq_ok.mp run
    cases pure_eq_ok.mp same
    exact ⟨rfl, rfl⟩
  | false =>
    cases pure_eq_ok.mp run
    exact ⟨rfl, rfl⟩

def EntityFieldFor (m : Model) (owner : String) (isVariant : Bool) (p : String × Property)
    (f : EntityField) : Prop :=
  ∃ binding, bindingOf m p.2 = .ok binding ∧ entityFieldOf owner isVariant p.1 p.2 binding = .ok f

theorem EntityFieldFor.key_eq {m : Model} {owner : String} {isVariant : Bool}
    {p : String × Property} {f : EntityField} (made : EntityFieldFor m owner isVariant p f) :
    f.key = p.1 := by
  obtain ⟨binding, _, run⟩ := made
  exact (entityFieldOf_eq_ok run).1

theorem entityFields_eq_ok {m : Model} {owner : String} {isVariant : Bool} {scope : Scope}
    {properties : List (String × Property)} {fields : List EntityField}
    (run : entityFields m owner isVariant scope properties = .ok fields) :
    List.Forall₂ (EntityFieldFor m owner isVariant) properties fields := by
  induction properties generalizing scope fields with
  | nil =>
    cases run
    exact .nil
  | cons first rest ih =>
    obtain ⟨binding, bound, run⟩ := bind_eq_ok.mp run
    obtain ⟨next, _, run⟩ := bind_eq_ok.mp run
    obtain ⟨field, made, run⟩ := bind_eq_ok.mp run
    obtain ⟨others, more, same⟩ := bind_eq_ok.mp run
    cases pure_eq_ok.mp same
    exact .cons ⟨binding, bound, made⟩ (ih more)

theorem entityCodeOf_eq_ok {m : Model} {isVariant : Bool} {name : String} {x : Entity}
    {c : EntityCode} (run : entityCodeOf m isVariant name x = .ok c) :
    c.name = name ∧ c.isVariant = isVariant ∧
      List.Forall₂ (EntityFieldFor m name isVariant) x.properties.entries c.fields := by
  obtain ⟨fields, made, same⟩ := bind_eq_ok.mp run
  cases pure_eq_ok.mp same
  exact ⟨rfl, rfl, entityFields_eq_ok made⟩

theorem objectFieldOf_eq_ok {owner key : String} {p : Property} {f : ObjectField}
    (run : objectFieldOf owner key p = .ok f) :
    f.key = key ∧ Name.fieldIdent key ∉ reservedMethods := by
  obtain ⟨type, typed, run⟩ := bind_eq_ok.mp run
  obtain ⟨read, _, run⟩ := bind_eq_ok.mp run
  obtain ⟨write, _, same⟩ := bind_eq_ok.mp run
  cases pure_eq_ok.mp same
  refine ⟨rfl, fun reserved => ?_⟩
  rw [objectFieldType, if_pos reserved] at typed
  contradiction

theorem objectCodeOf_eq_ok {isVariant : Bool} {name : String} {x : ValueObject} {c : ObjectCode}
    (run : objectCodeOf isVariant name x = .ok c) :
    c.name = name ∧ c.isVariant = isVariant ∧
      List.Forall₂ (fun p f => objectFieldOf name p.1 p.2 = .ok f) x.properties.entries
        c.fields := by
  obtain ⟨types, _, run⟩ := bind_eq_ok.mp run
  obtain ⟨scope, _, run⟩ := bind_eq_ok.mp run
  obtain ⟨fields, made, same⟩ := bind_eq_ok.mp run
  cases pure_eq_ok.mp same
  exact ⟨rfl, rfl, mapM_eq_ok.mp made⟩

section Variants
variable {m : Model} {tree : Tree} (run : generate m = .ok tree) {name : String}
include run

theorem exists_code {item : Item} (found : m.get? name = some item) :
    ∃ f ∈ tree.files, f.source.item = name ∧
      itemCodeOf m m.variantNames name item = .ok f.code := by
  obtain ⟨f, there, named, made⟩ := exists_file run found
  exact ⟨f, there, named, itemCodeOf_of_itemFileOf made⟩

theorem exists_entityCode {x : Entity} (found : m.get? name = some (.entity x))
    (isVariant : m.IsVariant name) :
    ∃ f ∈ tree.files, f.source.item = name ∧ ∃ c, f.code = .entity c ∧
      entityCodeOf m true name x = .ok c := by
  obtain ⟨f, there, named, composed⟩ := exists_code run found
  obtain ⟨c, made, same⟩ := bind_eq_ok.mp composed
  rw [variantNames_contains_iff.mpr isVariant] at made
  exact ⟨f, there, named, c, (Except.ok.inj same).symm, made⟩

theorem exists_objectCode {x : ValueObject} (found : m.get? name = some (.object x))
    (isVariant : m.IsVariant name) :
    ∃ f ∈ tree.files, f.source.item = name ∧ ∃ c, f.code = .object c ∧
      objectCodeOf true name x = .ok c := by
  obtain ⟨f, there, named, composed⟩ := exists_code run found
  obtain ⟨c, made, same⟩ := bind_eq_ok.mp composed
  rw [variantNames_contains_iff.mpr isVariant] at made
  exact ⟨f, there, named, c, (Except.ok.inj same).symm, made⟩

end Variants

end DataLayer.Code
