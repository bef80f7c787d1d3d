import DataLayer.Proofs.Code.Generation

/- What the code of an item depends on. Of the model around it only three things are ever looked at:
   whether some union lists the item, the kinds of the items that it refers to, and for an entity
   the lengths of the enumerations that its columns hold. -/
namespace DataLayer.Schema

/-- Two models in which an item finds the same surroundings. -/
structure AgreeOn (m n : Model) (name : String) (item : Item) : Prop where
  variant : m.IsVariant name ↔ n.IsVariant name
  kinds : ∀ other, item.Refers other → m.kind? other = n.kind? other
  lengths : ∀ x, item = .entity x → ∀ p ∈ x.properties.entries, ∀ other,
    p.2.type.leaf = .enumeration other → ∀ e f, m.get? other = some (.enumeration e) →
      n.get? other = some (.enumeration f) → e.longestValue = f.longestValue

end DataLayer.Schema

namespace DataLayer.Code
open Schema Outcome

section Kinds
variable {m n : Model} {name : String} (agree : m.kind? name = n.kind? name)
include agree

theorem item_alike :
    m.item name = .error (.itemNotFound name) ∧ n.item name = .error (.itemNotFound name) ∨
      ∃ a b, m.item name = .ok a ∧ n.item name = .ok b ∧ a.kind = b.kind := by
  unfold Model.kind? at agree
  unfold Model.item
  cases here : m.get? name with
  | none =>
    cases there : n.get? name with
    | none => exact .inl ⟨rfl, rfl⟩
    | some b => simp [here, there] at agree
  | some a =>
    cases there : n.get? name with
    | none => simp [here, there] at agree
    | some b => exact .inr ⟨a, b, rfl, rfl, by simpa [here, there] using agree⟩

theorem itemLine_eq : itemLine m name = itemLine n name := by
  unfold itemLine
  rcases item_alike agree with ⟨here, there⟩ | ⟨a, b, here, there, kind⟩
  · rw [here, there]
  · rw [here, there]
    simp only [ofModel, bind, Except.bind, kind]

theorem checkVariant_eq : checkVariant m name = checkVariant n name := by
  unfold checkVariant
  rcases item_alike agree with ⟨here, there⟩ | ⟨a, b, here, there, kind⟩
  · rw [here, there]
  · rw [here, there]
    simp only [ofModel, bind, Except.bind, kind]

theorem storageOf_enumeration_eq
    (lengths : ∀ e f, m.get? name = some (.enumeration e) → n.get? name = some (.enumeration f) →
      e.longestValue = f.longestValue) :
    storageOf m (.enumeration name) = storageOf n (.enumeration name) := by
  rw [storageOf, storageOf, Model.enumeration, Model.enumeration]
  rcases item_alike agree with ⟨here, there⟩ | ⟨a, b, here, there, kind⟩
  · rw [here, there]
  · rw [here, there]
    cases a with
    | enumeration e =>
      cases b with
      | enumeration f =>
        have length := lengths e f (Model.item_eq_ok.mp here) (Model.item_eq_ok.mp there)
        change Except.ok (Storage.plain (.varChar e.longestValue)) = .ok _
        rw [length]
      | _ => contradiction
    | entity x | object x | union u =>
      simp only [bind, Except.bind, kind]
      cases b with
      | enumeration f => contradiction
      | _ => rfl

end Kinds

theorem entityFields_congr {m n : Model} {owner : String} {isVariant : Bool} {scope : Scope}
    {properties : List (String × Property)}
    (stored : ∀ p ∈ properties, storageOf m p.2.type = storageOf n p.2.type) :
    entityFields m owner isVariant scope properties =
      entityFields n owner isVariant scope properties := by
  induction properties generalizing scope with
  | nil => rfl
  | cons first rest ih =>
    obtain ⟨key, p⟩ := first
    have others : ∀ next, entityFields m owner isVariant next rest =
        entityFields n owner isVariant next rest :=
      fun _ => ih fun q mem => stored q (List.mem_cons_of_mem _ mem)
    have bound : bindingOf m p = bindingOf n p := by
      rw [bindingOf, stored (key, p) List.mem_cons_self, bindingOf]
    simp only [entityFields, bound, others]

section Agreement
variable {m n : Model} {name : String} {item : Item} (agree : AgreeOn m n name item)
include agree

theorem storageOf_eq_of_agreeOn {x : Entity} (isEntity : item = .entity x) {p : String × Property}
    (isProperty : p ∈ x.properties.entries) : storageOf m p.2.type = storageOf n p.2.type := by
  subst isEntity
  cases type : p.2.type with
  | enumeration other =>
    have leaf : p.2.type.leaf = .enumeration other := by rw [type]; rfl
    have target : p.2.type.target? = some other := by rw [PropertyType.target?, leaf]
    exact storageOf_enumeration_eq (agree.kinds other ⟨p, isProperty, target⟩)
      (agree.lengths x rfl p isProperty other leaf)
  | scalar _ | object _ | union _ | reference _ | inverse _ _ | list _ _ _ => rfl

theorem contains_eq_of_agreeOn :
    m.variantNames.contains name = n.variantNames.contains name := by
  rw [Bool.eq_iff_iff, variantNames_contains_iff, variantNames_contains_iff]
  exact agree.variant

theorem itemCodeOf_eq_of_agreeOn :
    itemCodeOf m m.variantNames name item = itemCodeOf n n.variantNames name item := by
  have listed := contains_eq_of_agreeOn agree
  cases item with
  | entity x =>
    have fields : ∀ isVariant scope, entityFields m name isVariant scope x.properties.entries =
        entityFields n name isVariant scope x.properties.entries :=
      fun _ _ => entityFields_congr fun p mem => storageOf_eq_of_agreeOn agree rfl mem
    simp only [itemCodeOf, entityCodeOf, listed, fields]
  | object x => simp only [itemCodeOf, listed]
  | union u =>
    have checks : u.variants.forM (checkVariant m) = u.variants.forM (checkVariant n) :=
      forM_congr fun variant mem => checkVariant_eq (agree.kinds variant mem)
    simp only [itemCodeOf, unionCodeOf, checks]
  | enumeration x => rfl

theorem itemFileOf_eq_of_agreeOn :
    itemFileOf m m.variantNames name item = itemFileOf n n.variantNames name item := by
  unfold itemFileOf
  rw [itemCodeOf_eq_of_agreeOn agree]
  refine bind_congr fun code made => ?_
  have composed := itemCodeOf_composedFrom made
  have lines : code.imports.items.names.mapM (itemLine m) =
      code.imports.items.names.mapM (itemLine n) := by
    refine mapM_congr fun other imported => itemLine_eq (agree.kinds other ?_)
    have has : (Imports.ofUses code.name code.uses).Has (.item other) := imported
    exact refers_of_uses composed (Imports.has_ofUses.mp has).1
  simp only [Imports.lines, lines]

end Agreement

def fileAt (m : Model) (name : String) : Except Fault ItemFile := do
  itemFileOf m m.variantNames name (← ofModel (m.item name))

theorem fileAt_eq_of_get? {m : Model} {name : String} {item : Item}
    (found : m.get? name = some item) :
    fileAt m name = itemFileOf m m.variantNames name item := by
  have asked : ofModel (m.item name) = .ok item :=
    ofModel_eq_ok.mpr (Model.item_eq_ok.mpr found)
  rw [fileAt, asked]
  rfl

/-- The file of an item, or the fault that there is none, is the same in any two models in which the
    item finds the same surroundings. -/
theorem fileAt_local {m n : Model} {name : String} {item : Item}
    (here : m.get? name = some item) (there : n.get? name = some item)
    (agree : AgreeOn m n name item) : fileAt m name = fileAt n name := by
  rw [fileAt_eq_of_get? here, fileAt_eq_of_get? there]
  exact itemFileOf_eq_of_agreeOn agree

def settledEntity : Entity where
  description := none
  properties := { entries :=
    [("id", idProperty), ("e", ⟨.enumeration "E", false, none⟩), ("o", ⟨.object "O", true, none⟩)] }

def sparseModel : Model where
  items := { entries :=
    [("A", .entity settledEntity), ("E", .enumeration ⟨none, { names := ["LM"] }⟩),
     ("O", .object ⟨none, .empty⟩)] }

def denseModel : Model where
  items := { entries :=
    [("U", .union ⟨none, ["O"]⟩), ("E", .enumeration ⟨none, { names := ["X", "YZ"] }⟩),
     ("A", .entity settledEntity),
     ("O", .object ⟨none, { entries := [("n", ⟨.scalar "Int", false, none⟩)] }⟩)] }

theorem settledEntity_local :
    sparseModel.get? "A" = some (.entity settledEntity) ∧
      denseModel.get? "A" = some (.entity settledEntity) ∧
      AgreeOn sparseModel denseModel "A" (.entity settledEntity) ∧
      fileAt sparseModel "A" = fileAt denseModel "A" := by
  have agree : AgreeOn sparseModel denseModel "A" (.entity settledEntity) := by
    refine ⟨?_, ?_, ?_⟩
    · rw [← mem_variantNames_iff, ← mem_variantNames_iff]
      decide
    · rintro other ⟨p, mem, target⟩
      simp only [settledEntity, List.mem_cons, List.not_mem_nil, or_false] at mem
      rcases mem with rfl | rfl | rfl
      · contradiction
      · cases target
        rfl
      · cases target
        rfl
    · rintro _ ⟨⟩ p mem other leaf e f here there
      simp only [settledEntity, List.mem_cons, List.not_mem_nil, or_false] at mem
      rcases mem with rfl | rfl | rfl
      · contradiction
      · cases leaf
        cases here
        cases there
        rfl
      · contradiction
  exact ⟨rfl, rfl, agree, fileAt_local rfl rfl agree⟩

end DataLayer.Code
