import Mathlib.Data.List.Nodup
import DataLayer.Code.Imports
import DataLayer.Proofs.Outcome
import DataLayer.Proofs.Tables

/- What a generated file imports is what its code uses, its own item apart. A helper is imported by
   name, an item of the model from its own module, and a union with the function that reads it. The
   items stand in the order of their first use. -/
namespace DataLayer

namespace Schema.Model

theorem mem_names_iff {m : Model} {name : String} :
    name ∈ m.names ↔ ∃ item, m.get? name = some item := by
  rw [names, Table.mem_keys_iff]
  simp only [get?, Table.get?_eq_some_iff]

theorem item_eq_ok {m : Model} {name : String} {item : Item} :
    m.item name = .ok item ↔ m.get? name = some item := by
  unfold Model.item
  cases m.get? name <;> simp

theorem enumeration_of_get? {m : Model} {name : String} {e : Enumeration}
    (found : m.get? name = some (.enumeration e)) : m.enumeration name = .ok e := by
  rw [Model.enumeration, item_eq_ok.mpr found]
  rfl

theorem kind?_eq_some {m : Model} {name : String} {kind : ItemKind} :
    m.kind? name = some kind ↔ ∃ item, m.get? name = some item ∧ item.kind = kind := by
  simp [kind?]

theorem mem_names_of_kind? {m : Model} {name : String} {kind : ItemKind}
    (found : m.kind? name = some kind) : name ∈ m.names := by
  obtain ⟨item, there, _⟩ := kind?_eq_some.mp found
  exact mem_names_iff.mpr ⟨item, there⟩

end Schema.Model

namespace Code
open Schema Outcome

theorem ofModel_eq_ok {α : Type} {x : Except ModelFault α} {a : α} :
    ofModel x = .ok a ↔ x = .ok a := by
  cases x <;> simp [ofModel]

def Use.item? : Use → Option String
  | .item name => some name
  | .assertion | .column _ | .marshal => none

theorem Use.item?_eq_some {u : Use} {name : String} : u.item? = some name ↔ u = .item name := by
  cases u <;> simp [Use.item?]

theorem mem_filterMap_item? {uses : List Use} {name : String} :
    name ∈ uses.filterMap Use.item? ↔ .item name ∈ uses := by
  simp only [List.mem_filterMap, Use.item?_eq_some, exists_eq_right]

def ImportLine.item? : ImportLine → Option String
  | .item name | .union name => some name
  | .assertion | .columns _ | .marshal => none

namespace Imports

def Has (i : Imports) : Use → Prop
  | .assertion => i.assertion = true
  | .column symbol => symbol ∈ i.columns
  | .marshal => i.marshal = true
  | .item name => name ∈ i.items.names

theorem owner_add (i : Imports) (u : Use) : (i.add u).owner = i.owner := by
  cases u with
  | item name =>
    by_cases own : name = i.owner
    · simp [add, own]
    · simp [add, own]
  | _ => rfl

theorem has_add (i : Imports) (u v : Use) :
    (i.add u).Has v ↔ i.Has v ∨ v = u ∧ v ≠ .item i.owner := by
  cases u with
  | item name =>
    by_cases own : name = i.owner
    · have same : i.add (.item name) = i := by simp [add, own]
      rw [same]
      constructor
      · exact Or.inl
      · rintro (has | ⟨rfl, other⟩)
        · exact has
        · exact absurd (by rw [own]) other
    · cases v with
      | item x =>
        have other : x = name → x ≠ i.owner := fun same => same ▸ own
        simp only [add, own, if_false, Has, NameSet.mem_insert, Use.item.injEq, ne_eq]
        constructor
        · rintro (has | same)
          · exact .inl has
          · exact .inr ⟨same, other same⟩
        · rintro (has | ⟨same, _⟩)
          · exact .inl has
          · exact .inr same
      | _ => simp [add, own, Has]
  | _ => cases v <;> simp [add, Has, or_comm]

theorem has_addAll (i : Imports) (uses : List Use) (v : Use) :
    (i.addAll uses).Has v ↔ i.Has v ∨ v ∈ uses ∧ v ≠ .item i.owner := by
  induction uses generalizing i with
  | nil => simp [addAll]
  | cons u rest ih =>
    have step : i.addAll (u :: rest) = (i.add u).addAll rest := rfl
    rw [step, ih, has_add, owner_add, List.mem_cons, or_and_right, or_assoc]

theorem has_ofUses {owner : String} {uses : List Use} {v : Use} :
    (ofUses owner uses).Has v ↔ v ∈ uses ∧ v ≠ .item owner := by
  have none : ¬ (new owner).Has v := by
    cases v <;> simp [new, Has, NameSet.empty]
  rw [ofUses, has_addAll]
  constructor
  · rintro (has | used)
    · exact absurd has none
    · exact used
  · exact Or.inr

theorem items_addAll (i : Imports) (uses : List Use) : (i.addAll uses).items =
    ((uses.filterMap Use.item?).filter (· ≠ i.owner)).foldl NameSet.insert i.items := by
  induction uses generalizing i with
  | nil => rfl
  | cons u rest ih =>
    have step : i.addAll (u :: rest) = (i.add u).addAll rest := rfl
    rw [step, ih, owner_add]
    cases u with
    | item name =>
      by_cases own : name = i.owner
      · simp [add, Use.item?, own]
      · simp [add, Use.item?, own]
    | _ => rfl

theorem items_ofUses (owner : String) (uses : List Use) : (ofUses owner uses).items =
    NameSet.ofList ((uses.filterMap Use.item?).filter (· ≠ owner)) :=
  items_addAll (new owner) uses

theorem support_of_mem {i : Imports} {line : ImportLine} (mem : line ∈ i.supportLines) :
    line.support? = some "orm" ∨
      line.support? = some "marshal" ∧ (i.Has .assertion ∨ i.Has .marshal) := by
  unfold supportLines at mem
  rcases List.mem_append.mp mem with mem | mem
  · rcases List.mem_append.mp mem with mem | mem
    · split at mem
      · rename_i used
        cases List.mem_singleton.mp mem
        exact .inr ⟨rfl, .inl used⟩
      · contradiction
    · split at mem
      · contradiction
      · cases List.mem_singleton.mp mem
        exact .inl rfl
  · split at mem
    · rename_i used
      cases List.mem_singleton.mp mem
      exact .inr ⟨rfl, .inr used⟩
    · contradiction

theorem lines_eq_ok {i : Imports} {m : Model} {lines : List ImportLine} :
    i.lines m = .ok lines ↔ ∃ items,
      List.Forall₂ (fun name line => itemLine m name = .ok line) i.items.names items ∧
        lines = i.supportLines ++ items := by
  rw [Imports.lines, bind_eq_ok]
  refine exists_congr fun items => ?_
  rw [mapM_eq_ok, pure_eq_ok, eq_comm (a := lines)]

theorem mem_of_lines {i : Imports} {m : Model} {lines : List ImportLine} {line : ImportLine}
    (run : i.lines m = .ok lines) (mem : line ∈ lines) :
    line ∈ i.supportLines ∨ ∃ name, i.Has (.item name) ∧ itemLine m name = .ok line := by
  obtain ⟨items, each, rfl⟩ := lines_eq_ok.mp run
  rcases List.mem_append.mp mem with mem | mem
  · exact .inl mem
  · obtain ⟨name, used, found⟩ := exists_left_of_mem each mem
    exact .inr ⟨name, used, found⟩

end Imports

/-- An item of the model is imported by its name, with a function if and only if it is a union. -/
theorem itemLine_eq_ok {m : Model} {name : String} {line : ImportLine} :
    itemLine m name = .ok line ↔
      (m.kind? name = some .union ∧ line = .union name) ∨
      (∃ kind, m.kind? name = some kind ∧ kind ≠ .union) ∧ line = .item name := by
  unfold itemLine
  rw [bind_eq_ok]
  simp only [ofModel_eq_ok, Model.item_eq_ok]
  constructor
  · rintro ⟨item, found, run⟩
    have kind : m.kind? name = some item.kind := Model.kind?_eq_some.mpr ⟨item, found, rfl⟩
    split at run
    · rename_i isUnion
      cases pure_eq_ok.mp run
      exact .inl ⟨isUnion ▸ kind, rfl⟩
    · rename_i other
      cases pure_eq_ok.mp run
      exact .inr ⟨⟨item.kind, kind, other⟩, rfl⟩
  · rintro (⟨found, rfl⟩ | ⟨⟨kind, found, other⟩, rfl⟩)
    · obtain ⟨item, there, isUnion⟩ := Model.kind?_eq_some.mp found
      exact ⟨item, there, by rw [isUnion]; rfl⟩
    · obtain ⟨item, there, rfl⟩ := Model.kind?_eq_some.mp found
      refine ⟨item, there, ?_⟩
      split
      · contradiction
      · rfl

theorem item?_of_itemLine {m : Model} {name : String} {line : ImportLine}
    (found : itemLine m name = .ok line) : line.item? = some name := by
  rcases itemLine_eq_ok.mp found with ⟨_, rfl⟩ | ⟨_, rfl⟩
  · rfl
  · rfl

theorem exists_itemLine {m : Model} {name : String} (mem : name ∈ m.names) :
    ∃ line, itemLine m name = .ok line := by
  obtain ⟨item, found⟩ := Model.mem_names_iff.mp mem
  have kind : m.kind? name = some item.kind := Model.kind?_eq_some.mpr ⟨item, found, rfl⟩
  by_cases isUnion : item.kind = .union
  · exact ⟨.union name, itemLine_eq_ok.mpr (.inl ⟨isUnion ▸ kind, rfl⟩)⟩
  · exact ⟨.item name, itemLine_eq_ok.mpr (.inr ⟨⟨item.kind, kind, isUnion⟩, rfl⟩)⟩

namespace Imports
variable {i : Imports}

theorem assertion_mem_supportLines : .assertion ∈ i.supportLines ↔ i.Has .assertion := by
  cases used : i.assertion <;> simp [supportLines, Has, used]

theorem marshal_mem_supportLines : .marshal ∈ i.supportLines ↔ i.Has .marshal := by
  cases used : i.marshal <;> simp [supportLines, Has, used]

theorem columns_mem_supportLines {symbols : List ColumnSymbol} :
    .columns symbols ∈ i.supportLines ↔
      i.columns ≠ [] ∧ symbols = ColumnSymbol.all.filter (· ∈ i.columns) := by
  cases used : i.columns <;> simp [supportLines, used]

theorem columns_mem_supportLines_of_all {p : Prop} (each : ∀ symbol, i.Has (.column symbol) ↔ p)
    {symbols : List ColumnSymbol} :
    .columns symbols ∈ i.supportLines ↔ p ∧ symbols = ColumnSymbol.all := by
  rw [columns_mem_supportLines]
  by_cases used : p
  · have all : ColumnSymbol.all.filter (· ∈ i.columns) = ColumnSymbol.all :=
      List.filter_eq_self.mpr fun symbol _ => decide_eq_true ((each symbol).mpr used)
    have some : i.columns ≠ [] := List.ne_nil_of_mem ((each .column).mpr used)
    rw [all, and_iff_right some, and_iff_right used]
  · have none : i.columns = [] :=
      List.eq_nil_iff_forall_not_mem.mpr fun symbol mem => used ((each symbol).mp mem)
    exact iff_of_false (fun line => line.1 none) (fun line => used line.1)

theorem item?_of_mem_supportLines {line : ImportLine} (mem : line ∈ i.supportLines) :
    line.item? = none := by
  cases line with
  | item name => simp [supportLines] at mem
  | union name => simp [supportLines] at mem
  | _ => rfl

theorem nodup_supportLines : i.supportLines.Nodup := by
  unfold supportLines
  cases i.assertion <;> cases i.columns.isEmpty <;> cases i.marshal <;> simp

section Lines
variable {m : Model} {names : List String} {lines : List ImportLine}

theorem map_item?_of_forall₂
    (each : List.Forall₂ (fun name line => itemLine m name = .ok line) names lines) :
    lines.map ImportLine.item? = names.map some :=
  (map_eq_map_of_forall₂ (each.imp fun _ _ found => (item?_of_itemLine found).symm)).symm

theorem items_of_lines (run : i.lines m = .ok lines) :
    lines.filterMap ImportLine.item? = i.items.names := by
  obtain ⟨items, each, rfl⟩ := lines_eq_ok.mp run
  have helpers : i.supportLines.filterMap ImportLine.item? = [] :=
    List.filterMap_eq_nil_iff.mpr fun line mem => item?_of_mem_supportLines mem
  calc (i.supportLines ++ items).filterMap ImportLine.item?
      = items.filterMap ImportLine.item? := by
        rw [List.filterMap_append, helpers, List.nil_append]
    _ = (items.map ImportLine.item?).filterMap id := by rw [List.filterMap_map, Function.id_comp]
    _ = (i.items.names.map some).filterMap id := by rw [map_item?_of_forall₂ each]
    _ = i.items.names := by rw [List.filterMap_map, Function.id_comp, List.filterMap_some]

theorem mem_lines_iff (run : i.lines m = .ok lines) {line : ImportLine}
    (helper : line.item? = none) : line ∈ lines ↔ line ∈ i.supportLines := by
  obtain ⟨items, each, rfl⟩ := lines_eq_ok.mp run
  rw [List.mem_append, or_iff_left]
  intro mem
  obtain ⟨name, _, found⟩ := exists_left_of_mem each mem
  rw [item?_of_itemLine found] at helper
  contradiction

theorem nodup_lines (run : i.lines m = .ok lines) : lines.Nodup := by
  obtain ⟨items, each, rfl⟩ := lines_eq_ok.mp run
  have distinct : items.Nodup := by
    refine List.Nodup.of_map ImportLine.item? ?_
    rw [map_item?_of_forall₂ each]
    exact i.items.distinct.map fun _ _ => Option.some.inj
  refine List.nodup_append.mpr ⟨nodup_supportLines, distinct, ?_⟩
  rintro line helper _ mem rfl
  obtain ⟨name, _, found⟩ := exists_left_of_mem each mem
  have item := item?_of_itemLine found
  rw [item?_of_mem_supportLines helper] at item
  contradiction

end Lines

end Imports

end Code

end DataLayer
