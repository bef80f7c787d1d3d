import DataLayer.Proofs.Code.LinkClosure
import DataLayer.Proofs.Code.Reordering

/- What stands in a generated tree and where. There is one file for each item in the order of the
   items, each in a module of its own; the module that exports them has two lines for each, and the
   module at the root declares whatever else there is, in ascending order and nothing twice. -/
namespace DataLayer.Code
open Schema Support Outcome

def exportText (name : String) : String :=
  "mod " ++ Name.moduleName name ++ ";\npub use " ++ Name.moduleName name ++ "::*;\n"

def declarationText (module : String) : String := "pub mod " ++ module ++ ";\n"

structure Tree.Shaped (t : Tree) (m : Model) : Prop where
  made : List.Forall₂ (fun e f => itemFileOf m m.variantNames e.1 e.2 = .ok f)
    m.items.entries t.files
  named : t.sources.map (fun f => (f.item, f.module)) =
    m.names.map fun name => (name, Name.moduleName name)
  modules : (t.sources.map SourceFile.module).Nodup
  found : ∀ name item, m.get? name = some item →
    ∃ f, itemFileOf m m.variantNames name item = .ok f ∧ t.file? name = some f.source
  absent : ∀ name, m.get? name = none → t.file? name = none
  barrel : t.barrel =
    banner ++ "\n" ++ (if m.names.isEmpty then "" else "\n") ++ String.join (m.names.map exportText)
  marshal : Resource.marshal ∈ t.resources ↔
    ∃ name item, m.get? name = some item ∧ (item.kind = .object ∨ item.kind = .union)
  declared : t.rootModules.Perm (t.resources.map Resource.module ++ [modelModule])
  ascending : t.rootModules.Pairwise (· < ·)
  root : t.rootModule = banner ++ "\n\n" ++ String.join (t.rootModules.map declarationText)

theorem unlines_flatMap {α : Type} (lines : α → List String) (xs : List α) :
    unlines (xs.flatMap lines) = String.join (xs.map fun x => unlines (lines x)) := by
  induction xs with
  | nil => rfl
  | cons x xs ih => rw [List.flatMap_cons, unlines_append, ih, List.map_cons, String.join_cons]

theorem unlines_singleton (line : String) : unlines [line] = line ++ "\n" := by
  rw [unlines, List.map_singleton, String.join_cons]
  exact String.append_empty

theorem exportText_eq (name : String) :
    unlines ["mod " ++ Name.moduleName name ++ ";", "pub use " ++ Name.moduleName name ++ "::*;"] =
      exportText name := by
  rw [← List.singleton_append, unlines_append, unlines_singleton, unlines_singleton, exportText]
  simp only [String.append_assoc]
  rfl

theorem barrelOf_eq (names : List String) : barrelOf names =
    banner ++ "\n" ++ (if names.isEmpty then "" else "\n") ++
      String.join (names.map exportText) := by
  have empty : (names.flatMap fun name => ["mod " ++ Name.moduleName name ++ ";",
      "pub use " ++ Name.moduleName name ++ "::*;"]).isEmpty = names.isEmpty := by
    cases names <;> rfl
  rw [barrelOf, renderText, empty, unlines_flatMap, unlines_singleton]
  simp only [exportText_eq, List.isEmpty_cons, Bool.false_or]

theorem rootModule_eq (t : Tree) :
    t.rootModule = banner ++ "\n\n" ++ String.join (t.rootModules.map declarationText) := by
  have some : t.rootModules ≠ [] := by
    intro none
    have listed : modelModule ∈ t.rootModules :=
      List.mem_mergeSort.mpr (List.mem_append_right _ List.mem_cons_self)
    exact List.not_mem_nil (none ▸ listed)
  have lines : (t.rootModules.map fun m => "pub mod " ++ m ++ ";").isEmpty = false := by
    simpa using some
  have each : t.rootModules.map (fun m => "pub mod " ++ m ++ ";" ++ "\n") =
      t.rootModules.map declarationText := by
    refine List.map_congr_left fun m _ => ?_
    rw [declarationText, String.append_assoc]
    rfl
  rw [Tree.rootModule, renderText, lines, unlines_singleton, unlines, List.map_map]
  simp only [Function.comp_def, each, List.isEmpty_cons, Bool.false_or, Bool.false_eq_true,
    if_false]
  simp only [String.append_assoc]
  rfl

theorem ascending_of_nodup {names : List String} (distinct : names.Nodup) :
    (names.mergeSort (· ≤ ·)).Pairwise (· < ·) := by
  have sorted : (names.mergeSort (· ≤ ·)).Pairwise fun a b => decide (a ≤ b) = true :=
    List.pairwise_mergeSort (by simpa using fun _ _ _ => String.le_trans)
      (by simpa using String.le_total) names
  have differ : (names.mergeSort (· ≤ ·)).Nodup :=
    (List.mergeSort_perm names _).nodup_iff.mpr distinct
  refine (sorted.and differ).imp fun {a b} both => ?_
  exact Std.lt_of_le_of_ne (of_decide_eq_true both.1) both.2

section Generated
variable {m : Model} {tree : Tree} (run : generate m = .ok tree)
include run

theorem named_of_generate : tree.sources.map (fun f => (f.item, f.module)) =
    m.names.map fun name => (name, Name.moduleName name) := by
  rw [← items_of_generate run, List.map_map]
  rfl

theorem modules_of_generate : (tree.sources.map SourceFile.module).Nodup := by
  have modules : tree.sources.map SourceFile.module = m.names.map Name.moduleName := by
    rw [← items_of_generate run, List.map_map]
    rfl
  rw [modules]
  exact m.items.distinct.map_on fun a first b second => name_eq_of_moduleName run first second

theorem marshal_of_generate : Resource.marshal ∈ tree.resources ↔
    ∃ name item, m.get? name = some item ∧ (item.kind = .object ∨ item.kind = .union) := by
  constructor
  · intro listed
    rw [resources_of_generate run, supportOf] at listed
    have reads : tree.files.any (·.code.readsRecords) = true := by
      by_contra none
      simp [none] at listed
    obtain ⟨f, mem, reads⟩ := List.any_eq_true.mp reads
    obtain ⟨item, there, made⟩ := exists_entry run mem
    exact ⟨_, item, Table.get?_eq_some_iff.mpr there,
      (itemFileOf_eq_ok made).1.readsRecords_iff.mp reads⟩
  · rintro ⟨name, item, found, record⟩
    exact marshal_mem_resources run found record

theorem resources_nodup : (tree.resources.map Resource.module ++ [modelModule]).Nodup := by
  rw [resources_of_generate run, supportOf]
  cases tree.files.any (·.code.readsRecords) <;> decide

/-- Whatever the model, its tree holds one file for each item where it is looked for, exports all of
    them and declares all modules. -/
theorem generate_shaped : tree.Shaped m where
  made := forall₂_of_generate run
  named := named_of_generate run
  modules := modules_of_generate run
  found name item found := by
    obtain ⟨f, mem, rfl, made⟩ := exists_file run found
    exact ⟨f, made, (file?_eq_some_iff run).mpr ⟨List.mem_map_of_mem mem, rfl⟩⟩
  absent name none := by
    rw [Option.eq_none_iff_forall_ne_some]
    intro f found
    obtain ⟨mem, named⟩ := (file?_eq_some_iff run).mp found
    have listed : f.item ∈ m.names := items_of_generate run ▸ List.mem_map_of_mem mem
    exact Table.get?_eq_none_iff.mp none (named ▸ listed)
  barrel := (barrel_of_generate run).trans (barrelOf_eq m.names)
  marshal := marshal_of_generate run
  declared := List.mergeSort_perm _ _
  ascending := ascending_of_nodup (resources_nodup run)
  root := rootModule_eq tree

end Generated

def assortedModel : Model := ⟨{ entries :=
  [("Type", .enumeration ⟨none, { names := ["A"] }⟩),
   ("Self", .entity ⟨none, { entries := [("id", ⟨.scalar "ID", false, none⟩)] }⟩),
   ("HTTPLog", .union ⟨none, ["Self"]⟩)] }⟩

theorem assortedModel_shaped : ∃ tree, generate assortedModel = .ok tree ∧
    tree.Shaped assortedModel := by
  have generates : (generate assortedModel).toOption.isSome = true := by decide +kernel
  obtain ⟨tree, some⟩ := Option.isSome_iff_exists.mp generates
  have run := eq_ok_of_toOption some
  exact ⟨tree, run, generate_shaped run⟩

end DataLayer.Code
