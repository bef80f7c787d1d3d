import Mathlib.Data.List.Nodup
import DataLayer.Proofs.Code.Locality
import DataLayer.Proofs.Code.Success
import DataLayer.Proofs.Schema.Reordering

/- Items in another order. An item finds the same surroundings wherever it stands, so that its file
   is the same, and claims of modules go through or not in any order. Only the module that exports
   all files follows the order of the items. -/
namespace DataLayer.Code
open Schema Support Outcome

def barrelOf (names : List String) : String :=
  renderText [banner] (names.flatMap fun name =>
    ["mod " ++ Name.moduleName name ++ ";", "pub use " ++ Name.moduleName name ++ "::*;"])

section Files
variable {m : Model} {tree : Tree} (run : generate m = .ok tree)
include run

theorem file?_eq_some_iff {name : String} {f : SourceFile} :
    tree.file? name = some f ↔ f ∈ tree.sources ∧ f.item = name := by
  have distinct : (tree.sources.map SourceFile.item).Nodup :=
    items_of_generate run ▸ m.items.distinct
  constructor
  · intro found
    exact ⟨List.mem_of_find?_eq_some found, by simpa using List.find?_some found⟩
  · rintro ⟨mem, rfl⟩
    have there : (tree.file? f.item).isSome := List.find?_isSome.mpr ⟨f, mem, by simp⟩
    obtain ⟨g, found⟩ := Option.isSome_iff_exists.mp there
    have named : g.item = f.item := by simpa using List.find?_some found
    rw [found, List.inj_on_of_nodup_map distinct (List.mem_of_find?_eq_some found) mem named]

theorem barrel_of_generate : tree.barrel = barrelOf m.names := by
  rw [← items_of_generate run, barrelOf, List.flatMap_map]
  rfl

end Files

section Models
variable {m n : Model} (order : m.items.entries.Perm n.items.entries)
include order

theorem get?_of_perm (name : String) : m.get? name = n.get? name :=
  Table.get?_eq_of_perm order name

theorem agreeOn_of_perm (name : String) (item : Item) : AgreeOn m n name item := by
  have same := get?_of_perm order
  refine ⟨?_, fun other _ => ?_, fun _ _ _ _ other _ e f here there => ?_⟩
  · simp only [Model.IsVariant, same]
  · rw [Model.kind?, Model.kind?, same]
  · rw [same, there] at here
    cases here
    rfl

theorem itemFileOf_of_perm (name : String) (item : Item) :
    itemFileOf m m.variantNames name item = itemFileOf n n.variantNames name item :=
  itemFileOf_eq_of_agreeOn (agreeOn_of_perm order name item)

theorem generate_of_perm {s : Tree} (run : generate m = .ok s) : Succeeds (generate n) := by
  have made : Succeeds (generate m) := ⟨s, run⟩
  rw [generate, succeeds_bind_pure, itemFiles_succeeds, Scope.admits_new] at made ⊢
  obtain ⟨each, alike⟩ := made
  have claims := order.map fun e => (Name.moduleName e.1, e.1)
  refine ⟨fun e mem => ?_, fun x first y second => ?_⟩
  · rw [← itemFileOf_of_perm order]
    exact each e (order.mem_iff.mpr mem)
  · exact alike x (claims.mem_iff.mpr first) y (claims.mem_iff.mpr second)

theorem files_of_perm {s t : Tree} (here : generate m = .ok s) (there : generate n = .ok t) :
    s.files.Perm t.files := by
  have moved := forall₂_of_generate there
  simp only [← itemFileOf_of_perm order] at moved
  have unique : Relator.RightUnique fun (e : String × Item) (f : ItemFile) =>
      itemFileOf m m.variantNames e.1 e.2 = .ok f := by
    intro e f g first second
    rw [first] at second
    exact Except.ok.inj second
  exact perm_of_forall₂ unique order (forall₂_of_generate here) moved

end Models

def treeOf (declared : Table Declaration) : Except Fault Tree := do
  let m ← (resolveAll declared).mapError Fault.load
  ofModel m.validate
  generate m

theorem generateText_eq_treeOf (text : String) :
    generateText text = (declarationsOf text).mapError Fault.load >>= treeOf := by
  unfold generateText Model.ofText treeOf
  cases declarationsOf text with
  | error f => rfl
  | ok declared =>
    simp only [bind, Except.bind, Except.mapError]
    cases resolveAll declared <;> rfl

theorem treeOf_eq_ok {declared : Table Declaration} {t : Tree} :
    treeOf declared = .ok t ↔
      ∃ m, resolveAll declared = .ok m ∧ m.validate = .ok () ∧ generate m = .ok t := by
  simp only [treeOf, bind_eq_ok, mapError_eq_ok, ofModel_eq_ok]
  constructor
  · rintro ⟨m, resolved, _, valid, run⟩
    exact ⟨m, resolved, valid, run⟩
  · rintro ⟨m, resolved, valid, run⟩
    exact ⟨m, resolved, (), valid, run⟩

structure Rearranged (these those : List String) (s t : Tree) : Prop where
  order : these.Perm those
  files : ∀ name, s.file? name = t.file? name
  complete : ∀ name ∈ these, (s.file? name).isSome
  resources : s.resources = t.resources
  root : s.rootModule = t.rootModule
  barrels : s.barrel = barrelOf these ∧ t.barrel = barrelOf those

theorem rearranged_of_perm {m n : Model} {s t : Tree}
    (order : m.items.entries.Perm n.items.entries) (here : generate m = .ok s)
    (there : generate n = .ok t) : Rearranged m.names n.names s t := by
  have files := files_of_perm order here there
  have sources : s.sources.Perm t.sources := files.map ItemFile.source
  have resources : s.resources = t.resources := by
    rw [resources_of_generate here, resources_of_generate there, supportOf, supportOf,
      files.any_eq]
  refine ⟨order.map Prod.fst, fun name => ?_, fun name mem => ?_, resources, ?_, ?_⟩
  · apply Option.ext
    intro f
    rw [file?_eq_some_iff here, file?_eq_some_iff there, sources.mem_iff]
  · rw [← items_of_generate here] at mem
    obtain ⟨f, there, named⟩ := List.mem_map.mp mem
    exact Option.isSome_of_mem ((file?_eq_some_iff here).mpr ⟨there, named⟩)
  · rw [Tree.rootModule, Tree.rootModule, Tree.rootModules, Tree.rootModules, resources]
  · exact ⟨barrel_of_generate here, barrel_of_generate there⟩

section Declarations
variable {a b : Table Declaration} (order : a.entries.Perm b.entries)
include order

theorem treeOf_of_perm {s : Tree} (run : treeOf a = .ok s) :
    ∃ t, treeOf b = .ok t ∧ Rearranged a.keys b.keys s t := by
  obtain ⟨m, resolved, valid, here⟩ := treeOf_eq_ok.mp run
  obtain ⟨n, other, moved⟩ := resolveAll_of_perm order resolved
  obtain ⟨t, there⟩ := generate_of_perm moved here
  refine ⟨t, treeOf_eq_ok.mpr ⟨n, other, validate_of_perm moved valid, there⟩, ?_⟩
  rw [← names_of_resolveAll resolved, ← names_of_resolveAll other]
  exact rearranged_of_perm moved here there

/-- Declarations give code in one order if and only if they do in another, and then the trees differ
    in the order of what they export only. -/
theorem treeOf_reordered :
    ((∃ s, treeOf a = .ok s) ↔ ∃ t, treeOf b = .ok t) ∧
      ∀ s t, treeOf a = .ok s → treeOf b = .ok t → Rearranged a.keys b.keys s t := by
  refine ⟨⟨?_, ?_⟩, ?_⟩
  · rintro ⟨s, run⟩
    obtain ⟨t, other, _⟩ := treeOf_of_perm order run
    exact ⟨t, other⟩
  · rintro ⟨t, run⟩
    obtain ⟨s, other, _⟩ := treeOf_of_perm order.symm run
    exact ⟨s, other⟩
  · intro s t here there
    obtain ⟨u, other, rearranged⟩ := treeOf_of_perm order here
    rw [there] at other
    cases other
    exact rearranged

end Declarations

def forwardItems : Table Declaration where
  entries :=
    [("U", .union ⟨none, ["A", "O"]⟩),
     ("A", .entity none [⟨"e", .named "E" false, none, none⟩, ⟨"o", .named "O" true, none, none⟩]),
     ("O", .object none [⟨"list", .list (.named "A" false) true, none, none⟩]),
     ("E", .enumeration ⟨none, { names := ["LEFT", "RIGHT"] }⟩)]

def backwardItems : Table Declaration where
  entries := forwardItems.entries.reverse
  distinct := by decide

theorem forwardItems_rearranged :
    forwardItems.entries.Perm backwardItems.entries ∧
      ∃ s t, treeOf forwardItems = .ok s ∧ treeOf backwardItems = .ok t ∧
        Rearranged forwardItems.keys backwardItems.keys s t := by
  have order : forwardItems.entries.Perm backwardItems.entries :=
    (List.reverse_perm forwardItems.entries).symm
  have generates : (treeOf forwardItems).toOption.isSome = true := by decide +kernel
  obtain ⟨s, some⟩ := Option.isSome_iff_exists.mp generates
  have here := eq_ok_of_toOption some
  obtain ⟨iff, rearranged⟩ := treeOf_reordered order
  obtain ⟨t, there⟩ := iff.mp ⟨s, here⟩
  exact ⟨order, s, t, here, there, rearranged s t here there⟩

end DataLayer.Code
