import DataLayer.Code.Tree
import DataLayer.Proofs.Code.Scopes
import DataLayer.Proofs.Code.Uses

/- What a generated tree consists of. Its files stand for the items of the model one by one, and no
   two of them share a module, because a module is claimed by the name of its item. -/
namespace DataLayer.Code
open Schema Support Outcome

theorem itemCodeOf_of_itemFileOf {m : Model} {variants : List String} {name : String} {item : Item}
    {f : ItemFile} (run : itemFileOf m variants name item = .ok f) :
    itemCodeOf m variants name item = .ok f.code := by
  obtain ⟨code, made, rest⟩ := bind_eq_ok.mp run
  obtain ⟨imported, _, same⟩ := bind_eq_ok.mp rest
  cases pure_eq_ok.mp same
  exact made

theorem itemFileOf_eq_ok {m : Model} {variants : List String} {name : String} {item : Item}
    {f : ItemFile} (run : itemFileOf m variants name item = .ok f) :
    ComposedFrom m (variants.contains name) name item f.code ∧
      f.code.imports.lines m = .ok f.imported := by
  obtain ⟨code, made, rest⟩ := bind_eq_ok.mp run
  obtain ⟨imported, lines, same⟩ := bind_eq_ok.mp rest
  cases pure_eq_ok.mp same
  exact ⟨itemCodeOf_composedFrom made, lines⟩

theorem itemFiles_eq_ok {m : Model} {variants : List String} {modules : Scope}
    {entries : List (String × Item)} {files : List ItemFile}
    (run : itemFiles m variants modules entries = .ok files) :
    List.Forall₂ (fun e f => itemFileOf m variants e.1 e.2 = .ok f) entries files ∧
      ∃ claimed : Scope,
        (∀ module name, modules.claimed.get? module = some name →
          claimed.claimed.get? module = some name) ∧
        ∀ f ∈ files, claimed.claimed.get? f.source.module = some f.source.item := by
  induction entries generalizing modules files with
  | nil =>
    cases run
    exact ⟨.nil, modules, fun _ _ held => held, by simp⟩
  | cons e rest ih =>
    obtain ⟨name, item⟩ := e
    obtain ⟨f, made, run⟩ := bind_eq_ok.mp run
    obtain ⟨next, claim, run⟩ := bind_eq_ok.mp run
    obtain ⟨others, more, same⟩ := bind_eq_ok.mp run
    cases pure_eq_ok.mp same
    obtain ⟨here, earlier⟩ := Scope.claim_eq_ok claim
    obtain ⟨each, claimed, kept, found⟩ := ih more
    have named : f.source.item = name := (itemFileOf_eq_ok made).1.name_eq
    refine ⟨.cons made each, claimed, ?_, ?_⟩
    · intro module holder held
      exact kept module holder (earlier module holder held)
    · intro g mem
      rcases List.mem_cons.mp mem with rfl | mem
      · rw [named]
        exact kept _ _ here
      · exact found g mem

section Generated
variable {m : Model} {tree : Tree} (run : generate m = .ok tree)
include run

theorem resources_of_generate : tree.resources = supportOf tree.files := by
  obtain ⟨files, _, same⟩ := bind_eq_ok.mp run
  cases pure_eq_ok.mp same
  rfl

theorem forall₂_of_generate :
    List.Forall₂ (fun e f => itemFileOf m m.variantNames e.1 e.2 = .ok f) m.items.entries
      tree.files := by
  obtain ⟨files, made, same⟩ := bind_eq_ok.mp run
  cases pure_eq_ok.mp same
  exact (itemFiles_eq_ok made).1

theorem items_of_generate : tree.sources.map SourceFile.item = m.names := by
  have each := (forall₂_of_generate run).imp fun e f made => (itemFileOf_eq_ok made).1.name_eq.symm
  rw [Tree.sources, List.map_map]
  exact (map_eq_map_of_forall₂ each).symm

theorem exists_entry {f : ItemFile} (mem : f ∈ tree.files) :
    ∃ item, (f.source.item, item) ∈ m.items.entries ∧
      itemFileOf m m.variantNames f.source.item item = .ok f := by
  obtain ⟨⟨name, item⟩, there, made⟩ := exists_left_of_mem (forall₂_of_generate run) mem
  have named : f.source.item = name := (itemFileOf_eq_ok made).1.name_eq
  subst named
  exact ⟨item, there, made⟩

theorem exists_file {name : String} {item : Item} (found : m.get? name = some item) :
    ∃ f ∈ tree.files, f.source.item = name ∧ itemFileOf m m.variantNames name item = .ok f := by
  have mem := Table.get?_eq_some_iff.mp found
  obtain ⟨f, there, made⟩ := exists_right_of_mem (forall₂_of_generate run) mem
  exact ⟨f, there, (itemFileOf_eq_ok made).1.name_eq, made⟩

theorem file_eq_of_item {f g : ItemFile} (first : f ∈ tree.files) (second : g ∈ tree.files)
    (same : f.source.item = g.source.item) : f = g := by
  obtain ⟨item, there, made⟩ := exists_entry run first
  obtain ⟨other, otherThere, otherMade⟩ := exists_entry run second
  rw [← same] at otherThere otherMade
  have found := Table.get?_eq_some_iff.mpr there
  rw [Table.get?_eq_some_iff.mpr otherThere] at found
  cases found
  rw [made] at otherMade
  cases otherMade
  rfl

theorem file_eq_of_module {f g : ItemFile} (first : f ∈ tree.files) (second : g ∈ tree.files)
    (same : f.source.module = g.source.module) : f = g := by
  obtain ⟨files, made, pack⟩ := bind_eq_ok.mp run
  cases pure_eq_ok.mp pack
  obtain ⟨_, claimed, _, found⟩ := itemFiles_eq_ok made
  have held := found f first
  rw [same, found g second] at held
  exact file_eq_of_item run first second (Option.some.inj held).symm

theorem name_eq_of_moduleName {a b : String} (first : a ∈ m.names) (second : b ∈ m.names)
    (same : Name.moduleName a = Name.moduleName b) : a = b := by
  obtain ⟨x, found⟩ := Table.mem_keys_iff.mp first
  obtain ⟨y, otherFound⟩ := Table.mem_keys_iff.mp second
  obtain ⟨f, there, rfl, _⟩ := exists_file run (Table.get?_eq_some_iff.mpr found)
  obtain ⟨g, otherThere, rfl, _⟩ := exists_file run (Table.get?_eq_some_iff.mpr otherFound)
  rw [file_eq_of_module run there otherThere same]

end Generated

end DataLayer.Code
