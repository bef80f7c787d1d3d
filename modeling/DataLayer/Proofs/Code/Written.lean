import Mathlib.Data.List.Nodup
import DataLayer.Command
import DataLayer.Proofs.Code.LinkClosure
import DataLayer.Proofs.Storage.Writing

/- Where a generated tree is written. Items with different modules have files of different names
   unless a name carries a raw mark or a slash of its own, and only an item that is called after the
   keyword `mod` gets the file that stands for the directory itself. Files with different places are
   all read back as they were written. -/
namespace DataLayer.Name

/-- The name is one component of a path and no raw mark is dropped from it. -/
def Plain (name : String) : Prop :=
  '/' ∉ (snakeCase name).toList ∧ ¬ ['r', '#'] <+: (snakeCase name).toList

instance (name : String) : Decidable (Plain name) := inferInstanceAs (Decidable (_ ∧ _))

theorem dropRawMarks_of_not_prefix {s : List Char} (unmarked : ¬ ['r', '#'] <+: s) :
    dropRawMarks s = s := by
  unfold dropRawMarks
  split
  · rename_i rest
    exact absurd ⟨rest, rfl⟩ unmarked
  · rfl

theorem fileStem_reserved : ∀ ident ∈ reserved, fileStem (escape ident) = ident ++ "_" ∧
    escape (ident ++ "_") = escape ident ∧ ident ++ "_" ≠ "mod" ∧ ident ≠ "mod" := by
  decide

theorem fileStem_escape {ident : String} (unmarked : ¬ ['r', '#'] <+: ident.toList)
    (free : ident ∉ reserved) : fileStem (escape ident) = ident := by
  have same := dropRawMarks_of_not_prefix unmarked
  unfold escape
  rw [if_neg free]
  split
  · rw [fileStem, String.toList_append]
    change String.ofList (dropRawMarks ident.toList) = ident
    rw [same, String.ofList_toList]
  · rw [fileStem, same, String.ofList_toList]

theorem escape_fileStem_escape {ident : String} (unmarked : ¬ ['r', '#'] <+: ident.toList) :
    escape (fileStem (escape ident)) = escape ident := by
  by_cases held : ident ∈ reserved
  · rw [(fileStem_reserved _ held).1, (fileStem_reserved _ held).2.1]
  · rw [fileStem_escape unmarked held]

section Plain
variable {name : String} (plain : Plain name)
include plain

theorem escape_fileStem : escape (fileStem (moduleName name)) = moduleName name :=
  escape_fileStem_escape plain.2

theorem not_mem_fileStem : '/' ∉ (fileStem (moduleName name)).toList := by
  unfold moduleName
  by_cases held : snakeCase name ∈ reserved
  · rw [(fileStem_reserved _ held).1, String.toList_append, List.mem_append, not_or]
    exact ⟨plain.1, by decide⟩
  · rw [fileStem_escape plain.2 held]
    exact plain.1

theorem fileStem_eq_mod_iff : fileStem (moduleName name) = "mod" ↔ snakeCase name = "mod" := by
  unfold moduleName
  by_cases held : snakeCase name ∈ reserved
  · rw [(fileStem_reserved _ held).1]
    exact iff_of_false (fileStem_reserved _ held).2.2.1 (fileStem_reserved _ held).2.2.2
  · rw [fileStem_escape plain.2 held]

end Plain

end DataLayer.Name

namespace DataLayer.Code
open Schema Support DataLayer.Storage Outcome

def itemPath (name : String) : String :=
  "model/" ++ Name.fileStem (Name.moduleName name) ++ ".rs"

/-- The path leads to a file inside the directory of the items, but not to the one that stands for
    the directory. -/
def InModel (path : String) : Prop :=
  ∃ first rest, Path.normal? path = some (modelModule :: first :: rest) ∧ first :: rest ≠ ["mod.rs"]

theorem normal?_itemPath {name : String} (plain : Name.Plain name) :
    Path.normal? (itemPath name) =
      some [modelModule, Name.fileStem (Name.moduleName name) ++ ".rs"] := by
  have whole := Name.not_mem_fileStem plain
  unfold itemPath
  generalize Name.fileStem (Name.moduleName name) = stem at whole
  have characters : ("model/" ++ stem ++ ".rs").toList =
      "model".toList ++ '/' :: (stem ++ ".rs").toList := by
    simp only [String.toList_append]
    rfl
  have whole : '/' ∉ (stem ++ ".rs").toList := by
    rw [String.toList_append, List.mem_append, not_or]
    exact ⟨whole, by decide⟩
  have long : 2 < (stem ++ ".rs").toList.length := by
    rw [String.toList_append, List.length_append]
    exact Nat.lt_add_left _ (by decide)
  rw [Path.normal?, Path.parts_eq, characters, Path.namedParts_append_slash,
    Path.namedParts_of_not_mem whole long, String.ofList_toList]
  rfl

theorem fileStem_eq_of_normal? {a b : String} (first : Name.Plain a) (second : Name.Plain b)
    (same : Path.normal? (itemPath a) = Path.normal? (itemPath b)) :
    Name.fileStem (Name.moduleName a) = Name.fileStem (Name.moduleName b) := by
  rw [normal?_itemPath first, normal?_itemPath second] at same
  simpa using same

/-- No file is written over another, and those of the items stand where only items do. -/
structure Tree.Spread (t : Tree) : Prop where
  inside : ∀ f ∈ t.sources, InModel f.path
  distinct : (t.writtenFiles.map fun f => Path.normal? f.1).Nodup

def Tree.Kept (t : Tree) : Prop :=
  ∀ d d' root, Disk.performAll d (t.actions root) = (.ok (), d') →
    ∀ f ∈ t.writtenFiles, d'.readText (Path.join root f.1) = .ok f.2

def Tree.beside (t : Tree) : List String :=
  t.resources.map Resource.fileName ++ ["model.rs", "mod.rs"]

section Generated
variable {m : Model} {tree : Tree} (run : generate m = .ok tree)
include run

theorem beside_of_generate :
    tree.beside.Nodup ∧ ∀ name ∈ tree.beside, Path.normal? name = some [name] := by
  rw [Tree.beside, resources_of_generate run, supportOf]
  cases tree.files.any (·.code.readsRecords) <;> decide

theorem paths_of_generate :
    (tree.writtenFiles.map Prod.fst).Perm (tree.beside ++ m.names.map itemPath) := by
  have items : tree.sources.map SourceFile.path = m.names.map itemPath := by
    rw [← items_of_generate run, List.map_map]
    rfl
  have paths : tree.writtenFiles.map Prod.fst =
      tree.resources.map Resource.fileName ++ m.names.map itemPath ++ ["model.rs", "mod.rs"] := by
    rw [← items, Tree.writtenFiles, List.map_append, List.map_append, List.map_map, List.map_map]
    rfl
  rw [paths, Tree.beside, List.append_assoc, List.append_assoc]
  exact List.perm_append_comm.append_left _

theorem normal?_of_generate : (tree.writtenFiles.map fun f => Path.normal? f.1).Perm
    ((tree.beside.map fun name => some [name]) ++
      m.names.map fun a => Path.normal? (itemPath a)) := by
  have normal := (paths_of_generate run).map Path.normal?
  rw [List.map_append, List.map_congr_left (beside_of_generate run).2] at normal
  simpa only [List.map_map, Function.comp_def] using normal

theorem spread_iff : tree.Spread ↔
    (∀ a ∈ m.names, InModel (itemPath a)) ∧
      (m.names.map fun a => Path.normal? (itemPath a)).Nodup := by
  have inside : (∀ f ∈ tree.sources, InModel f.path) ↔ ∀ a ∈ m.names, InModel (itemPath a) := by
    rw [← items_of_generate run, List.forall_mem_map]
    rfl
  have order := normal?_of_generate run
  have single : Function.Injective fun name : String => some [name] := by
    intro a b same
    simpa using same
  constructor
  · intro spread
    have apart := order.nodup_iff.mp spread.distinct
    exact ⟨inside.mp spread.inside, (List.nodup_append.mp apart).2.1⟩
  · rintro ⟨each, apart⟩
    refine ⟨inside.mpr each, order.nodup_iff.mpr ?_⟩
    -- Beside the items all places have one name, and places inside the model have two at least.
    refine List.nodup_append.mpr ⟨List.Nodup.map single (beside_of_generate run).1, apart, ?_⟩
    intro x first y second
    obtain ⟨name, _, rfl⟩ := List.mem_map.mp first
    obtain ⟨a, mem, rfl⟩ := List.mem_map.mp second
    obtain ⟨file, rest, place, _⟩ := each a mem
    simp [place]

/-- Of plain names only that of the keyword `mod` is in the way. -/
theorem spread_iff_of_plain (plain : ∀ a ∈ m.names, Name.Plain a) :
    tree.Spread ↔ ∀ a ∈ m.names, Name.snakeCase a ≠ "mod" := by
  rw [spread_iff run]
  constructor
  · rintro ⟨inside, _⟩ a mem called
    obtain ⟨first, rest, place, other⟩ := inside a mem
    have stem := (Name.fileStem_eq_mod_iff (plain a mem)).mpr called
    rw [normal?_itemPath (plain a mem), stem] at place
    cases place
    exact other rfl
  · intro other
    constructor
    · intro a mem
      refine ⟨_, _, normal?_itemPath (plain a mem), fun same => other a mem ?_⟩
      have file : Name.fileStem (Name.moduleName a) ++ ".rs" = "mod" ++ ".rs" :=
        (List.cons.inj same).1
      exact (Name.fileStem_eq_mod_iff (plain a mem)).mp ((String.append_left_inj _).mp file)
    · -- The file tells the module of a plain name, and no two items share a module.
      refine List.Nodup.map_on (fun a first b second same => ?_) m.items.distinct
      have stem := fileStem_eq_of_normal? (plain a first) (plain b second) same
      have module := congrArg Name.escape stem
      rw [Name.escape_fileStem (plain a first), Name.escape_fileStem (plain b second)] at module
      exact name_eq_of_moduleName run first second module

theorem kept_of_spread (spread : tree.Spread) : tree.Kept := by
  obtain ⟨items, _⟩ := (spread_iff run).mp spread
  have inside : ∀ f ∈ tree.writtenFiles, ∃ place, Path.normal? f.1 = some place := by
    intro f mem
    have there := (normal?_of_generate run).mem_iff.mp (List.mem_map_of_mem mem)
    rcases List.mem_append.mp there with first | second
    · obtain ⟨name, _, same⟩ := List.mem_map.mp first
      exact ⟨[name], same.symm⟩
    · obtain ⟨a, mem, same⟩ := List.mem_map.mp second
      obtain ⟨_, _, place, _⟩ := items a mem
      exact ⟨_, same.symm.trans place⟩
  intro d d' root written
  rw [Tree.actions, Disk.performAll] at written
  split at written
  · exact Disk.readText_of_performAll spread.distinct inside written
  · rename_i failed
    exact absurd written (failed () d')

end Generated

/-- A tree is spread over different files inside its root exactly if the paths of its items are,
    which fails for plain names only if one is called after the keyword `mod`. Then every file is
    read back after a successful write, wherever the tree is put and whatever was there. -/
theorem generateText_written {text : String} {tree : Tree} (run : generateText text = .ok tree) :
    ∃ m, Model.ofText text = .ok m ∧
      (tree.Spread ↔ (∀ a ∈ m.names, InModel (itemPath a)) ∧
        (m.names.map fun a => Path.normal? (itemPath a)).Nodup) ∧
      ((∀ a ∈ m.names, Name.Plain a) →
        (tree.Spread ↔ ∀ a ∈ m.names, Name.snakeCase a ≠ "mod")) ∧
      (tree.Spread → tree.Kept) := by
  obtain ⟨m, loaded, run⟩ := generateText_eq_ok run
  exact ⟨m, loaded, spread_iff run, spread_iff_of_plain run, kept_of_spread run⟩

def keywordText : String :=
  "<schema><entity name=\"Match\"/><enum name=\"self\"><value name=\"A\"/></enum></schema>"

theorem keywordText_written :
    ∃ tree d, generateText keywordText = .ok tree ∧ tree.Spread ∧
      Disk.empty.performAll (tree.actions "out") = (.ok (), d) ∧
      ∀ f ∈ tree.writtenFiles, d.readText (Path.join "out" f.1) = .ok f.2 := by
  have writes : ((generateText keywordText).toOption.any fun tree =>
      (Disk.empty.performAll (tree.actions "out")).1 = .ok ()) = true := by decide +kernel
  have names : (Model.ofText keywordText).toOption.map Model.names = some ["Match", "self"] := by
    decide +kernel
  obtain ⟨tree, generated, writes⟩ := (Option.any_eq_true _ _).mp writes
  have run := eq_ok_of_toOption generated
  obtain ⟨m, loaded, _, plain, kept⟩ := generateText_written run
  have names : m.names = ["Match", "self"] := by
    rw [loaded] at names
    exact Option.some.inj names
  have spread : tree.Spread := by
    rw [plain (by rw [names]; decide +kernel), names]
    decide +kernel
  have written : Disk.empty.performAll (tree.actions "out") =
      (.ok (), (Disk.empty.performAll (tree.actions "out")).2) :=
    Prod.ext (of_decide_eq_true writes) rfl
  exact ⟨tree, _, run, spread, written, kept spread _ _ _ written⟩

theorem exists_not_spread {text : String} {names : List String}
    (generates : (generateText text).toOption.isSome = true)
    (named : (Model.ofText text).toOption.map Model.names = some names)
    (clash : ¬ ((∀ a ∈ names, InModel (itemPath a)) ∧
      (names.map fun a => Path.normal? (itemPath a)).Nodup)) :
    ∃ tree, generateText text = .ok tree ∧ ¬ tree.Spread := by
  obtain ⟨tree, some⟩ := Option.isSome_iff_exists.mp generates
  have run := eq_ok_of_toOption some
  obtain ⟨m, loaded, generated⟩ := generateText_eq_ok run
  have same : m.names = names := by
    rw [loaded] at named
    exact Option.some.inj named
  refine ⟨tree, run, fun spread => clash ?_⟩
  rw [← same]
  exact (spread_iff generated).mp spread

theorem clashing_items_generated :
    (∃ tree, generateText "<schema><entity name=\"Mod\"/></schema>" = .ok tree ∧
      ¬ tree.Spread) ∧
    (∃ tree, generateText "<schema><entity name=\"a\"/><entity name=\"r#a\"/></schema>" =
      .ok tree ∧ ¬ tree.Spread) ∧
    ∃ tree, generateText "<schema><entity name=\"../orm\"/></schema>" = .ok tree ∧
      ¬ tree.Spread := by
  refine ⟨?_, ?_, ?_⟩
  · refine @exists_not_spread _ ["Mod"] (by decide +kernel) (by decide +kernel) ?_
    rintro ⟨inside, _⟩
    obtain ⟨first, rest, place, other⟩ := inside "Mod" List.mem_cons_self
    have isMod : Path.normal? (itemPath "Mod") = some ["model", "mod.rs"] := by decide +kernel
    rw [isMod] at place
    cases place
    exact other rfl
  · refine @exists_not_spread _ ["a", "r#a"] (by decide +kernel) (by decide +kernel) ?_
    rintro ⟨_, distinct⟩
    exact absurd distinct (by decide +kernel)
  · refine @exists_not_spread _ ["../orm"] (by decide +kernel) (by decide +kernel) ?_
    rintro ⟨inside, _⟩
    obtain ⟨first, rest, place, _⟩ := inside "../orm" List.mem_cons_self
    have isOrm : Path.normal? (itemPath "../orm") = some ["orm.rs"] := by decide +kernel
    simp [isOrm] at place

end DataLayer.Code
