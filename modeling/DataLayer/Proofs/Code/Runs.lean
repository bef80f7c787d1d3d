import DataLayer.Command
import DataLayer.Proofs.Code.LinkClosure
import DataLayer.Proofs.Storage.Replacing

/- A run of the generator as a whole. Nothing is touched unless there is a tree to write, and what
   is seen below the root afterwards follows from the tree alone, provided that the path of the
   root finds what is there. After a run it always does. -/
namespace DataLayer

/-- What a tree shows at a place below its root. -/
def Code.Tree.shows? (t : Code.Tree) (working : List String) (root : String)
    (place : List String) : Option Storage.Sight :=
  (Storage.Overlay.ofTree working root t.writtenFiles).at?
    (Storage.Path.placeFrom working root ++ place)

namespace Command
open Schema Code Storage Settings Outcome

theorem load_eq_ok {read : Except Storage.Fault String} {m : Model} :
    Model.load read = .ok m ↔
      ∃ text, read = .ok text ∧ Model.ofText text = .ok m ∧ m.validate = .ok () := by
  unfold Model.load
  cases read with
  | error f => simp [Model.ofFile, throw_ne_ok]
  | ok text =>
    simp only [Model.ofFile, Except.ok.injEq, exists_eq_left']
    cases Model.ofText text with
    | error f => simp [throw_ne_ok]
    | ok given =>
      constructor
      · intro run
        obtain ⟨_, valid, same⟩ := bind_eq_ok.mp run
        cases pure_eq_ok.mp same
        exact ⟨rfl, valid⟩
      · rintro ⟨same, valid⟩
        cases same
        exact bind_ok valid rfl

theorem treeOf_eq_ok {read : Except Storage.Fault String} {tree : Tree} :
    treeOf read = .ok tree ↔ ∃ text, read = .ok text ∧ generateText text = .ok tree := by
  constructor
  · intro run
    obtain ⟨m, asked, run⟩ := bind_eq_ok.mp run
    obtain ⟨text, given, loaded⟩ := load_eq_ok.mp (ofModel_eq_ok.mp asked)
    exact ⟨text, given, generateText_eq_ok_iff.mpr ⟨m, loaded, run⟩⟩
  · rintro ⟨text, given, run⟩
    obtain ⟨m, loaded, run⟩ := generateText_eq_ok_iff.mp run
    exact bind_ok (ofModel_eq_ok.mpr (load_eq_ok.mpr ⟨text, given, loaded⟩)) run

theorem run_eq_ok {l : Locations} {d e : Disk} {tree : Tree} :
    run l d = (.ok tree, e) ↔ treeOf (d.readText l.schema) = .ok tree ∧
      d.performAll (tree.actions l.output) = (.ok (), e) := by
  unfold run
  cases treeOf (d.readText l.schema) with
  | error f => simp
  | ok given =>
    simp only [Except.ok.injEq]
    split
    · rename_i f after failed
      constructor
      · intro same
        simp at same
      · rintro ⟨rfl, written⟩
        simp [failed] at written
    · rename_i after written
      constructor
      · intro same
        cases same
        exact ⟨rfl, written⟩
      · rintro ⟨rfl, again⟩
        rw [written] at again
        cases again
        rfl

theorem file_of_readText {d : Disk} {path text : String} (read : d.readText path = .ok text) :
    ∃ content, d.sight? (Path.placeFrom d.working path) = some (.file content) ∧
      String.fromUTF8? content = some text := by
  unfold Disk.readText at read
  obtain ⟨p, leads, read⟩ := bind_eq_ok.mp read
  rw [Disk.placeFrom_of_locate leads]
  split at read
  · exact absurd read throw_ne_ok
  · exact absurd read throw_ne_ok
  · rename_i content there
    refine ⟨content, Disk.sight?_eq_file.mpr (Disk.entry?_of_at? there (by simp)), ?_⟩
    cases decoded : String.fromUTF8? content with
    | none =>
      simp only [decoded] at read
      split at read <;> contradiction
    | some given =>
      simp only [decoded] at read
      split at read
      · contradiction
      · rw [pure_eq_ok.mp read]

section Run
variable {l : Locations} {d e : Disk} {tree : Tree} (written : run l d = (.ok tree, e))
include written

theorem performs_of_run : d.performAll (.reset l.output ::
    tree.writtenFiles.map fun f => .write (Path.join l.output f.1) f.2) = (.ok (), e) :=
  (run_eq_ok.mp written).2

theorem working_of_run : e.working = d.working :=
  Disk.working_of_performAll_reset (performs_of_run written)

theorem root_of_run : e.sight? (Path.placeFrom d.working l.output) = some .directory := by
  have last : tree.writtenFiles.getLast? = some ("mod.rs", tree.rootModule) := by
    rw [Tree.writtenFiles, List.getLast?_append_cons]
    rfl
  have inside : Path.normal? "mod.rs" = some ["mod.rs"] := by decide +kernel
  exact Disk.directory_after (performs_of_run written) last inside

theorem contents_of_run (finds : d.Finds l.output) (name : String) (rest : List String) :
    e.sight? (Path.placeFrom d.working l.output ++ name :: rest) =
      tree.shows? d.working l.output (name :: rest) := by
  obtain ⟨clean, cleared, laid⟩ := Disk.overlaid_of_finds (performs_of_run written) finds
  rw [laid.sights, cleared.below, Option.or_none]
  rfl

theorem outside_of_run {place : List String}
    (outside : ¬ Path.placeFrom d.working l.output <+: place) :
    e.sight? place = ((Overlay.ofTree d.working l.output tree.writtenFiles).at? place).or
      (d.sight? place) := by
  by_cases finds : d.Finds l.output
  · obtain ⟨clean, cleared, laid⟩ := Disk.overlaid_of_finds (performs_of_run written) finds
    rw [laid.sights, cleared.outside place outside]
  · exact (Disk.overlaid_of_not_finds (performs_of_run written) finds).sights place

theorem readText_of_run {text : String}
    (outside : ¬ Path.placeFrom d.working l.output <+: Path.placeFrom d.working l.schema)
    (kept : ∀ f ∈ tree.writtenFiles, Path.placeFrom d.working (Path.join l.output f.1) ≠
      Path.placeFrom d.working l.schema)
    (again : e.readText l.schema = .ok text) : d.readText l.schema = .ok text := by
  obtain ⟨before, read, _⟩ := treeOf_eq_ok.mp (run_eq_ok.mp written).1
  obtain ⟨old, there, decoded⟩ := file_of_readText read
  obtain ⟨new, here, decodedAgain⟩ := file_of_readText again
  have seen := outside_of_run written outside
  rw [working_of_run written] at here
  rw [here, there] at seen
  cases hidden : (Overlay.ofTree d.working l.output tree.writtenFiles).at?
      (Path.placeFrom d.working l.schema) with
  | none =>
    rw [hidden] at seen
    cases seen
    cases decoded.symm.trans decodedAgain
    exact read
  | some s =>
    rw [hidden] at seen
    cases seen
    obtain ⟨f, mem, same⟩ := Overlay.exists_file_of_at? hidden
    exact absurd same (kept f mem)

end Run

structure Replaced (l : Locations) (d e : Disk) (tree : Tree) : Prop where
  generated : ∃ text, d.readText l.schema = .ok text ∧ generateText text = .ok tree
  root : e.sight? (Path.placeFrom d.working l.output) = some .directory
  contents : d.Finds l.output → ∀ name rest,
    e.sight? (Path.placeFrom d.working l.output ++ name :: rest) =
      tree.shows? d.working l.output (name :: rest)
  /-- A root that is missed keeps all that is not written over. -/
  missed : ¬ d.Finds l.output → ∀ name rest,
    e.sight? (Path.placeFrom d.working l.output ++ name :: rest) =
      (tree.shows? d.working l.output (name :: rest)).or
        (d.sight? (Path.placeFrom d.working l.output ++ name :: rest))
  found : e.Finds l.output
  /-- The next run changes nothing below a root that was found. -/
  again : ¬ Path.placeFrom d.working l.output <+: Path.placeFrom d.working l.schema →
    (∀ f ∈ tree.writtenFiles, Path.placeFrom d.working (Path.join l.output f.1) ≠
      Path.placeFrom d.working l.schema) →
    ∀ next after, run l e = (.ok next, after) → next = tree ∧ (d.Finds l.output →
      ∀ place, after.sight? (Path.placeFrom d.working l.output ++ place) =
        e.sight? (Path.placeFrom d.working l.output ++ place))

theorem replaced_of_run {l : Locations} {d e : Disk} {tree : Tree} (named : l.output ≠ "")
    (written : run l d = (.ok tree, e)) : Replaced l d e tree := by
  have performs := performs_of_run written
  have found := Disk.finds_after performs (Path.parts_ne_nil named)
  obtain ⟨text, read, generated⟩ := treeOf_eq_ok.mp (run_eq_ok.mp written).1
  refine ⟨⟨text, read, generated⟩, root_of_run written, contents_of_run written, ?_, found, ?_⟩
  · intro misses name rest
    exact (Disk.overlaid_of_not_finds performs misses).sights _
  · intro outside kept next after rerun
    have working := working_of_run written
    obtain ⟨other, readAgain, generatedAgain⟩ := treeOf_eq_ok.mp (run_eq_ok.mp rerun).1
    have sameText := readText_of_run written outside kept readAgain
    rw [read] at sameText
    cases sameText
    rw [generated] at generatedAgain
    cases generatedAgain
    refine ⟨rfl, fun finds place => ?_⟩
    cases place with
    | nil =>
      have rootAgain := root_of_run rerun
      rw [working] at rootAgain
      rw [List.append_nil, root_of_run written, rootAgain]
    | cons name rest =>
      have contents := contents_of_run rerun found name rest
      rw [working] at contents
      rw [contents, contents_of_run written finds]

/-- Nothing is touched by a run that has no tree to write. One that succeeds leaves below its root
    what follows from the tree, unless its path leads through something that is not there and then
    back to a root that is. -/
theorem run_replaces (l : Locations) (d : Disk) (named : l.output ≠ "") :
    ((∀ text tree, d.readText l.schema = .ok text → generateText text ≠ .ok tree) →
      ∃ f, run l d = (.error f, d)) ∧
    (∀ inside, d.lost = 0 → d.entry? d.working = some (.directory inside) →
      Path.Direct d.working l.output → d.Finds l.output) ∧
    ∀ tree e, run l d = (.ok tree, e) → Replaced l d e tree := by
  refine ⟨fun none => ?_, fun inside => Disk.finds_of_direct named, fun tree e =>
    replaced_of_run named⟩
  cases asked : treeOf (d.readText l.schema) with
  | error f =>
    refine ⟨f, ?_⟩
    rw [run, asked]
  | ok tree =>
    obtain ⟨text, read, generated⟩ := treeOf_eq_ok.mp asked
    exact absurd generated (none text tree read)

def entityText : String := "<schema><entity name=\"A\"/></schema>"

def staleDisk : Disk where
  root := .withDirectory "work"
    (.withFile "schema.xml" entityText.toUTF8
      (.withDirectory "generated" (.withFile "stale.rs" "// stale".toUTF8 .empty) .empty)) .empty
  working := ["work"]

def freshDisk : Disk where
  root := .withDirectory "work" (.withFile "schema.xml" entityText.toUTF8 .empty) .empty
  working := ["work"]

def staleFile : List String := ["work", "generated", "stale.rs"]

theorem staleDisk_holds : staleDisk.Holds "schema.xml" entityText.toUTF8 :=
  ⟨eq_ok_of_toOption (by decide +kernel), by decide +kernel, rfl⟩

theorem freshDisk_holds : freshDisk.Holds "schema.xml" entityText.toUTF8 :=
  ⟨eq_ok_of_toOption (by decide +kernel), by decide +kernel, rfl⟩

theorem run_of_holds {l : Locations} {d : Disk} {text : String} {tree : Tree}
    (holds : d.Holds l.schema text.toUTF8) (generated : generateText text = .ok tree)
    (writes : (d.performAll (tree.actions l.output)).1 = .ok ()) :
    run l d = (.ok tree, (d.performAll (tree.actions l.output)).2) :=
  run_eq_ok.mpr ⟨treeOf_eq_ok.mpr ⟨text, holds.readText, generated⟩, Prod.ext writes rfl⟩

theorem holds_of_run {l : Locations} {d e : Disk} {tree : Tree} {path : String}
    {content : ByteArray} (written : run l d = (.ok tree, e)) (holds : d.Holds path content)
    (outside : ¬ Path.placeFrom d.working l.output <+: Path.placeFrom d.working path)
    (free : ((Overlay.ofTree d.working l.output tree.writtenFiles).at?
      (Path.placeFrom d.working path)).isNone = true)
    (leads : e.locate path = .ok ⟨Path.placeFrom d.working path, 0⟩) : e.Holds path content := by
  have seen := outside_of_run written outside
  rw [Option.isNone_iff_eq_none.mp free, Disk.sight?_eq_file.mpr holds.file] at seen
  have working := working_of_run written
  exact ⟨working ▸ leads, holds.named, working ▸ Disk.sight?_eq_file.mp seen⟩

/-- Two runs, one after the other, that both write everything and leave the schema alone. -/
def RunsTwice (l : Locations) (d : Disk) (tree : Tree) : Prop :=
  let first := d.performAll (tree.actions l.output)
  let schema := Path.placeFrom d.working l.schema
  first.1 = .ok () ∧ (first.2.performAll (tree.actions l.output)).1 = .ok () ∧
    first.2.locate l.schema = .ok ⟨schema, 0⟩ ∧
    ((Overlay.ofTree d.working l.output tree.writtenFiles).at? schema).isNone = true ∧
    ∀ f ∈ tree.writtenFiles, Path.placeFrom d.working (Path.join l.output f.1) ≠ schema

instance (l : Locations) (d : Disk) (tree : Tree) : Decidable (RunsTwice l d tree) :=
  inferInstanceAs (Decidable (_ ∧ _))

theorem runs_of_runsTwice {l : Locations} {d : Disk} {text : String} {tree : Tree}
    (twice : RunsTwice l d tree) (holds : d.Holds l.schema text.toUTF8)
    (outside : ¬ Path.placeFrom d.working l.output <+: Path.placeFrom d.working l.schema)
    (generated : generateText text = .ok tree) :
    run l d = (.ok tree, (d.performAll (tree.actions l.output)).2) ∧
      run l (d.performAll (tree.actions l.output)).2 = (.ok tree,
        ((d.performAll (tree.actions l.output)).2.performAll (tree.actions l.output)).2) := by
  obtain ⟨first, second, leads, free, _⟩ := twice
  have written := run_of_holds holds generated first
  exact ⟨written, run_of_holds (holds_of_run written holds outside free leads) generated second⟩

def plainly : Locations := { schema := "schema.xml", output := "generated" }

def roundabout : Locations := { schema := "schema.xml", output := "build/../generated" }

theorem staleDisk_replaced :
    staleDisk.Finds plainly.output ∧ (staleDisk.sight? staleFile).isSome = true ∧
      ∃ tree e next, run plainly staleDisk = (.ok tree, e) ∧ e.sight? staleFile = none ∧
        run plainly e = (.ok tree, next) ∧
        ∀ place, next.sight? (["work", "generated"] ++ place) =
          e.sight? (["work", "generated"] ++ place) := by
  have evaluated : ((generateText entityText).toOption.any fun tree =>
      decide (RunsTwice plainly staleDisk tree ∧
        (tree.shows? ["work"] plainly.output ["stale.rs"]).isNone = true)) = true := by
    decide +kernel
  obtain ⟨tree, given, evaluated⟩ := (Option.any_eq_true _ _).mp evaluated
  obtain ⟨twice, unseen⟩ := of_decide_eq_true evaluated
  have outside : ¬ Path.placeFrom staleDisk.working plainly.output <+:
      Path.placeFrom staleDisk.working plainly.schema := by decide +kernel
  obtain ⟨_, _, _, _, kept⟩ := id twice
  obtain ⟨written, rerun⟩ :=
    runs_of_runsTwice twice staleDisk_holds outside (eq_ok_of_toOption given)
  obtain ⟨_, direct, replaced⟩ := run_replaces plainly staleDisk (by decide)
  have finds : staleDisk.Finds plainly.output := direct _ rfl rfl (by decide +kernel)
  have replaced := replaced tree _ written
  have root : Path.placeFrom staleDisk.working plainly.output = ["work", "generated"] := by
    decide +kernel
  have contents := replaced.contents finds "stale.rs" []
  have again := (replaced.again outside kept tree _ rerun).2 finds
  rw [root] at contents again
  refine ⟨finds, rfl, tree, _, _, written, ?_, rerun, again⟩
  exact contents.trans (Option.isNone_iff_eq_none.mp unseen)

/-- Whether a file was below the root before the first run is seen after it, and the second run
    changes the root again. -/
theorem roundabout_root_keeps_stale_file :
    ∃ tree e f next, run roundabout staleDisk = (.ok tree, e) ∧
      run roundabout freshDisk = (.ok tree, f) ∧ run roundabout e = (.ok tree, next) ∧
      (e.sight? staleFile).isSome = true ∧ (f.sight? staleFile).isNone = true ∧
      (next.sight? staleFile).isNone = true := by
  have evaluated : ((generateText entityText).toOption.any fun tree =>
      let first := staleDisk.performAll (tree.actions roundabout.output)
      let fresh := freshDisk.performAll (tree.actions roundabout.output)
      let second := first.2.performAll (tree.actions roundabout.output)
      decide (RunsTwice roundabout staleDisk tree ∧ fresh.1 = .ok () ∧
        (first.2.sight? staleFile).isSome = true ∧ (fresh.2.sight? staleFile).isNone = true ∧
        (second.2.sight? staleFile).isNone = true)) = true := by
    decide +kernel
  obtain ⟨tree, given, evaluated⟩ := (Option.any_eq_true _ _).mp evaluated
  obtain ⟨twice, fresh, stays, unseen, gone⟩ := of_decide_eq_true evaluated
  have generated := eq_ok_of_toOption given
  have outside : ¬ Path.placeFrom staleDisk.working roundabout.output <+:
      Path.placeFrom staleDisk.working roundabout.schema := by decide +kernel
  obtain ⟨written, rerun⟩ := runs_of_runsTwice twice staleDisk_holds outside generated
  have alone := run_of_holds (l := roundabout) freshDisk_holds generated fresh
  exact ⟨tree, _, _, _, written, alone, rerun, stays, unseen, gone⟩

end Command

end DataLayer
