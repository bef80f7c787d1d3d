import DataLayer.Proofs.Storage.Sights

/- A directory that is emptied before files are written below it. Nothing that was below it is seen
   afterwards if its path finds it. A path that leads through a directory and out of it again may
   miss it: where the one that it leads through is not there yet, nothing is emptied, and all that
   was there stays unless it is written over. -/
namespace DataLayer.Storage
open Outcome

namespace Disk

section Cut
variable (d : Disk) (place : List String) (left : Nat)

theorem working_cut : (d.cut place left).working = d.working := by
  unfold cut
  split <;> rfl

theorem sight?_cut : (d.cut place left).sight? = d.sight? := by
  unfold cut
  split <;> rfl

end Cut

structure Cleared (place : List String) (d e : Disk) : Prop where
  working : e.working = d.working
  below : ∀ name rest, e.sight? (place ++ name :: rest) = none
  outside : ∀ other, ¬ place <+: other → e.sight? other = d.sight? other

theorem cleared_of_free {d : Disk} {place : List String}
    (free : ∀ inside, d.entry? place ≠ some (.directory inside)) : Cleared place d d :=
  ⟨rfl, fun _ _ => Directory.sight?_append_eq_none free, fun _ _ => rfl⟩

theorem Cleared.cut {place : List String} {d e : Disk} (cleared : Cleared place d e)
    (other : List String) (left : Nat) : Cleared place d (e.cut other left) := by
  constructor
  · rw [working_cut, cleared.working]
  · intro name rest
    rw [sight?_cut, cleared.below]
  · intro other outside
    rw [sight?_cut, cleared.outside other outside]

theorem cleared_clear {d : Disk} {p : Position} {inside : Directory} (attached : p.lost = 0)
    (there : d.entry? p.place = some (.directory inside)) : Cleared p.place d (d.clear p) := by
  have emptied : Cleared p.place d (d.alter p.place fun _ => .empty) :=
    ⟨rfl, fun _ _ => Directory.sight?_alter_append there _ _,
      fun _ outside => Directory.sight?_alter_of_not_prefix _ outside⟩
  rw [clear, if_pos attached]
  exact emptied.cut _ _

theorem Cleared.erase {d e : Disk} {place : List String} (cleared : Cleared place d e)
    (there : e.sight? place = some .directory) : Cleared place d (e.erase place) := by
  obtain ⟨inside, there⟩ := sight?_eq_directory.mp there
  rcases List.eq_nil_or_concat place with rfl | ⟨above, name, rfl⟩
  · exact cleared
  · rw [List.concat_eq_append] at cleared there ⊢
    obtain ⟨between, found⟩ := Directory.exists_directory_above there
    have inner : ∀ rest, Disk.sight? (e.alter above (·.erase name)) (above ++ rest) =
        if [name] <+: rest then none else between.sight? rest := fun rest => by
      rw [sight?, alter, Directory.sight?_alter_append found, Directory.sight?_erase]
    have removed : Cleared (above ++ [name]) d (e.alter above (·.erase name)) := by
      refine ⟨cleared.working, fun n rest => ?_, fun other outside => ?_⟩
      · rw [List.append_assoc, inner, if_pos (List.prefix_append _ _)]
      · rw [← cleared.outside other outside]
        by_cases below : above <+: other
        · obtain ⟨rest, rfl⟩ := below
          have differs : ¬ [name] <+: rest := fun leads =>
            outside ((List.prefix_append_right_inj above).mpr leads)
          rw [inner, if_neg differs]
          exact (congrArg (·.map Entry.sight) (Directory.find?_append found rest)).symm
        · exact Directory.sight?_alter_of_not_prefix _ below
    rw [Disk.erase, List.getLast?_concat]
    simp only [List.dropLast_concat]
    exact removed.cut _ _

theorem removeTree_cleared {d : Disk} {path : String} {p : Position}
    (leads : d.locate path = .ok p) (attached : p.lost = 0) :
    Cleared p.place d (d.removeTree path).2 := by
  unfold removeTree
  rw [leads]
  simp only [at?_of_lost_eq_zero attached]
  split
  · rename_i absent
    exact cleared_of_free (by simp [absent])
  · rename_i isFile
    exact cleared_of_free (by simp [isFile])
  · rename_i inside there
    have cleared := cleared_clear attached there
    split
    · exact cleared
    · rename_i other _ again _
      have same : other.place = p.place := by
        rw [← placeFrom_of_locate again, ← placeFrom_of_locate leads, cleared.working]
      have emptied : (d.clear p).sight? p.place = some .directory := by
        rw [clear, if_pos attached, sight?_cut]
        exact sight?_eq_directory.mpr ⟨_, Directory.find?_alter there⟩
      rw [same]
      exact cleared.erase emptied
    · exact cleared

theorem lost_eq_zero_of_locate {d : Disk} {path text : String} {p : Position}
    (leads : d.locate path = .ok p) (named : (Path.parts path).getLast? = some (.name text)) :
    p.lost = 0 := by
  obtain ⟨_, _, walked⟩ := locate_eq_ok.mp leads
  obtain ⟨front, parted⟩ := List.getLast?_eq_some_iff.mp named
  rw [parted, walk_concat_eq_ok] at walked
  obtain ⟨base, _, stepped⟩ := walked
  obtain ⟨⟨_, attached, _⟩, rfl⟩ := step_eq_ok.mp stepped
  exact attached

theorem removeTree_of_lost {d : Disk} {path : String} {p : Position}
    (leads : d.locate path = .ok p) (gone : p.lost ≠ 0) :
    ∃ last, d.removeTree path = (.error (refusal last), d) := by
  have empty : d.at? p = some (.directory .empty) := if_neg gone
  have same : d.clear p = d := if_neg gone
  unfold removeTree
  rw [leads]
  simp only [empty, same]
  split
  · rename_i failed
    rw [leads] at failed
    contradiction
  · rename_i again named
    rw [leads] at again
    exact absurd (lost_eq_zero_of_locate leads named) gone
  · exact ⟨_, rfl⟩

theorem refusal_ne_notFound (last : Option Part) : refusal last ≠ .notFound := by
  rcases last with _ | _ | _ | _ | _ <;> simp [refusal]

theorem removeTree_of_locate_error {d : Disk} {path : String} {f : Fault}
    (failed : d.locate path = .error f) : d.removeTree path = (.error f, d) := by
  rw [removeTree, failed]

theorem reset_eq_ok {d e : Disk} {root : String} (run : d.reset root = (.ok (), e)) :
    ((d.removeTree root).1 = .ok () ∨ (d.removeTree root).1 = .error .notFound) ∧
      (d.removeTree root).2.makeDirectories root = (.ok (), e) := by
  unfold reset at run
  split at run
  · rename_i removed
    rw [removed]
    exact ⟨.inl rfl, run⟩
  · rename_i removed
    rw [removed]
    exact ⟨.inr rfl, run⟩
  · rename_i failed _
    exact absurd run (failed () e)

/-- A path that leads nowhere is not the path of a directory. -/
def Finds (d : Disk) (path : String) : Prop :=
  d.locate path = .error .notFound →
    ∀ inside, d.entry? (Path.placeFrom d.working path) ≠ some (.directory inside)

section Reset
variable {d e : Disk} {root : String} (run : d.reset root = (.ok (), e))
include run

theorem exists_cleared_of_reset (finds : d.Finds root) :
    ∃ clean, Cleared (Path.placeFrom d.working root) d clean ∧
      clean.makeDirectories root = (.ok (), e) := by
  obtain ⟨result, made⟩ := reset_eq_ok run
  refine ⟨_, ?_, made⟩
  cases located : d.locate root with
  | ok p =>
    by_cases attached : p.lost = 0
    · rw [placeFrom_of_locate located]
      exact removeTree_cleared located attached
    · obtain ⟨last, refused⟩ := removeTree_of_lost located attached
      rw [refused] at result
      rcases result with result | result
      · contradiction
      · exact absurd (Except.error.inj result) (refusal_ne_notFound last)
  | error f =>
    rw [removeTree_of_locate_error located] at result ⊢
    rcases result with result | result
    · contradiction
    · cases result
      exact cleared_of_free (finds located)

theorem makeDirectories_of_reset (misses : ¬ d.Finds root) :
    d.makeDirectories root = (.ok (), e) := by
  have located : d.locate root = .error .notFound := by
    by_contra other
    exact misses fun located => absurd located other
  obtain ⟨_, made⟩ := reset_eq_ok run
  rwa [removeTree_of_locate_error located] at made

end Reset

theorem steps_of_makeFrom {d e : Disk} {p : Position} {made : Bool} {parts : List Part}
    (run : d.makeFrom p made parts = (.ok (), e)) :
    parts.foldlM e.step p = .ok (parts.foldl Position.follow p) := by
  induction parts generalizing d p made with
  | nil => rfl
  | cons part rest ih =>
    have keeps := makeFrom_keeps run
    obtain ⟨next, stepped, taken⟩ := exists_step_of_makeFrom run
    rw [List.foldl_cons, (step_eq_ok.mp stepped).2, List.foldlM_cons]
    rcases taken with ⟨_, run⟩ | ⟨_, run⟩
    · exact bind_ok (step_of_keeps keeps stepped) (ih run)
    · exact bind_ok (step_of_keeps keeps stepped) (ih run)

theorem locate_of_makeDirectories {d e : Disk} {path : String} (nonempty : Path.parts path ≠ [])
    (run : d.makeDirectories path = (.ok (), e)) : ∃ p, e.locate path = .ok p := by
  have keeps := makeDirectories_keeps run
  unfold makeDirectories at run
  split at run
  · simp at run
  · rename_i checked
    have walked := steps_of_makeFrom run
    rw [← keeps.start] at walked
    exact ⟨_, locate_eq_ok.mpr ⟨checked, nonempty, walked⟩⟩

end Disk

namespace Overlay

theorem mem_of_at? {o : Overlay} {place : List String} {s : Sight}
    (found : o.at? place = some s) : (place, s) ∈ o := by
  obtain ⟨before, after, parted, _⟩ := List.lookup_eq_some_iff.mp found
  rw [← List.mem_reverse, parted]
  exact List.mem_append_right _ List.mem_cons_self

theorem ofWay_directory {place other : List String} {parts : List Part} {s : Sight}
    (mem : (other, s) ∈ ofWay place parts) : s = .directory := by
  induction parts generalizing place with
  | nil => exact nomatch mem
  | cons part rest ih =>
    cases part with
    | here => exact ih mem
    | up => exact ih mem
    | root | name _ =>
      obtain ⟨_, _, same⟩ := List.mem_map.mp mem
      cases same
      rfl

def ofTree (working : List String) (root : String) (files : List (String × String)) : Overlay :=
  ofWay working (Path.parts root) ++
    files.flatMap fun f => ofFile working (Path.join root f.1) f.2.toUTF8

theorem at?_ofTree_of_last {working : List String} {root : String}
    {files : List (String × String)} {f : String × String} (last : files.getLast? = some f) :
    (ofTree working root files).at? (Path.placeFrom working (Path.join root f.1)) =
      some (.file f.2.toUTF8) := by
  obtain ⟨front, rfl⟩ := List.getLast?_eq_some_iff.mp last
  rw [ofTree, List.flatMap_append, List.flatMap_singleton, ofFile, ← List.append_assoc,
    ← List.append_assoc, at?_append, at?_singleton, if_pos rfl, Option.some_or]

theorem exists_file_of_at? {working place : List String} {root : String}
    {files : List (String × String)} {content : ByteArray}
    (found : (ofTree working root files).at? place = some (.file content)) :
    ∃ f ∈ files, Path.placeFrom working (Path.join root f.1) = place := by
  rcases List.mem_append.mp (mem_of_at? found) with mem | mem
  · exact nomatch ofWay_directory mem
  · obtain ⟨f, there, mem⟩ := List.mem_flatMap.mp mem
    rcases List.mem_append.mp mem with mem | mem
    · exact nomatch ofWay_directory mem
    · cases List.mem_singleton.mp mem
      exact ⟨f, there, rfl⟩

end Overlay

namespace Path

/-- A path that leads into no directory that it leads out of again, unless on its way out of the
    working directory. -/
def Direct (working : List String) (path : String) : Prop :=
  ∀ place ∈ working :: Overlay.way working (parts path),
    place <+: placeFrom working path ∨ place <+: working

instance (working : List String) (path : String) : Decidable (Direct working path) :=
  inferInstanceAs (Decidable (∀ place ∈ _, _))

theorem parts_ne_nil {path : String} (nonempty : path ≠ "") : parts path ≠ [] := by
  rw [parts_eq]
  split
  · exact List.cons_ne_nil _ _
  · rename_i relative
    have some : path.toList ≠ [] := by simpa using nonempty
    obtain ⟨c, rest, characters⟩ := List.exists_cons_of_ne_nil some
    rw [characters] at relative ⊢
    have notSlash : c ≠ '/' := by
      rintro rfl
      exact relative rfl
    obtain ⟨first, more, parted⟩ := List.exists_cons_of_ne_nil (split_ne_nil rest)
    have named : split (c :: rest) = (c :: first) :: more := by
      rw [split, if_neg notSlash, parted]
    simp [namedParts, named]

theorem check_ne_notFound (path : String) : check path ≠ .error .notFound := by
  unfold check
  split
  · simp
  · split <;> simp

end Path

namespace Disk

theorem hasDirectory_above {d : Disk} {p : Position} (attached : p.lost = 0)
    (there : d.HasDirectory p) : d.HasDirectory (p.follow .up) := by
  obtain ⟨inside, there⟩ := there
  obtain ⟨name, parted⟩ := List.dropLast_prefix p.place
  rw [at?_of_lost_eq_zero attached, ← parted] at there
  obtain ⟨above, found⟩ := Directory.exists_directory_above there
  have attachedAbove : (p.follow .up).lost = 0 := by simp [Position.follow, attached]
  exact ⟨above, (at?_of_lost_eq_zero attachedAbove).trans found⟩

/-- Of steps that begin where nothing is gone, only one from nowhere finds nothing. -/
theorem absent_of_step {d : Disk} {p : Position} {part : Part} (attached : p.lost = 0)
    (failed : d.step p part = .error .notFound) : d.entry? p.place = none := by
  cases found : d.entry? p.place with
  | none => rfl
  | some entry =>
    have here : d.at? p = some entry := (at?_of_lost_eq_zero attached).trans found
    unfold step at failed
    cases entry with
    | file content => cases part <;> simp [here] at failed
    | directory inside =>
      obtain ⟨other, there⟩ := hasDirectory_above attached ⟨inside, here⟩
      cases part with
      | root | here => simp [here] at failed
      | up => simp [here, there] at failed
      | name text =>
        simp only [here, attached, ne_eq, not_true_eq_false, if_false] at failed
        split at failed <;> simp at failed

theorem absent_of_steps {d : Disk} {p : Position} {parts : List Part} (attached : p.lost = 0)
    (failed : parts.foldlM d.step p = .error .notFound) :
    ∃ missing ∈ p.place :: Overlay.way p.place parts, d.entry? missing = none := by
  induction parts generalizing p with
  | nil => contradiction
  | cons part rest ih =>
    rw [List.foldlM_cons] at failed
    cases stepped : d.step p part with
    | ok next =>
      rw [stepped] at failed
      obtain ⟨missing, mem, absent⟩ := ih (lost_eq_zero_of_step attached stepped) failed
      rw [← (step_eq_ok.mp stepped).2, Position.place_follow] at mem
      exact ⟨missing, List.mem_cons_of_mem _ mem, absent⟩
    | error f =>
      rw [stepped] at failed
      cases failed
      exact ⟨p.place, List.mem_cons_self, absent_of_step attached stepped⟩

theorem finds_of_direct {d : Disk} {path : String} {inside : Directory} (nonempty : path ≠ "")
    (attached : d.lost = 0) (working : d.entry? d.working = some (.directory inside))
    (direct : Path.Direct d.working path) : d.Finds path := by
  intro failed other there
  have walked : d.walk (Path.parts path) = .error .notFound := by
    rw [locate] at failed
    cases checked : Path.check path with
    | error f =>
      rw [checked] at failed
      cases failed
      exact absurd checked (Path.check_ne_notFound path)
    | ok _ =>
      rw [checked] at failed
      obtain ⟨part, rest, parted⟩ := List.exists_cons_of_ne_nil (Path.parts_ne_nil nonempty)
      rw [parted] at failed ⊢
      exact failed
  obtain ⟨missing, mem, absent⟩ := @absent_of_steps d d.start _ attached walked
  rcases direct missing mem with ⟨rest, leads⟩ | ⟨rest, leads⟩
  · rw [← leads] at there
    obtain ⟨above, found⟩ := Directory.exists_directory_above there
    exact nomatch absent.symm.trans found
  · rw [← leads] at working
    obtain ⟨above, found⟩ := Directory.exists_directory_above working
    exact nomatch absent.symm.trans found

section Below
variable {d e : Disk} {root : String} {files : List (String × String)}
  (run : d.performAll (files.map fun f => .write (Path.join root f.1) f.2) = (.ok (), e))
include run

theorem performAll_below_overlaid :
    Overlaid (files.flatMap fun f => Overlay.ofFile d.working (Path.join root f.1) f.2.toUTF8)
      d e := by
  have actions : (files.map fun f => Action.write (Path.join root f.1) f.2) =
      (files.map fun f => (Path.join root f.1, f.2)).map fun f => .write f.1 f.2 := by
    rw [List.map_map]
    rfl
  rw [actions] at run
  have laid := performAll_overlaid run
  rwa [List.flatMap_map] at laid

theorem performAll_below_keeps : ∃ written, Keeps written d e := by
  induction files generalizing d with
  | nil =>
    cases run
    exact ⟨[], keeps_refl _⟩
  | cons f rest ih =>
    rw [List.map_cons, performAll] at run
    split at run
    · rename_i between written
      obtain ⟨others, kept⟩ := ih run
      exact ⟨_, (writeFile_eq_ok written).1.trans kept⟩
    · rename_i failed
      exact absurd run (failed () e)

end Below

section Replace
variable {d e : Disk} {root : String} {files : List (String × String)}
  (run : d.performAll (.reset root :: files.map fun f => .write (Path.join root f.1) f.2) =
    (.ok (), e))
include run

theorem exists_reset :
    ∃ made, d.reset root = (.ok (), made) ∧
      made.performAll (files.map fun f => .write (Path.join root f.1) f.2) = (.ok (), e) := by
  rw [performAll] at run
  split at run
  · rename_i made reset
    exact ⟨made, reset, run⟩
  · rename_i failed
    exact absurd run (failed () e)

theorem overlaid_of_finds (finds : d.Finds root) :
    ∃ clean, Cleared (Path.placeFrom d.working root) d clean ∧
      Overlaid (Overlay.ofTree d.working root files) clean e := by
  obtain ⟨made, reset, written⟩ := exists_reset run
  obtain ⟨clean, cleared, grown⟩ := exists_cleared_of_reset reset finds
  have way := makeDirectories_overlaid grown
  have laid := performAll_below_overlaid written
  rw [way.working, cleared.working] at laid
  rw [cleared.working] at way
  exact ⟨clean, cleared, way.trans laid⟩

theorem overlaid_of_not_finds (misses : ¬ d.Finds root) :
    Overlaid (Overlay.ofTree d.working root files) d e := by
  obtain ⟨made, reset, written⟩ := exists_reset run
  have way := makeDirectories_overlaid (makeDirectories_of_reset reset misses)
  have laid := performAll_below_overlaid written
  rw [way.working] at laid
  exact way.trans laid

theorem working_of_performAll_reset : e.working = d.working := by
  by_cases finds : d.Finds root
  · obtain ⟨clean, cleared, laid⟩ := overlaid_of_finds run finds
    exact laid.working.trans cleared.working
  · exact (overlaid_of_not_finds run finds).working

theorem directory_after {f : String × String} {name : String} {rest : List String}
    (last : files.getLast? = some f) (inside : Path.normal? f.1 = some (name :: rest)) :
    e.sight? (Path.placeFrom d.working root) = some .directory := by
  have shown : e.sight? (Path.placeFrom d.working root ++ name :: rest) =
      some (.file f.2.toUTF8) := by
    rw [← Path.placeFrom_join inside]
    have found := @Overlay.at?_ofTree_of_last d.working root files f last
    by_cases finds : d.Finds root
    · obtain ⟨clean, _, laid⟩ := overlaid_of_finds run finds
      rw [laid.sights, found, Option.some_or]
    · rw [(overlaid_of_not_finds run finds).sights, found, Option.some_or]
  by_contra free
  have unseen : e.sight? (Path.placeFrom d.working root ++ name :: rest) = none :=
    Directory.sight?_append_eq_none fun inside taken =>
      free (sight?_eq_directory.mpr ⟨inside, taken⟩)
  rw [unseen] at shown
  contradiction

theorem finds_after (nonempty : Path.parts root ≠ []) : e.Finds root := by
  obtain ⟨made, reset, written⟩ := exists_reset run
  obtain ⟨_, grown⟩ := reset_eq_ok reset
  obtain ⟨p, leads⟩ := locate_of_makeDirectories nonempty grown
  obtain ⟨_, keeps⟩ := performAll_below_keeps written
  have located := locate_of_keeps keeps leads
  intro failed
  rw [located] at failed
  contradiction

end Replace

-- the working directory as the root, made anew beside the one that is gone
example :
    let (result, after) := Disk.empty.reset "../work"
    result = .ok () ∧ after.start = ⟨["work"], 1⟩ ∧ after.locate "../work" = .ok ⟨["work"], 0⟩ := by
  decide +kernel

end Disk

end DataLayer.Storage
