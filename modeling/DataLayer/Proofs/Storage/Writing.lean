import Mathlib.Data.List.Nodup
import DataLayer.Storage.Action
import DataLayer.Proofs.Storage.Paths

/- Files that are written one after another. A write makes directories where nothing is and puts a
   file where no directory is, so that it takes nothing away but the file that it overwrites. What
   is written to different places can therefore all be read back. -/
namespace DataLayer.Storage
open Outcome

theorem Position.place_follow (p : Position) (part : Part) :
    (p.follow part).place = part.follow p.place := by
  cases part <;> rfl

theorem Position.place_foldl_follow (p : Position) (parts : List Part) :
    (parts.foldl follow p).place = parts.foldl Part.follow p.place := by
  induction parts generalizing p with
  | nil => rfl
  | cons part rest ih => rw [List.foldl_cons, List.foldl_cons, ih, place_follow]

namespace Directory

theorem find?_cons_of_directory {d inside : Directory} {name : String}
    (there : d.child? name = some (.directory inside)) (rest : List String) :
    d.find? (name :: rest) = inside.find? rest := by
  rw [find?, there]

theorem exists_directory_between {d inside : Directory} {name : String} {rest : List String}
    (found : d.find? (name :: rest) = some (.directory inside)) :
    ∃ between, d.child? name = some (.directory between) ∧
      between.find? rest = some (.directory inside) := by
  rw [find?] at found
  split at found
  · rename_i between child
    exact ⟨between, child, found⟩
  · split at found <;> simp at found
  · contradiction

theorem exists_directory_or_file {d : Directory} {name : String} {rest : List String}
    {content : ByteArray} (found : d.find? (name :: rest) = some (.file content)) :
    (∃ between, d.child? name = some (.directory between)) ∨ rest = [] := by
  rw [find?] at found
  split at found
  · rename_i between child
    exact .inl ⟨between, child⟩
  · split at found
    · rename_i empty
      exact .inr (List.isEmpty_iff.mp empty)
    · contradiction
  · contradiction

theorem find?_append {d inside : Directory} {place : List String}
    (found : d.find? place = some (.directory inside)) (rest : List String) :
    d.find? (place ++ rest) = inside.find? rest := by
  induction place generalizing d with
  | nil =>
    cases found
    rfl
  | cons name place ih =>
    obtain ⟨between, child, found⟩ := exists_directory_between found
    rw [List.cons_append, find?_cons_of_directory child, ih found]

theorem exists_directory_above {d inside : Directory} {place rest : List String}
    (found : d.find? (place ++ rest) = some (.directory inside)) :
    ∃ above, d.find? place = some (.directory above) := by
  induction place generalizing d with
  | nil => exact ⟨d, rfl⟩
  | cons name place ih =>
    obtain ⟨between, child, found⟩ := exists_directory_between found
    rw [find?_cons_of_directory child]
    exact ih found

/-- No directory is lost, and no file but for those at the places that are written to. -/
structure Keeps (written : List (List String)) (d e : Directory) : Prop where
  directories : ∀ place inside, d.find? place = some (.directory inside) →
    ∃ grown, e.find? place = some (.directory grown)
  files : ∀ place content, place ∉ written → d.find? place = some (.file content) →
    e.find? place = some (.file content)

theorem keeps_refl (written : List (List String)) (d : Directory) : Keeps written d d :=
  ⟨fun _ inside found => ⟨inside, found⟩, fun _ _ _ found => found⟩

theorem Keeps.trans {written more : List (List String)} {d e f : Directory}
    (first : Keeps written d e) (second : Keeps more e f) : Keeps (written ++ more) d f := by
  constructor
  · intro place inside found
    obtain ⟨grown, between⟩ := first.directories place inside found
    exact second.directories place grown between
  · intro place content other found
    rw [List.mem_append, not_or] at other
    exact second.files place content other.2 (first.files place content other.1 found)

theorem find?_put_of_ne {name other : String} (differ : other ≠ name) (e : Entry) (d : Directory)
    (rest : List String) : (d.put name e).find? (other :: rest) = d.find? (other :: rest) := by
  rw [find?, find?, child?_put_of_ne differ]

theorem keeps_put {d : Directory} {name : String} (e : Entry)
    (free : ∀ inside, d.child? name ≠ some (.directory inside)) :
    Keeps [[name]] d (d.put name e) := by
  constructor
  · intro place inside found
    cases place with
    | nil => exact ⟨d.put name e, rfl⟩
    | cons n rest =>
      have differs : n ≠ name := by
        rintro rfl
        obtain ⟨between, child, _⟩ := exists_directory_between found
        exact free between child
      exact ⟨inside, find?_put_of_ne differs e d rest ▸ found⟩
  · intro place content other found
    cases place with
    | nil => simp [find?] at found
    | cons n rest =>
      -- A file behind the name would lie in a directory, and the one of that name is written.
      have differs : n ≠ name := by
        rintro rfl
        rcases exists_directory_or_file found with ⟨between, child⟩ | rfl
        · exact free between child
        · exact other List.mem_cons_self
      exact (find?_put_of_ne differs e d rest).trans found

theorem keeps_put_inside {d inside grown : Directory} {name : String}
    {written : List (List String)} (there : d.child? name = some (.directory inside))
    (keeps : Keeps written inside grown) :
    Keeps (written.map (name :: ·)) d (d.put name (.directory grown)) := by
  have before := find?_cons_of_directory there
  have now := find?_cons_of_directory (child?_put_self name (.directory grown) d)
  constructor
  · intro place x found
    cases place with
    | nil => exact ⟨d.put name (.directory grown), rfl⟩
    | cons n rest =>
      by_cases same : n = name
      · subst same
        rw [before] at found
        rw [now]
        exact keeps.directories rest x found
      · exact ⟨x, find?_put_of_ne same _ d rest ▸ found⟩
  · intro place content other found
    cases place with
    | nil => simp [find?] at found
    | cons n rest =>
      by_cases same : n = name
      · subst same
        rw [before] at found
        rw [now]
        have unwritten : rest ∉ written := fun mem => other (List.mem_map_of_mem mem)
        exact keeps.files rest content unwritten found
      · exact (find?_put_of_ne same _ d rest).trans found

theorem keeps_alter {d : Directory} {place : List String} {name : String} (e : Entry)
    (free : ∀ inside, d.find? (place ++ [name]) ≠ some (.directory inside)) :
    Keeps [place ++ [name]] d (d.alter (·.put name e) place) := by
  induction place generalizing d with
  | nil =>
    refine keeps_put e fun inside child => free inside ?_
    rw [List.nil_append, find?_cons_of_directory child]
    rfl
  | cons n place ih =>
    rw [alter]
    split
    · rename_i between child
      have inner := @ih between fun inside found => free inside (by
        rw [List.cons_append, find?_cons_of_directory child, found])
      exact keeps_put_inside child inner
    · exact keeps_refl _ d

end Directory

namespace Disk

structure Keeps (written : List (List String)) (d e : Disk) : Prop where
  working : e.working = d.working
  lost : e.lost = d.lost
  root : d.root.Keeps written e.root

theorem keeps_refl (d : Disk) : Keeps [] d d := ⟨rfl, rfl, Directory.keeps_refl [] d.root⟩

theorem Keeps.trans {written more : List (List String)} {d e f : Disk} (first : Keeps written d e)
    (second : Keeps more e f) : Keeps (written ++ more) d f :=
  ⟨second.working.trans first.working, second.lost.trans first.lost,
    first.root.trans second.root⟩

theorem Keeps.start {written : List (List String)} {d e : Disk} (keeps : Keeps written d e) :
    e.start = d.start := by
  rw [Disk.start, keeps.working, keeps.lost, Disk.start]

theorem keeps_put {d : Disk} {place : List String} (e : Entry)
    (free : ∀ inside, d.entry? place ≠ some (.directory inside)) :
    Keeps [place] d (d.put place e) := by
  cases last : place.getLast? with
  | none =>
    have top : d.entry? place = some (.directory d.root) := by
      rw [List.getLast?_eq_none_iff.mp last]
      rfl
    exact absurd top (free d.root)
  | some name =>
    obtain ⟨above, rfl⟩ := List.getLast?_eq_some_iff.mp last
    rw [put, last]
    simp only [List.dropLast_concat]
    exact ⟨rfl, rfl, Directory.keeps_alter e free⟩

theorem keeps_put_of_absent {d : Disk} {place : List String} (e : Entry)
    (absent : d.entry? place = none) : Keeps [] d (d.put place e) := by
  have free : ∀ inside, d.entry? place ≠ some (.directory inside) := by simp [absent]
  have keeps := keeps_put e free
  refine ⟨keeps.working, keeps.lost, keeps.root.directories, fun other content _ found => ?_⟩
  have differs : other ≠ place := by
    rintro rfl
    exact nomatch absent.symm.trans found
  exact keeps.root.files other content (by simpa using differs) found

theorem entry?_put {d : Disk} {above : List String} {inside : Directory} (name : String)
    (content : ByteArray) (there : d.entry? above = some (.directory inside)) :
    Disk.entry? (d.put (above ++ [name]) (.file content)) (above ++ [name]) =
      some (.file content) := by
  have altered := @Directory.find?_alter (·.put name (.file content)) _ _ _ there
  rw [put, List.getLast?_concat]
  simp only [List.dropLast_concat, alter, entry?]
  rw [Directory.find?_append altered, Directory.find?, Directory.child?_put_self]
  rfl

def HasDirectory (d : Disk) (p : Position) : Prop := ∃ inside, d.at? p = some (.directory inside)

theorem at?_of_lost_eq_zero {d : Disk} {p : Position} (there : p.lost = 0) :
    d.at? p = d.entry? p.place :=
  if_pos there

theorem hasDirectory_of_lost {d : Disk} {p : Position} (gone : p.lost ≠ 0) : d.HasDirectory p :=
  ⟨.empty, if_neg gone⟩

theorem entry?_of_at? {d : Disk} {p : Position} {found : Option Entry} (there : d.at? p = found)
    (free : ∀ inside, found ≠ some (.directory inside)) : d.entry? p.place = found := by
  unfold at? at there
  split at there
  · exact there
  · exact absurd there.symm (free .empty)

/-- What a step asks for: a directory on either side of it, unless it begins again at the root or
    leads to a name, which may be a new one. Nothing has a name in a directory that is gone. -/
def Passes (d : Disk) (p : Position) : Part → Prop
  | .root => True
  | .here => d.HasDirectory p
  | .up => d.HasDirectory p ∧ d.HasDirectory (p.follow .up)
  | .name text => d.HasDirectory p ∧ p.lost = 0 ∧ text.utf8ByteSize ≤ 255

theorem step_eq_ok {d : Disk} {p next : Position} {part : Part} :
    d.step p part = .ok next ↔ d.Passes p part ∧ p.follow part = next := by
  unfold step Passes HasDirectory
  cases part with
  | root => simp
  | here => rcases d.at? p with _ | _ | _ <;> simp
  | up => rcases d.at? p with _ | _ | _ <;> rcases d.at? (p.follow .up) with _ | _ | _ <;> simp
  | name text =>
    rcases d.at? p with _ | _ | inside
    · simp
    · simp
    · by_cases gone : p.lost = 0
      · by_cases long : text.utf8ByteSize > 255
        · have tooLong : ¬ text.utf8ByteSize ≤ 255 := Nat.not_le.mpr long
          simp [gone, long, tooLong]
        · simp [gone, long, Nat.le_of_not_gt long]
      · simp [gone]

theorem name_or_directory_of_step {d : Disk} {p next : Position} {part : Part}
    (run : d.step p part = .ok next) :
    (∃ text inside, next = ⟨p.place ++ [text], 0⟩ ∧
      d.entry? p.place = some (.directory inside)) ∨ d.HasDirectory next := by
  obtain ⟨passes, rfl⟩ := step_eq_ok.mp run
  cases part with
  | root => exact .inr ⟨d.root, rfl⟩
  | here => exact .inr passes
  | up => exact .inr passes.2
  | name text =>
    obtain ⟨⟨inside, there⟩, attached, _⟩ := passes
    rw [at?_of_lost_eq_zero attached] at there
    refine .inl ⟨text, inside, ?_, there⟩
    rw [Position.follow, attached]

theorem steps_eq_ok {d : Disk} {p last : Position} {parts : List Part}
    (run : parts.foldlM d.step p = .ok last) : parts.foldl Position.follow p = last := by
  induction parts generalizing p with
  | nil => exact pure_eq_ok.mp run
  | cons part rest ih =>
    obtain ⟨next, first, run⟩ := bind_eq_ok.mp run
    rw [List.foldl_cons, (step_eq_ok.mp first).2]
    exact ih run

section Keeps
variable {written : List (List String)} {d e : Disk} (keeps : Keeps written d e)
include keeps

theorem hasDirectory_of_keeps {p : Position} (there : d.HasDirectory p) : e.HasDirectory p := by
  by_cases gone : p.lost = 0
  · obtain ⟨inside, there⟩ := there
    rw [at?_of_lost_eq_zero gone] at there
    obtain ⟨grown, here⟩ := keeps.root.directories p.place inside there
    exact ⟨grown, (at?_of_lost_eq_zero gone).trans here⟩
  · exact hasDirectory_of_lost gone

theorem passes_of_keeps {p : Position} {part : Part} (passes : d.Passes p part) :
    e.Passes p part := by
  cases part with
  | root => trivial
  | here => exact hasDirectory_of_keeps keeps passes
  | up => exact ⟨hasDirectory_of_keeps keeps passes.1, hasDirectory_of_keeps keeps passes.2⟩
  | name text => exact ⟨hasDirectory_of_keeps keeps passes.1, passes.2⟩

theorem step_of_keeps {p next : Position} {part : Part} (run : d.step p part = .ok next) :
    e.step p part = .ok next := by
  obtain ⟨passes, leads⟩ := step_eq_ok.mp run
  exact step_eq_ok.mpr ⟨passes_of_keeps keeps passes, leads⟩

theorem steps_of_keeps {p last : Position} {parts : List Part}
    (run : parts.foldlM d.step p = .ok last) : parts.foldlM e.step p = .ok last := by
  induction parts generalizing p with
  | nil => exact run
  | cons part rest ih =>
    obtain ⟨next, first, run⟩ := bind_eq_ok.mp run
    exact bind_ok (step_of_keeps keeps first) (ih run)

end Keeps

theorem locate_eq_ok {d : Disk} {path : String} {p : Position} :
    d.locate path = .ok p ↔
      Path.check path = .ok () ∧ Path.parts path ≠ [] ∧ d.walk (Path.parts path) = .ok p := by
  unfold locate
  rw [bind_eq_ok]
  cases Path.parts path with
  | nil => simp [throw_ne_ok]
  | cons part rest =>
    constructor
    · rintro ⟨_, checked, walked⟩
      exact ⟨checked, List.cons_ne_nil _ _, walked⟩
    · rintro ⟨checked, _, walked⟩
      exact ⟨(), checked, walked⟩

theorem placeFrom_of_locate {d : Disk} {path : String} {p : Position}
    (leads : d.locate path = .ok p) : Path.placeFrom d.working path = p.place := by
  rw [← steps_eq_ok (locate_eq_ok.mp leads).2.2, Position.place_foldl_follow]
  rfl

theorem locate_of_keeps {written : List (List String)} {d e : Disk} {path : String}
    {p : Position} (keeps : Keeps written d e) (leads : d.locate path = .ok p) :
    e.locate path = .ok p := by
  obtain ⟨checked, nonempty, walked⟩ := locate_eq_ok.mp leads
  refine locate_eq_ok.mpr ⟨checked, nonempty, ?_⟩
  rw [walk, keeps.start]
  exact steps_of_keeps keeps walked

/-- A path leads to a file with this content, and does not say that it is one of a directory. -/
structure Holds (d : Disk) (path : String) (content : ByteArray) : Prop where
  leads : d.locate path = .ok ⟨Path.placeFrom d.working path, 0⟩
  named : Path.saysDirectory path = false
  file : d.entry? (Path.placeFrom d.working path) = some (.file content)

theorem Holds.of_keeps {written : List (List String)} {d e : Disk} {path : String}
    {content : ByteArray} (holds : d.Holds path content) (keeps : Keeps written d e)
    (other : Path.placeFrom d.working path ∉ written) : e.Holds path content := by
  refine ⟨?_, holds.named, ?_⟩
  · rw [keeps.working]
    exact locate_of_keeps keeps holds.leads
  · rw [keeps.working]
    exact keeps.root.files _ _ other holds.file

theorem Holds.readText {d : Disk} {path text : String} (holds : d.Holds path text.toUTF8) :
    d.readText path = .ok text := by
  have decoded : String.fromUTF8? text.toUTF8 = some text := by
    rw [String.fromUTF8?, String.toUTF8_eq_toByteArray, dif_pos text.isValidUTF8]
    rfl
  have file : d.at? ⟨Path.placeFrom d.working path, 0⟩ = some (.file text.toUTF8) := holds.file
  rw [Disk.readText, holds.leads]
  simp only [bind, Except.bind, file, holds.named, decoded]
  rfl

/-- What a part of the way leads to is a directory, or nothing is there and one is put there. -/
theorem exists_step_of_makeFrom {d e : Disk} {p : Position} {made : Bool} {part : Part}
    {rest : List Part} (run : d.makeFrom p made (part :: rest) = (.ok (), e)) :
    ∃ next, d.step p part = .ok next ∧
      (d.HasDirectory next ∧ d.makeFrom next made rest = (.ok (), e) ∨
        d.at? next = none ∧
          Disk.makeFrom (d.put next.place (.directory .empty)) next true rest = (.ok (), e)) := by
  rw [makeFrom] at run
  split at run
  · simp at run
  · rename_i next stepped
    refine ⟨next, stepped, ?_⟩
    split at run
    · rename_i inside there
      exact .inl ⟨⟨inside, there⟩, run⟩
    · split at run <;> simp at run
    · rename_i absent
      split at run
      · simp at run
      · exact .inr ⟨absent, run⟩

theorem makeFrom_keeps {d e : Disk} {p : Position} {made : Bool} {parts : List Part}
    (run : d.makeFrom p made parts = (.ok (), e)) : Keeps [] d e := by
  -- A directory is put only where nothing is, which loses nothing at all.
  induction parts generalizing d p made with
  | nil =>
    cases run
    exact keeps_refl _
  | cons part rest ih =>
    obtain ⟨next, _, ⟨_, run⟩ | ⟨absent, run⟩⟩ := exists_step_of_makeFrom run
    · exact ih run
    · exact (keeps_put_of_absent _ (entry?_of_at? absent (by simp))).trans (ih run)

theorem makeDirectories_keeps {d e : Disk} {path : String}
    (run : d.makeDirectories path = (.ok (), e)) : Keeps [] d e := by
  unfold makeDirectories at run
  split at run
  · simp at run
  · exact makeFrom_keeps run

theorem walk_concat_eq_ok {d : Disk} {front : List Part} {last : Part} {p : Position} :
    d.walk (front ++ [last]) = .ok p ↔
      ∃ base, d.walk front = .ok base ∧ d.step base last = .ok p := by
  rw [walk, List.foldlM_append, bind_eq_ok]
  simp only [List.foldlM_cons, List.foldlM_nil, bind_pure, walk]

theorem exists_above_of_locate {d : Disk} {path : String} {p : Position}
    (leads : d.locate path = .ok p) (free : ¬ d.HasDirectory p) :
    ∃ above name inside, p = ⟨above ++ [name], 0⟩ ∧
      d.entry? above = some (.directory inside) := by
  obtain ⟨_, nonempty, walked⟩ := locate_eq_ok.mp leads
  rcases List.eq_nil_or_concat (Path.parts path) with none | ⟨front, last, parted⟩
  · exact absurd none nonempty
  · rw [parted, List.concat_eq_append, walk_concat_eq_ok] at walked
    obtain ⟨base, _, stepped⟩ := walked
    rcases name_or_directory_of_step stepped with ⟨text, inside, leads, there⟩ | taken
    · exact ⟨base.place, text, inside, leads, there⟩
    · exact absurd taken free

theorem holds_put {d : Disk} {path : String} {p : Position} (content : ByteArray)
    (leads : d.locate path = .ok p) (named : Path.saysDirectory path = false)
    (free : ¬ d.HasDirectory p) :
    Keeps [Path.placeFrom d.working path] d (d.put p.place (.file content)) ∧
      (d.put p.place (.file content)).Holds path content := by
  have isPlace := placeFrom_of_locate leads
  obtain ⟨above, name, inside, rfl, there⟩ := exists_above_of_locate leads free
  have unheld : ∀ inside, d.entry? (above ++ [name]) ≠ some (.directory inside) :=
    fun inside taken => free ⟨inside, taken⟩
  have keeps := keeps_put (.file content) unheld
  have located := locate_of_keeps keeps leads
  rw [isPlace]
  refine ⟨keeps, ?_, named, ?_⟩
  · rw [keeps.working, isPlace, located]
  · rw [keeps.working, isPlace]
    exact entry?_put name content there

theorem exists_position_of_putFile {d e : Disk} {path : String} {content : ByteArray}
    (run : d.putFile path content = .ok e) :
    Path.saysDirectory path = false ∧ ∃ p, d.locate path = .ok p ∧ ¬ d.HasDirectory p ∧
      d.put p.place (.file content) = e := by
  unfold putFile at run
  obtain ⟨_, checked, run⟩ := bind_eq_ok.mp run
  cases ends : (Path.parts path).getLast? with
  | none =>
    simp only [ends] at run
    exact absurd run throw_ne_ok
  | some last =>
    simp only [ends] at run
    obtain ⟨base, walked, run⟩ := bind_eq_ok.mp run
    obtain ⟨_, _, run⟩ := bind_eq_ok.mp run
    split at run
    · obtain ⟨_, refused, _⟩ := bind_eq_ok.mp run
      exact absurd refused throw_ne_ok
    · rename_i named
      obtain ⟨p, stepped, run⟩ := bind_eq_ok.mp run
      split at run
      · exact absurd run throw_ne_ok
      · rename_i free
        obtain ⟨front, parted⟩ := List.getLast?_eq_some_iff.mp ends
        rw [parted, List.dropLast_concat] at walked
        have leads : d.locate path = .ok p := by
          refine locate_eq_ok.mpr ⟨checked, by simp [parted], ?_⟩
          rw [parted]
          exact walk_concat_eq_ok.mpr ⟨base, walked, stepped⟩
        have unheld : ¬ d.HasDirectory p := fun ⟨inside, taken⟩ => free inside taken
        exact ⟨by simpa using named, p, leads, unheld, pure_eq_ok.mp run⟩

theorem putFile_eq_ok {d e : Disk} {path : String} {content : ByteArray}
    (run : d.putFile path content = .ok e) :
    Keeps [Path.placeFrom d.working path] d e ∧ e.Holds path content := by
  obtain ⟨named, p, leads, free, rfl⟩ := exists_position_of_putFile run
  exact holds_put content leads named free

theorem writeFile_eq_ok {d e : Disk} {path : String} {content : ByteArray}
    (run : d.writeFile path content = (.ok (), e)) :
    Keeps [Path.placeFrom d.working path] d e ∧ e.Holds path content := by
  unfold writeFile at run
  split at run
  · simp at run
  · rename_i between made
    have grown := makeDirectories_keeps made
    split at run
    · simp at run
    · rename_i after put
      cases run
      obtain ⟨keeps, holds⟩ := putFile_eq_ok put
      rw [grown.working] at keeps
      exact ⟨grown.trans keeps, holds⟩

theorem performAll_writes {d e : Disk} {files : List (String × String)}
    (distinct : (files.map fun f => Path.placeFrom d.working f.1).Nodup)
    (run : d.performAll (files.map fun f => .write f.1 f.2) = (.ok (), e)) :
    Keeps (files.map fun f => Path.placeFrom d.working f.1) d e ∧
      ∀ f ∈ files, e.Holds f.1 f.2.toUTF8 := by
  -- What the first write leaves is kept by the others, since none of them has its place.
  induction files generalizing d with
  | nil =>
    cases run
    exact ⟨keeps_refl _, by simp⟩
  | cons f rest ih =>
    rw [List.map_cons, performAll] at run
    split at run
    · rename_i between written
      obtain ⟨first, holds⟩ := writeFile_eq_ok written
      obtain ⟨fresh, distinct⟩ := List.nodup_cons.mp distinct
      rw [← first.working] at fresh distinct
      obtain ⟨others, each⟩ := ih distinct run
      have kept := holds.of_keeps others fresh
      rw [first.working] at others
      exact ⟨first.trans others, List.forall_mem_cons.mpr ⟨kept, each⟩⟩
    · rename_i failed
      exact absurd run (failed () e)

theorem readText_of_performAll {d e : Disk} {root : String} {files : List (String × String)}
    (distinct : (files.map fun f => Path.normal? f.1).Nodup)
    (inside : ∀ f ∈ files, ∃ place, Path.normal? f.1 = some place)
    (run : d.performAll (files.map fun f => .write (Path.join root f.1) f.2) = (.ok (), e)) :
    ∀ f ∈ files, e.readText (Path.join root f.1) = .ok f.2 := by
  have places : (files.map fun f => Path.placeFrom d.working (Path.join root f.1)).Nodup := by
    refine List.Nodup.map_on (fun f first g second same => ?_) (List.Nodup.of_map _ distinct)
    obtain ⟨place, here⟩ := inside f first
    obtain ⟨other, there⟩ := inside g second
    rw [Path.placeFrom_join here, Path.placeFrom_join there] at same
    have normal : Path.normal? f.1 = Path.normal? g.1 := by
      rw [here, there, List.append_cancel_left same]
    exact List.inj_on_of_nodup_map distinct first second normal
  let joined := files.map fun f => (Path.join root f.1, f.2)
  have actions : (joined.map fun f => Action.write f.1 f.2) =
      files.map fun f => .write (Path.join root f.1) f.2 := List.map_map
  have apart : (joined.map fun f => Path.placeFrom d.working f.1).Nodup := by
    rw [List.map_map]
    exact places
  rw [← actions] at run
  obtain ⟨_, holds⟩ := performAll_writes apart run
  intro f mem
  exact (holds (Path.join root f.1, f.2) (List.mem_map_of_mem mem)).readText

end Disk

end DataLayer.Storage
