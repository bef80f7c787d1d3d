import DataLayer.Proofs.Storage.Writing

/- What is seen on a disk, place by place: nothing, a directory or a file with its content. Whatever
   is written lays sights over those that were there, the later over the earlier, and which ones
   these are follows from the paths and the texts alone. -/
namespace DataLayer.Storage
open Outcome

inductive Sight
  | directory
  | file (content : ByteArray)

def Entry.sight : Entry → Sight
  | .directory _ => .directory
  | .file content => .file content

def Entry.Bare (e : Entry) : Prop := e = .directory .empty ∨ ∃ content, e = .file content

namespace Directory

def sight? (d : Directory) (place : List String) : Option Sight := (d.find? place).map Entry.sight

theorem sight?_alter_append {d inside : Directory} {place : List String}
    (found : d.find? place = some (.directory inside)) (change : Directory → Directory)
    (rest : List String) : (d.alter change place).sight? (place ++ rest) =
      (change inside).sight? rest :=
  congrArg (·.map Entry.sight) (find?_append (find?_alter found) rest)

theorem sight?_alter_of_not_prefix {d : Directory} {place other : List String}
    (change : Directory → Directory) (outside : ¬ place <+: other) :
    (d.alter change place).sight? other = d.sight? other := by
  induction place generalizing d other with
  | nil => exact absurd List.nil_prefix outside
  | cons name place ih =>
    rw [alter]
    split
    · rename_i inside child
      cases other with
      | nil => rfl
      | cons n rest =>
        by_cases same : n = name
        · subst same
          have deeper : ¬ place <+: rest := fun leads =>
            outside (List.cons_prefix_cons.mpr ⟨rfl, leads⟩)
          rw [sight?, find?_cons_of_directory (child?_put_self _ _ d), sight?,
            find?_cons_of_directory child]
          exact ih deeper
        · rw [sight?, find?_put_of_ne same, sight?]
    · rfl

theorem sight?_append_eq_none {d : Directory} {place : List String} {name : String}
    {rest : List String} (free : ∀ inside, d.find? place ≠ some (.directory inside)) :
    d.sight? (place ++ name :: rest) = none := by
  cases found : d.find? (place ++ name :: rest) with
  | none => rw [sight?, found, Option.map_none]
  | some e =>
    exfalso
    induction place generalizing d with
    | nil => exact free d rfl
    | cons n place ih =>
      rw [List.cons_append, find?] at found
      split at found
      · rename_i between child
        refine ih (fun inside there => free inside ?_) found
        rw [find?_cons_of_directory child, there]
      · simp at found
      · contradiction

theorem sight?_put {d : Directory} {name : String} {e : Entry} (bare : e.Bare)
    (free : ∀ inside, d.child? name ≠ some (.directory inside)) (place : List String) :
    (d.put name e).sight? place = if place = [name] then some e.sight else d.sight? place := by
  cases place with
  | nil => rfl
  | cons n rest =>
    by_cases same : n = name
    · subst same
      cases rest with
      | nil =>
        rw [if_pos rfl, sight?, find?, child?_put_self]
        cases e <;> rfl
      | cons m more =>
        have before : d.sight? ([n] ++ m :: more) = none := sight?_append_eq_none fun inside => by
          rw [find?]
          split
          · rename_i there
            exact absurd there (free _)
          · simp
          · simp
        have other : n :: m :: more ≠ [n] := by simp
        rw [if_neg other]
        refine Eq.trans ?_ before.symm
        rw [sight?, find?, child?_put_self]
        rcases bare with rfl | ⟨content, rfl⟩ <;> rfl
    · have other : n :: rest ≠ [name] := fun equal => same (List.cons.inj equal).1
      rw [if_neg other, sight?, find?_put_of_ne same, sight?]

theorem sight?_erase (d : Directory) (name : String) (place : List String) :
    (d.erase name).sight? place = if [name] <+: place then none else d.sight? place := by
  cases place with
  | nil => rfl
  | cons n rest =>
    by_cases same : n = name
    · subst same
      rw [if_pos (List.cons_prefix_cons.mpr ⟨rfl, List.nil_prefix⟩), sight?, find?,
        child?_erase_self]
      rfl
    · have other : ¬ [name] <+: n :: rest := fun leads =>
        same (List.cons_prefix_cons.mp leads).1.symm
      rw [if_neg other, sight?, find?, child?_erase_of_ne same, sight?, find?]

end Directory

/-- Sights at places. Of several at one place the last one counts. -/
abbrev Overlay := List (List String × Sight)

namespace Overlay

def at? (o : Overlay) (place : List String) : Option Sight := o.reverse.lookup place

theorem at?_append (a b : Overlay) (place : List String) :
    Overlay.at? (a ++ b) place = (b.at? place).or (a.at? place) := by
  rw [at?, List.reverse_append, List.lookup_append]
  rfl

theorem at?_singleton (place other : List String) (s : Sight) :
    Overlay.at? [(place, s)] other = if other = place then some s else none := by
  rw [at?, List.reverse_singleton, List.lookup_cons]
  split
  · rename_i same
    rw [if_pos (beq_iff_eq.mp same)]
  · rename_i differs
    rw [if_neg (beq_eq_false_iff_ne.mp differs)]
    rfl

def way (place : List String) : List Part → List (List String)
  | [] => []
  | part :: rest => part.follow place :: way (part.follow place) rest

/-- The directories that are there once a path has been made. Those that it leads out of before it
    leads into any may be gone. -/
def ofWay (place : List String) : List Part → Overlay
  | .here :: rest => ofWay place rest
  | .up :: rest => ofWay place.dropLast rest
  | parts => (way place parts).map (·, .directory)

def ofFile (working : List String) (path : String) (content : ByteArray) : Overlay :=
  ofWay working (Path.parts (Path.parent path)) ++ [(Path.placeFrom working path, .file content)]

end Overlay

namespace Disk

def sight? (d : Disk) (place : List String) : Option Sight := d.root.sight? place

section Sight
variable {d : Disk} {place : List String}

theorem sight?_eq_directory :
    d.sight? place = some .directory ↔ ∃ inside, d.entry? place = some (.directory inside) := by
  rw [sight?, Directory.sight?, entry?]
  rcases d.root.find? place with _ | _ | _ <;> simp [Entry.sight]

theorem sight?_eq_file {content : ByteArray} :
    d.sight? place = some (.file content) ↔ d.entry? place = some (.file content) := by
  rw [sight?, Directory.sight?, entry?]
  rcases d.root.find? place with _ | _ | _ <;> simp [Entry.sight]

theorem sight?_put {above : List String} {name : String} {inside : Directory} {e : Entry}
    (bare : e.Bare) (there : d.entry? above = some (.directory inside))
    (free : ∀ other, d.entry? (above ++ [name]) ≠ some (.directory other)) (place : List String) :
    Disk.sight? (d.put (above ++ [name]) e) place =
      if place = above ++ [name] then some e.sight else d.sight? place := by
  have child : ∀ other, inside.child? name ≠ some (.directory other) := by
    intro other taken
    refine free other ?_
    rw [Disk.entry?, Directory.find?_append there, Directory.find?_cons_of_directory taken]
    rfl
  rw [put, List.getLast?_concat]
  simp only [List.dropLast_concat, alter, sight?]
  by_cases below : above <+: place
  · obtain ⟨rest, rfl⟩ := below
    have before : d.root.sight? (above ++ rest) = inside.sight? rest :=
      congrArg (·.map Entry.sight) (Directory.find?_append there rest)
    rw [Directory.sight?_alter_append there, Directory.sight?_put bare child, before]
    simp only [List.append_cancel_left_eq]
  · have other : place ≠ above ++ [name] := by
      rintro rfl
      exact below (List.prefix_append _ _)
    rw [if_neg other]
    exact Directory.sight?_alter_of_not_prefix _ below

end Sight

/-- What was seen is seen again, but for the sights that have been laid over it. -/
structure Overlaid (o : Overlay) (d e : Disk) : Prop where
  working : e.working = d.working
  sights : ∀ place, e.sight? place = (o.at? place).or (d.sight? place)

theorem overlaid_refl (d : Disk) : Overlaid [] d d := ⟨rfl, fun _ => rfl⟩

theorem Overlaid.trans {o p : Overlay} {d e f : Disk} (first : Overlaid o d e)
    (second : Overlaid p e f) : Overlaid (o ++ p) d f := by
  refine ⟨second.working.trans first.working, fun place => ?_⟩
  rw [second.sights, first.sights, Overlay.at?_append, Option.or_assoc]

theorem overlaid_put {d : Disk} {above : List String} {name : String} {inside : Directory}
    {e : Entry} (bare : e.Bare) (there : d.entry? above = some (.directory inside))
    (free : ∀ other, d.entry? (above ++ [name]) ≠ some (.directory other)) :
    Overlaid [(above ++ [name], e.sight)] d (d.put (above ++ [name]) e) := by
  constructor
  · rw [put, List.getLast?_concat]
    rfl
  · intro place
    rw [sight?_put bare there free, Overlay.at?_singleton]
    by_cases same : place = above ++ [name] <;> simp [same]

theorem overlaid_of_directory {d : Disk} {place : List String} {inside : Directory}
    (there : d.entry? place = some (.directory inside)) :
    Overlaid [(place, .directory)] d d := by
  refine ⟨rfl, fun other => ?_⟩
  rw [Overlay.at?_singleton]
  by_cases same : other = place
  · rw [if_pos same, same, sight?_eq_directory.mpr ⟨inside, there⟩]
    rfl
  · rw [if_neg same]
    rfl

theorem makeFrom_of_hasDirectory {d : Disk} {p next : Position} {part : Part}
    (stepped : d.step p part = .ok next) (there : d.HasDirectory next) (made : Bool)
    (rest : List Part) : d.makeFrom p made (part :: rest) = d.makeFrom next made rest := by
  obtain ⟨inside, there⟩ := there
  simp only [makeFrom, stepped, there]

/-- A step of the way to a place that is not gone, whatever the rest of the way lays over it. -/
theorem makeFrom_cons_overlaid {d e : Disk} {p next : Position} {made : Bool} {part : Part}
    {rest : List Part} {o : Overlay} (run : d.makeFrom p made (part :: rest) = (.ok (), e))
    (stepped : d.step p part = .ok next) (attached : next.lost = 0)
    (others : ∀ between made, Disk.makeFrom between next made rest = (.ok (), e) →
      Overlaid o between e) :
    Overlaid ((next.place, .directory) :: o) d e := by
  obtain ⟨other, again, taken⟩ := exists_step_of_makeFrom run
  cases stepped.symm.trans again
  rcases taken with ⟨⟨inside, there⟩, run⟩ | ⟨absent, run⟩
  · rw [at?_of_lost_eq_zero attached] at there
    exact (overlaid_of_directory there).trans (others d made run)
  · rcases name_or_directory_of_step stepped with ⟨text, inside, rfl, there⟩ | ⟨other, taken⟩
    · have free : ∀ other, d.entry? (p.place ++ [text]) ≠ some (.directory other) := by
        simp [entry?_of_at? absent (by simp)]
      exact (overlaid_put (.inl rfl) there free).trans (others _ true run)
    · rw [absent] at taken
      contradiction

theorem lost_eq_zero_of_step {d : Disk} {p next : Position} {part : Part} (attached : p.lost = 0)
    (stepped : d.step p part = .ok next) : next.lost = 0 := by
  rw [← (step_eq_ok.mp stepped).2]
  cases part with
  | root => rfl
  | here => exact attached
  | up => simp [Position.follow, attached]
  | name text => exact attached

theorem makeFrom_overlaid_way {d e : Disk} {p : Position} {made : Bool} {parts : List Part}
    (attached : p.lost = 0) (run : d.makeFrom p made parts = (.ok (), e)) :
    Overlaid ((Overlay.way p.place parts).map (·, .directory)) d e := by
  induction parts generalizing d p made with
  | nil =>
    cases run
    exact overlaid_refl _
  | cons part rest ih =>
    obtain ⟨next, stepped, _⟩ := exists_step_of_makeFrom run
    have here : next.lost = 0 := lost_eq_zero_of_step attached stepped
    have place : part.follow p.place = next.place := by
      rw [← Position.place_follow, (step_eq_ok.mp stepped).2]
    rw [Overlay.way, place, List.map_cons]
    exact makeFrom_cons_overlaid run stepped here fun between made run => ih here run

theorem makeFrom_overlaid {d e : Disk} {p : Position} {made : Bool} {parts : List Part}
    (run : d.makeFrom p made parts = (.ok (), e)) :
    Overlaid (Overlay.ofWay p.place parts) d e := by
  induction parts generalizing p with
  | nil =>
    cases run
    exact overlaid_refl _
  | cons part rest ih =>
    obtain ⟨next, stepped, _⟩ := exists_step_of_makeFrom run
    obtain ⟨passes, rfl⟩ := step_eq_ok.mp stepped
    cases part with
    | here =>
      rw [makeFrom_of_hasDirectory stepped passes] at run
      exact ih run
    | up =>
      rw [makeFrom_of_hasDirectory stepped passes.2] at run
      exact ih run
    | root =>
      exact makeFrom_cons_overlaid run stepped rfl fun between made run =>
        makeFrom_overlaid_way rfl run
    | name text =>
      -- nothing has a name in a directory that is gone
      exact makeFrom_overlaid_way passes.2.1 run

theorem makeDirectories_overlaid {d e : Disk} {path : String}
    (run : d.makeDirectories path = (.ok (), e)) :
    Overlaid (Overlay.ofWay d.working (Path.parts path)) d e := by
  unfold makeDirectories at run
  split at run
  · simp at run
  · exact makeFrom_overlaid run

theorem putFile_overlaid {d e : Disk} {path : String} {content : ByteArray}
    (run : d.putFile path content = .ok e) :
    Overlaid [(Path.placeFrom d.working path, .file content)] d e := by
  obtain ⟨_, p, leads, free, rfl⟩ := exists_position_of_putFile run
  rw [placeFrom_of_locate leads]
  obtain ⟨above, name, inside, rfl, there⟩ := exists_above_of_locate leads free
  exact overlaid_put (.inr ⟨content, rfl⟩) there fun other taken => free ⟨other, taken⟩

theorem writeFile_overlaid {d e : Disk} {path : String} {content : ByteArray}
    (run : d.writeFile path content = (.ok (), e)) :
    Overlaid (Overlay.ofFile d.working path content) d e := by
  unfold writeFile at run
  split at run
  · simp at run
  · rename_i between made
    have grown := makeDirectories_overlaid made
    split at run
    · simp at run
    · rename_i after put
      cases run
      have laid := putFile_overlaid put
      rw [grown.working] at laid
      exact grown.trans laid

/-- What a run of writes lays over a disk depends on the working directory alone. -/
theorem performAll_overlaid {d e : Disk} {files : List (String × String)}
    (run : d.performAll (files.map fun f => .write f.1 f.2) = (.ok (), e)) :
    Overlaid (files.flatMap fun f => Overlay.ofFile d.working f.1 f.2.toUTF8) d e := by
  induction files generalizing d with
  | nil =>
    cases run
    exact overlaid_refl _
  | cons f rest ih =>
    rw [List.map_cons, performAll] at run
    split at run
    · rename_i between written
      have first := writeFile_overlaid written
      have others := ih run
      rw [first.working] at others
      exact first.trans others
    · rename_i failed
      exact absurd run (failed () e)

end Disk

end DataLayer.Storage
