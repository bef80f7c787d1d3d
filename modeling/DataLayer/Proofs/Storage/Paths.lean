import DataLayer.Storage.Path
import DataLayer.Proofs.Outcome

/- Where paths lead by their parts alone, whatever is on the disk. A path below a directory leads on
   from the place of the directory, and as long as it does not leave the directory it leads to the
   same place below each. -/
namespace DataLayer.Storage

namespace Part

def follow (place : List String) : Part → List String
  | .root => []
  | .here => place
  | .up => place.dropLast
  | .name text => place ++ [text]

/-- The place below a directory to which a part leads from one below it. No part may lead above. -/
def below? (inside : List String) : Part → Option (List String)
  | .root => none
  | .here => some inside
  | .up => if inside = [] then none else some inside.dropLast
  | .name text => some (inside ++ [text])

theorem follow_append {base inside next : List String} {part : Part}
    (below : part.below? inside = some next) : part.follow (base ++ inside) = base ++ next := by
  cases part with
  | root => contradiction
  | here =>
    cases below
    rfl
  | up =>
    rw [below?] at below
    split at below
    · contradiction
    · rename_i nonempty
      cases below
      exact List.dropLast_append_of_ne_nil nonempty
  | name text =>
    cases below
    exact List.append_assoc base inside [text]

theorem foldl_follow_append {base inside next : List String} {parts : List Part}
    (below : parts.foldlM below? inside = some next) :
    parts.foldl follow (base ++ inside) = base ++ next := by
  induction parts generalizing inside with
  | nil =>
    cases below
    rfl
  | cons part rest ih =>
    rw [List.foldlM_cons] at below
    obtain ⟨middle, first, below⟩ := Option.bind_eq_some_iff.mp below
    rw [List.foldl_cons, follow_append first, ih below]

end Part

namespace Path

def placeFrom (working : List String) (path : String) : List String :=
  (parts path).foldl Part.follow working

def normal? (path : String) : Option (List String) := (parts path).foldlM Part.below? []

theorem split_ne_nil (s : List Char) : split s ≠ [] := by
  cases s with
  | nil => simp [split]
  | cons c rest =>
    rw [split]
    split
    · simp
    · split <;> simp

theorem split_append_slash (a b : List Char) : split (a ++ '/' :: b) = split a ++ split b := by
  induction a with
  | nil => simp [split]
  | cons c a ih =>
    rw [List.cons_append, split, split, ih]
    split
    · rfl
    · obtain ⟨first, more, parted⟩ := List.exists_cons_of_ne_nil (split_ne_nil a)
      rw [parted]
      rfl

theorem split_of_not_mem {s : List Char} (whole : '/' ∉ s) : split s = [s] := by
  induction s with
  | nil => rfl
  | cons c s ih =>
    rw [List.mem_cons, not_or] at whole
    rw [split, if_neg (Ne.symm whole.1), ih whole.2]

def namedParts (s : List Char) : List Part := ((split s).filter (!·.isEmpty)).map partOf

theorem namedParts_append_slash (a b : List Char) :
    namedParts (a ++ '/' :: b) = namedParts a ++ namedParts b := by
  rw [namedParts, split_append_slash, List.filter_append, List.map_append]
  rfl

theorem parts_eq (path : String) :
    parts path = (if path.toList.head? = some '/' then [.root] else []) ++
      namedParts path.toList := by
  change (if path.toList.head? = some '/' then .root :: namedParts path.toList
    else namedParts path.toList) = _
  split <;> rfl

theorem parts_join {root path : String} (relative : path.toList.head? ≠ some '/') :
    parts (join root path) = parts root ++ parts path := by
  have isRelative : isAbsolute path = false := by simpa [isAbsolute] using relative
  rw [join, isRelative, Bool.false_or]
  by_cases empty : root = ""
  · subst empty
    rfl
  · have some : root.toList ≠ [] := by simpa using empty
    rw [if_neg (by simpa using empty), parts_eq, parts_eq, parts_eq, if_neg relative,
      List.nil_append, List.append_assoc]
    split
    · rename_i ends
      obtain ⟨front, isRoot⟩ := List.getLast?_eq_some_iff.mp (beq_iff_eq.mp ends)
      have whole : namedParts root.toList = namedParts front := by
        rw [isRoot, namedParts_append_slash]
        exact List.append_nil _
      rw [String.toList_append, List.head?_append_of_ne_nil _ some, whole, isRoot,
        List.append_assoc, List.singleton_append, namedParts_append_slash]
    · rw [String.append_assoc, String.toList_append, List.head?_append_of_ne_nil _ some,
        String.toList_append]
      exact congrArg _ (namedParts_append_slash root.toList path.toList)

theorem relative_of_normal? {path : String} {place : List String}
    (inside : normal? path = some place) : path.toList.head? ≠ some '/' := by
  intro absolute
  rw [normal?, parts_eq, if_pos absolute] at inside
  contradiction

theorem placeFrom_join {working place : List String} {root path : String}
    (inside : normal? path = some place) :
    placeFrom working (join root path) = placeFrom working root ++ place := by
  have start : (parts path).foldl Part.follow (placeFrom working root ++ []) =
      placeFrom working root ++ place := Part.foldl_follow_append inside
  rw [placeFrom, parts_join (relative_of_normal? inside), List.foldl_append]
  rwa [List.append_nil] at start

theorem partOf_of_length {name : List Char} (long : 2 < name.length) :
    partOf name = .name (String.ofList name) := by
  have here : name ≠ ['.'] := by
    rintro rfl
    simp at long
  have up : name ≠ ['.', '.'] := by
    rintro rfl
    simp at long
  rw [partOf, if_neg here, if_neg up]

theorem namedParts_of_not_mem {name : List Char} (whole : '/' ∉ name) (long : 2 < name.length) :
    namedParts name = [.name (String.ofList name)] := by
  have some : name ≠ [] := by
    rintro rfl
    simp at long
  simp [namedParts, split_of_not_mem whole, some, partOf_of_length long]

end Path

end DataLayer.Storage
