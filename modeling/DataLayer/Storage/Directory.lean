/- Directories as trees. What a directory holds stands in it in no particular order, and of several
   entries of one name only the first counts; `put` leaves no others. A place is the names that lead
   to an entry from a directory above it. -/
namespace DataLayer.Storage

inductive Directory
  | empty
  | withFile (name : String) (content : ByteArray) (rest : Directory)
  | withDirectory (name : String) (inside rest : Directory)
  deriving DecidableEq

inductive Entry
  | file (content : ByteArray)
  | directory (inside : Directory)

namespace Directory

def child? (name : String) : Directory → Option Entry
  | .empty => none
  | .withFile n content rest => if n = name then some (.file content) else rest.child? name
  | .withDirectory n inside rest => if n = name then some (.directory inside) else rest.child? name

def erase (name : String) : Directory → Directory
  | .empty => .empty
  | .withFile n content rest =>
      if n = name then rest.erase name else .withFile n content (rest.erase name)
  | .withDirectory n inside rest =>
      if n = name then rest.erase name else .withDirectory n inside (rest.erase name)

def put (name : String) (e : Entry) (d : Directory) : Directory :=
  match e with
  | .file content => .withFile name content (d.erase name)
  | .directory inside => .withDirectory name inside (d.erase name)

def find? (d : Directory) : List String → Option Entry
  | [] => some (.directory d)
  | name :: rest =>
      match d.child? name with
      | some (.directory inside) => inside.find? rest
      | some (.file content) => if rest.isEmpty then some (.file content) else none
      | none => none

def alter (change : Directory → Directory) (d : Directory) : List String → Directory
  | [] => change d
  | name :: rest =>
      match d.child? name with
      | some (.directory inside) => d.put name (.directory (inside.alter change rest))
      | _ => d

theorem child?_erase_self (name : String) (d : Directory) : (d.erase name).child? name = none := by
  induction d with
  | empty => rfl
  | withFile n content rest ih => by_cases same : n = name <;> simp [erase, child?, same, ih]
  | withDirectory n inside rest _ ih =>
    by_cases same : n = name <;> simp [erase, child?, same, ih]

theorem child?_erase_of_ne {name other : String} (differ : other ≠ name) (d : Directory) :
    (d.erase name).child? other = d.child? other := by
  induction d with
  | empty => rfl
  | withFile n content rest ih =>
    by_cases same : n = name
    · simp [erase, child?, same, ih, differ.symm]
    · simp [erase, child?, same, ih]
  | withDirectory n inside rest _ ih =>
    by_cases same : n = name
    · simp [erase, child?, same, ih, differ.symm]
    · simp [erase, child?, same, ih]

theorem child?_put_self (name : String) (e : Entry) (d : Directory) :
    (d.put name e).child? name = some e := by
  cases e <;> simp [put, child?]

theorem child?_put_of_ne {name other : String} (differ : other ≠ name) (e : Entry)
    (d : Directory) : (d.put name e).child? other = d.child? other := by
  cases e <;> simp [put, child?, differ.symm, child?_erase_of_ne differ]

theorem find?_alter {change : Directory → Directory} {d inside : Directory} {place : List String}
    (found : d.find? place = some (.directory inside)) :
    (d.alter change place).find? place = some (.directory (change inside)) := by
  induction place generalizing d with
  | nil =>
    simp only [find?, Option.some.injEq, Entry.directory.injEq] at found
    simp [alter, find?, found]
  | cons name rest ih =>
    simp only [find?] at found
    split at found
    · rename_i between here
      simp [alter, here, find?, child?_put_self, ih found]
    · split at found <;> simp at found
    · contradiction

end Directory

end DataLayer.Storage
