/- Tables that keep their entries in the order in which the keys first came. Putting a value under
   a key that is there already replaces the value and leaves the key where it stands. -/
namespace DataLayer

structure Table (α : Type) where
  entries : List (String × α)
  distinct : (entries.map Prod.fst).Nodup := by simp
  deriving DecidableEq

namespace Table
variable {α β : Type}

def putEntry (key : String) (value : α) : List (String × α) → List (String × α)
  | [] => [(key, value)]
  | (k, v) :: rest => if k = key then (key, value) :: rest else (k, v) :: putEntry key value rest

theorem keys_putEntry_of_mem {key : String} {value : α} {entries : List (String × α)}
    (present : key ∈ entries.map Prod.fst) :
    (putEntry key value entries).map Prod.fst = entries.map Prod.fst := by
  induction entries with
  | nil => simp at present
  | cons e rest ih =>
    obtain ⟨k, v⟩ := e
    by_cases same : k = key
    · simp [putEntry, same]
    · have there : key ∈ rest.map Prod.fst := by
        rcases List.mem_cons.mp present with h | h
        · exact absurd h.symm same
        · exact h
      simp [putEntry, same, ih there]

theorem putEntry_of_not_mem {key : String} {value : α} {entries : List (String × α)}
    (absent : key ∉ entries.map Prod.fst) :
    putEntry key value entries = entries ++ [(key, value)] := by
  induction entries with
  | nil => rfl
  | cons e rest ih =>
    obtain ⟨k, v⟩ := e
    simp only [List.map_cons, List.mem_cons, not_or] at absent
    simp [putEntry, Ne.symm absent.1, ih absent.2]

theorem nodup_putEntry {key : String} {value : α} {entries : List (String × α)}
    (distinct : (entries.map Prod.fst).Nodup) :
    ((putEntry key value entries).map Prod.fst).Nodup := by
  by_cases present : key ∈ entries.map Prod.fst
  · rw [keys_putEntry_of_mem present]; exact distinct
  · rw [putEntry_of_not_mem present, List.map_append]
    refine List.nodup_append.mpr ⟨distinct, by simp, ?_⟩
    intro a ha b hb same
    simp only [List.map_cons, List.map_nil, List.mem_singleton] at hb
    exact present (hb ▸ same ▸ ha)

def empty : Table α := { entries := [] }

def keys (t : Table α) : List String := t.entries.map Prod.fst

def get? (t : Table α) (key : String) : Option α := t.entries.lookup key

def contains (t : Table α) (key : String) : Bool := t.keys.contains key

def size (t : Table α) : Nat := t.entries.length

def insert (t : Table α) (key : String) (value : α) : Table α :=
  ⟨putEntry key value t.entries, nodup_putEntry t.distinct⟩

def insertFirst (t : Table α) (key : String) (value : α) : Table α :=
  if absent : key ∈ t.keys then t
  else ⟨(key, value) :: t.entries, List.nodup_cons.mpr ⟨absent, t.distinct⟩⟩

def insertNew? (t : Table α) (key : String) (value : α) : Option (Table α) :=
  if t.contains key then none else some (t.insert key value)

/-- Later entries win over earlier ones of the same key. -/
def ofList (entries : List (String × α)) : Table α :=
  entries.foldl (fun t e => t.insert e.1 e.2) empty

def map (f : α → β) (t : Table α) : Table β :=
  ⟨t.entries.map fun e => (e.1, f e.2), by simpa [Function.comp_def] using t.distinct⟩

theorem contains_iff {t : Table α} {key : String} : t.contains key = true ↔ key ∈ t.keys := by
  simp [contains]

theorem keys_insertNew? {t u : Table α} {key : String} {value : α}
    (added : t.insertNew? key value = some u) : u.keys = t.keys ++ [key] := by
  unfold insertNew? at added
  split at added
  · contradiction
  · rename_i absent
    have fresh : key ∉ t.entries.map Prod.fst := fun h => absent (contains_iff.mpr h)
    cases added
    simp [insert, keys, putEntry_of_not_mem fresh]

end Table

structure NameSet where
  names : List String
  distinct : names.Nodup := by simp
  deriving DecidableEq

namespace NameSet

def empty : NameSet := { names := [] }

def insert (s : NameSet) (name : String) : NameSet :=
  if present : name ∈ s.names then s
  else ⟨s.names ++ [name], by
    refine List.nodup_append.mpr ⟨s.distinct, by simp, ?_⟩
    intro a ha b hb same
    exact present (List.mem_singleton.mp hb ▸ same ▸ ha)⟩

def insertNew? (s : NameSet) (name : String) : Option NameSet :=
  if name ∈ s.names then none else some (s.insert name)

def ofList (names : List String) : NameSet := names.foldl insert empty

def isEmpty (s : NameSet) : Bool := s.names.isEmpty

theorem mem_insert {s : NameSet} {name x : String} :
    x ∈ (s.insert name).names ↔ x ∈ s.names ∨ x = name := by
  unfold insert
  split
  · rename_i present
    constructor
    · exact Or.inl
    · rintro (h | rfl)
      · exact h
      · exact present
  · simp

end NameSet

end DataLayer
