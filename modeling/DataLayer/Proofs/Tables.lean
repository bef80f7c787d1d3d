import Mathlib.Data.List.Induction
import DataLayer.Table

/- What is found in a table. Since no key stands twice, an entry is found under its key wherever it
   stands, and a new key goes behind all others. A set of names has each of the names put into it
   where that name first came. -/
namespace DataLayer.Table
variable {α β : Type}

theorem not_mem_of_nodup {known rest : List String} {key : String}
    (distinct : (known ++ key :: rest).Nodup) : key ∉ known := by
  intro mem
  exact (List.nodup_append.mp distinct).2.2 key mem key List.mem_cons_self rfl

theorem lookup_cons_of_ne {key other : String} {value : α} {rest : List (String × α)}
    (differs : key ≠ other) : ((other, value) :: rest).lookup key = rest.lookup key := by
  simp [List.lookup_cons, beq_eq_false_iff_ne.mpr differs]

theorem lookup_eq_some_of_mem {entries : List (String × α)} {key : String} {value : α}
    (distinct : (entries.map Prod.fst).Nodup) (mem : (key, value) ∈ entries) :
    entries.lookup key = some value := by
  induction entries with
  | nil => simp at mem
  | cons e rest ih =>
    obtain ⟨k, v⟩ := e
    obtain ⟨fresh, distinct⟩ := List.nodup_cons.mp distinct
    rcases List.mem_cons.mp mem with same | mem
    · cases same
      simp
    · have there : key ∈ rest.map Prod.fst := List.mem_map_of_mem mem
      have other : key ≠ k := by
        rintro rfl
        exact fresh there
      rw [lookup_cons_of_ne other, ih distinct mem]

theorem mem_of_lookup_eq_some {entries : List (String × α)} {key : String} {value : α}
    (found : entries.lookup key = some value) : (key, value) ∈ entries := by
  induction entries with
  | nil => simp at found
  | cons e rest ih =>
    obtain ⟨k, v⟩ := e
    rw [List.lookup_cons] at found
    split at found
    · rename_i same
      have same : key = k := by simpa using same
      cases found
      simp [same]
    · exact List.mem_cons_of_mem _ (ih found)

theorem get?_eq_some_iff {t : Table α} {key : String} {value : α} :
    t.get? key = some value ↔ (key, value) ∈ t.entries :=
  ⟨mem_of_lookup_eq_some, lookup_eq_some_of_mem t.distinct⟩

theorem mem_keys_iff {t : Table α} {key : String} :
    key ∈ t.keys ↔ ∃ value, (key, value) ∈ t.entries := by
  simp [keys]

theorem get?_eq_none_iff {t : Table α} {key : String} : t.get? key = none ↔ key ∉ t.keys := by
  rw [mem_keys_iff, Option.eq_none_iff_forall_ne_some]
  simp [get?_eq_some_iff]

theorem get?_eq_of_perm {t u : Table α} (order : t.entries.Perm u.entries) (key : String) :
    t.get? key = u.get? key := by
  apply Option.ext
  intro value
  rw [get?_eq_some_iff, get?_eq_some_iff, order.mem_iff]

theorem get?_of_perm {t : Table α} {entries : List (String × α)} (order : t.entries.Perm entries)
    (key : String) : t.get? key = entries.lookup key := by
  have distinct : (entries.map Prod.fst).Nodup := (order.map Prod.fst).nodup_iff.mp t.distinct
  exact get?_eq_of_perm (u := ⟨entries, distinct⟩) order key

theorem entries_insert_of_not_mem {t : Table α} {key : String} {value : α}
    (absent : key ∉ t.keys) : (t.insert key value).entries = t.entries ++ [(key, value)] :=
  putEntry_of_not_mem absent

theorem get?_insert (t : Table α) (key : String) (value : α) (other : String) :
    (t.insert key value).get? other = if other = key then some value else t.get? other := by
  change (putEntry key value t.entries).lookup other =
    if other = key then some value else t.entries.lookup other
  induction t.entries with
  | nil =>
    by_cases same : other = key
    · simp [putEntry, same]
    · simp [putEntry, lookup_cons_of_ne same, same]
  | cons e rest ih =>
    obtain ⟨k, v⟩ := e
    by_cases found : k = key
    · by_cases same : other = key
      · simp [putEntry, found, same]
      · simp [putEntry, found, lookup_cons_of_ne same, same]
    · by_cases here : other = k
      · have differs : other ≠ key := here ▸ found
        rw [putEntry, if_neg found, if_neg differs, here, List.lookup_cons_self,
          List.lookup_cons_self]
      · rw [putEntry, if_neg found, lookup_cons_of_ne here, lookup_cons_of_ne here, ih]

theorem entries_insertNew? {t u : Table α} {key : String} {value : α}
    (added : t.insertNew? key value = some u) :
    key ∉ t.keys ∧ u.entries = t.entries ++ [(key, value)] := by
  unfold insertNew? at added
  split at added
  · contradiction
  · rename_i absent
    rw [contains_iff] at absent
    cases added
    exact ⟨absent, entries_insert_of_not_mem absent⟩

theorem insertNew?_of_not_mem {t : Table α} {key : String} {value : α} (absent : key ∉ t.keys) :
    t.insertNew? key value = some (t.insert key value) :=
  if_neg fun present => absent (contains_iff.mp present)

theorem entries_insertFirst (t : Table α) (key : String) (value : α) :
    (key ∈ t.keys → t.insertFirst key value = t) ∧
      (key ∉ t.keys → (t.insertFirst key value).entries = (key, value) :: t.entries) := by
  unfold insertFirst
  split
  · rename_i present
    exact ⟨fun _ => rfl, fun absent => absurd present absent⟩
  · rename_i absent
    exact ⟨fun present => absurd present absent, fun _ => rfl⟩

theorem keys_map (f : α → β) (t : Table α) : (t.map f).keys = t.keys := by
  simp [keys, map, Function.comp_def]

theorem get?_map (f : α → β) (t : Table α) (key : String) :
    (t.map f).get? key = (t.get? key).map f := by
  change (t.entries.map fun e => (e.1, f e.2)).lookup key = (t.entries.lookup key).map f
  induction t.entries with
  | nil => rfl
  | cons e rest ih =>
    obtain ⟨k, v⟩ := e
    by_cases same : key = k
    · simp [same]
    · rw [List.map_cons, lookup_cons_of_ne same, lookup_cons_of_ne same, ih]

end DataLayer.Table

namespace DataLayer.NameSet

theorem names_insertNew? {s u : NameSet} {name : String} (added : s.insertNew? name = some u) :
    u.names = s.names ++ [name] := by
  unfold insertNew? at added
  split at added
  · contradiction
  · rename_i absent
    cases added
    simp [insert, absent]

theorem insertNew?_of_not_mem {s : NameSet} {name : String} (absent : name ∉ s.names) :
    s.insertNew? name = some (s.insert name) :=
  if_neg absent

theorem insert_of_mem {s : NameSet} {name : String} (known : name ∈ s.names) :
    s.insert name = s :=
  dif_pos known

theorem names_insert_of_not_mem {s : NameSet} {name : String} (absent : name ∉ s.names) :
    (s.insert name).names = s.names ++ [name] := by
  simp [insert, absent]

theorem foldl_insert_of_mem {s : NameSet} {names : List String}
    (known : ∀ name ∈ names, name ∈ s.names) : names.foldl insert s = s := by
  induction names with
  | nil => rfl
  | cons name rest ih =>
    obtain ⟨here, later⟩ := List.forall_mem_cons.mp known
    rw [List.foldl_cons, insert_of_mem here, ih later]

theorem foldl_insert_of_iff {s : NameSet} {names : List String} {only : Option String}
    (same : ∀ name, name ∈ names ↔ only = some name) :
    names.foldl insert s = only.toList.foldl insert s := by
  cases names with
  | nil =>
    have none : only = none := by
      rw [Option.eq_none_iff_forall_ne_some]
      exact fun name found => List.not_mem_nil ((same name).mpr found)
    rw [none]
    rfl
  | cons first rest =>
    have found := (same first).mp List.mem_cons_self
    subst found
    have again : ∀ name ∈ rest, name ∈ (s.insert first).names := by
      intro name mem
      have here : first = name := Option.some.inj ((same name).mp (List.mem_cons_of_mem _ mem))
      exact mem_insert.mpr (.inr here.symm)
    exact foldl_insert_of_mem again

/-- Elements that each give one name or none may give it as often as they like. -/
theorem foldl_insert_flatMap {α : Type} {xs : List α} {f : α → List String}
    {g : α → Option String} (same : ∀ x ∈ xs, ∀ name, name ∈ f x ↔ g x = some name)
    (s : NameSet) : (xs.flatMap f).foldl insert s = (xs.filterMap g).foldl insert s := by
  induction xs generalizing s with
  | nil => rfl
  | cons x xs ih =>
    obtain ⟨here, later⟩ := List.forall_mem_cons.mp same
    have parted : (x :: xs).filterMap g = (g x).toList ++ xs.filterMap g := by
      cases found : g x <;> simp [found]
    rw [List.flatMap_cons, parted, List.foldl_append, List.foldl_append, foldl_insert_of_iff here,
      ih later]

theorem names_ofList (names : List String) : (ofList names).names = names.eraseDups := by
  induction names using List.reverseRecOn with
  | nil => rfl
  | append_singleton rest name ih =>
    have added : ofList (rest ++ [name]) = (ofList rest).insert name := List.foldl_append ..
    rw [added, List.eraseDups_append, ← ih]
    by_cases known : name ∈ rest
    · have held : name ∈ (ofList rest).names := by rwa [ih, List.mem_eraseDups]
      simp [insert_of_mem held, known, List.removeAll]
    · have absent : name ∉ (ofList rest).names := by rwa [ih, List.mem_eraseDups]
      simp [names_insert_of_not_mem absent, known, List.removeAll, List.eraseDups_cons]

theorem nodup_eraseDups (names : List String) : names.eraseDups.Nodup :=
  names_ofList names ▸ (ofList names).distinct

end DataLayer.NameSet
