import DataLayer.Proofs.Record.Codecs

/- Objects whose properties are set one at a time. What a property holds after a run of settings is
   what the last of them set it to, because no setting touches a property but its own. An object is
   written member by member, and where properties are missing the first of them is reported. -/
namespace DataLayer.Json

theorem insertMember_perm {key : String} (value : Value) {members : List (String × Value)}
    (absent : key ∉ members.map Prod.fst) :
    (insertMember key value members).Perm ((key, value) :: members) := by
  induction members with
  | nil => exact .refl _
  | cons m rest ih =>
    obtain ⟨k, v⟩ := m
    obtain ⟨differs, absent⟩ := List.ne_and_not_mem_of_not_mem_cons absent
    unfold insertMember
    split
    · exact .refl _
    · exact ((ih absent).cons (k, v)).trans (.swap ..)

theorem inserted_perm {members all : List (String × Value)}
    (distinct : ((members ++ all).map Prod.fst).Nodup) :
    (members.foldl (fun all m => insertMember m.1 m.2 all) all).Perm (members ++ all) := by
  induction members generalizing all with
  | nil => exact .refl _
  | cons m rest ih =>
    rw [List.cons_append, List.map_cons, List.nodup_cons] at distinct
    obtain ⟨absent, distinct⟩ := distinct
    have fresh : m.1 ∉ all.map Prod.fst := fun mem =>
      absent (by rw [List.map_append]; exact List.mem_append_right _ mem)
    have put : (insertMember m.1 m.2 all).Perm (m :: all) := insertMember_perm m.2 fresh
    have order : (rest ++ insertMember m.1 m.2 all).Perm (m :: (rest ++ all)) :=
      (put.append_left rest).trans List.perm_middle
    have apart : ((rest ++ insertMember m.1 m.2 all).map Prod.fst).Nodup :=
      (order.map Prod.fst).nodup_iff.mpr (List.nodup_cons.mpr ⟨absent, distinct⟩)
    exact (ih apart).trans order

theorem ofMembers_perm {members : List (String × Value)}
    (distinct : (members.map Prod.fst).Nodup) :
    ∃ all, Value.ofMembers members = .object all ∧ all.Perm members := by
  refine ⟨_, rfl, ?_⟩
  have apart : ((members ++ []).map Prod.fst).Nodup := by simpa using distinct
  simpa using inserted_perm apart

end DataLayer.Json

namespace DataLayer.Record
open Json Outcome

/-- A property of an object: what an object holds of it, what is read of it in a record, and what a
    setting sets it to, if it is a setting of this property. -/
structure Property (α σ β : Type) where
  key : String
  held : α → Option β
  reads : Value → Except Fault (Option β)
  sets : σ → Option (Option β)

section Property
variable {α σ β : Type}

def afterAll (set : σ → α → α) (start : α) (settings : List σ) : α :=
  settings.foldl (fun a s => set s a) start

namespace Property

def ofRequired (key : String) (c : Codec β) (held : α → Option β) (sets : σ → Option β) :
    Property α σ β where
  key := key
  held := held
  reads v := (c.readAt v key).map some
  sets s := (sets s).map some

def ofNullable (key : String) (c : Codec (Option β)) (held : α → Option β)
    (sets : σ → Option (Option β)) : Property α σ β where
  key := key
  held := held
  reads v := c.readAt v key
  sets := sets

variable (p : Property α σ β)

def initial (record : Option Value) : Option β :=
  record.bind fun v => (p.reads v).toOption.join

def latest (record : Option Value) (settings : List σ) : Option β :=
  (settings.filterMap p.sets).getLast?.getD (p.initial record)

/-- An object holds what it is read with, and a setting changes that only if it is one of the
    property. -/
structure Kept (new : Option Value → Except Fault α) (set : σ → α → α) : Prop where
  started : ∀ record start, new record = .ok start → p.held start = p.initial record
  step : ∀ s a, p.held (set s a) = (p.sets s).getD (p.held a)

structure Nullable (new : Option Value → Except Fault α) (set : σ → α → α) (get : α → Option β) :
    Prop where
  value : ∀ record start settings, new record = .ok start →
    get (afterAll set start settings) = p.latest record settings
  frame : ∀ s a, p.sets s = none → get (set s a) = get a

/-- The getter of a required property returns what was set last, whatever was set beside it, and
    fails exactly if the property was neither read nor set. -/
structure Required (new : Option Value → Except Fault α) (set : σ → α → α) (owner : String)
    (get : α → Except Unset β) : Prop where
  value : ∀ record start settings v, new record = .ok start →
    (get (afterAll set start settings) = .ok v ↔ p.latest record settings = some v)
  unset : ∀ record start settings u, new record = .ok start →
    (get (afterAll set start settings) = .error u ↔
      u = ⟨owner, p.key⟩ ∧ p.initial record = none ∧ ∀ s ∈ settings, p.sets s = none)
  frame : ∀ s a, p.sets s = none → get (set s a) = get a

variable {p} {new : Option Value → Except Fault α} {set : σ → α → α}

namespace Kept

theorem frame (kept : p.Kept new set) {s : σ} (other : p.sets s = none) (a : α) :
    p.held (set s a) = p.held a := by
  rw [kept.step, other, Option.getD_none]

theorem held_afterAll (kept : p.Kept new set) (start : α) (settings : List σ) :
    p.held (afterAll set start settings) =
      (settings.filterMap p.sets).getLast?.getD (p.held start) := by
  induction settings generalizing start with
  | nil => rfl
  | cons s settings ih =>
    change p.held (afterAll set (set s start) settings) = _
    rw [ih, kept.step]
    cases sets : p.sets s with
    | none => rw [List.filterMap_cons_none sets, Option.getD_none]
    | some value =>
      rw [List.filterMap_cons_some sets, List.getLast?_cons, Option.getD_some, Option.getD_some]

theorem held_run (kept : p.Kept new set) {record : Option Value} {start : α}
    (begun : new record = .ok start) (settings : List σ) :
    p.held (afterAll set start settings) = p.latest record settings := by
  rw [kept.held_afterAll, kept.started record start begun, latest]

theorem nullable (kept : p.Kept new set) : p.Nullable new set p.held where
  value _ _ settings begun := kept.held_run begun settings
  frame _ a other := kept.frame other a

theorem latest_eq_none (some : ∀ s, p.sets s ≠ some none) {record : Option Value}
    {settings : List σ} : p.latest record settings = none ↔
      p.initial record = none ∧ ∀ s ∈ settings, p.sets s = none := by
  unfold latest
  cases last : (settings.filterMap p.sets).getLast? with
  | none =>
    have none : settings.filterMap p.sets = [] := List.getLast?_eq_none_iff.mp last
    rw [Option.getD_none, and_iff_left (List.filterMap_eq_nil_iff.mp none)]
  | some value =>
    obtain ⟨s, mem, sets⟩ := List.mem_filterMap.mp (List.mem_of_getLast? last)
    refine iff_of_false ?_ fun untouched => ?_
    · rintro rfl
      exact some s sets
    · rw [untouched.2 s mem] at sets
      contradiction

theorem required (kept : p.Kept new set) (some : ∀ s, p.sets s ≠ some none) (owner : String) :
    p.Required new set owner fun a => Record.required owner p.key (p.held a) where
  value record start settings v begun := by
    rw [kept.held_run begun]
    cases p.latest record settings <;> simp [Record.required]
  unset record start settings u begun := by
    rw [kept.held_run begun, ← latest_eq_none some]
    cases p.latest record settings <;> simp [Record.required, eq_comm]
  frame s a other := by rw [kept.frame other]

end Kept

theorem ofRequired_sets {key : String} {c : Codec β} {held : α → Option β} {sets : σ → Option β}
    (s : σ) : (ofRequired key c held sets).sets s ≠ some none := by
  change (sets s).map some ≠ some none
  cases sets s <;> simp

theorem ofRequired_kept {key : String} {c : Codec β} {held : α → Option β} {sets : σ → Option β}
    (fresh : ∃ a, new none = .ok a ∧ held a = none)
    (reads : ∀ v a, new (some v) = .ok a → ∃ value, c.readAt v key = .ok value ∧
      held a = some value)
    (step : ∀ s a, held (set s a) = ((sets s).map some).getD (held a)) :
    (ofRequired key c held sets).Kept new set where
  started record a begun := by
    cases record with
    | none =>
      obtain ⟨b, same, empty⟩ := fresh
      cases begun.symm.trans same
      exact empty
    | some v =>
      obtain ⟨value, read, kept⟩ := reads v a begun
      simp [initial, ofRequired, read, kept, Except.map, Except.toOption]
  step := step

theorem ofNullable_kept {key : String} {c : Codec (Option β)} {held : α → Option β}
    {sets : σ → Option (Option β)} (fresh : ∃ a, new none = .ok a ∧ held a = none)
    (reads : ∀ v a, new (some v) = .ok a → c.readAt v key = .ok (held a))
    (step : ∀ s a, held (set s a) = (sets s).getD (held a)) :
    (ofNullable key c held sets).Kept new set where
  started record a begun := by
    cases record with
    | none =>
      obtain ⟨b, same, empty⟩ := fresh
      cases begun.symm.trans same
      exact empty
    | some v =>
      have read := reads v a begun
      simp [initial, ofNullable, read, Except.toOption]
  step := step

end Property

end Property

/-- The computation fails with the first of these properties, and only if there is one. -/
def Misses {γ : Type} (x : Except Unset γ) (unset : List Unset) : Prop :=
  ∀ u, x = .error u ↔ unset.head? = some u

section Misses
variable {γ δ : Type}

theorem misses_ok (a : γ) : Misses (.ok a) [] := by
  intro u
  simp

theorem Misses.ok_or_error {x : Except Unset γ} {unset : List Unset} (misses : Misses x unset) :
    (∃ a, x = .ok a ∧ unset = []) ∨ ∃ u rest, x = .error u ∧ unset = u :: rest := by
  cases unset with
  | nil =>
    cases x with
    | ok a => exact .inl ⟨a, rfl, rfl⟩
    | error u => simpa using (misses u).mp rfl
  | cons u rest => exact .inr ⟨u, rest, (misses u).mpr rfl, rfl⟩

theorem Misses.bind {x : Except Unset γ} {f : γ → Except Unset δ} {first rest : List Unset}
    (here : Misses x first) (behind : ∀ a, x = .ok a → Misses (f a) rest) :
    Misses (x >>= f) (first ++ rest) := by
  rcases here.ok_or_error with ⟨a, rfl, rfl⟩ | ⟨u, more, rfl, rfl⟩
  · exact behind a rfl
  · intro other
    simp [Bind.bind, Except.bind]

theorem Misses.map {x : Except Unset γ} {unset : List Unset} (misses : Misses x unset)
    (f : γ → δ) : Misses (x.map f) unset := by
  rcases misses.ok_or_error with ⟨a, rfl, rfl⟩ | ⟨u, rest, rfl, rfl⟩
  · exact misses_ok (f a)
  · intro other
    simp [Except.map]

theorem misses_mapM {f : γ → Except Unset δ} {missing : γ → List Unset} {xs : List γ}
    (each : ∀ x ∈ xs, Misses (f x) (missing x)) : Misses (xs.mapM f) (xs.flatMap missing) := by
  induction xs with
  | nil => exact misses_ok []
  | cons x xs ih =>
    have others := ih fun y mem => each y (List.mem_cons_of_mem _ mem)
    rw [List.mapM_cons, List.flatMap_cons]
    refine (each x List.mem_cons_self).bind fun y _ => ?_
    exact others.map (y :: ·)

def unset {β : Type} (owner field : String) (value : Option β) : List Unset :=
  if value.isNone then [⟨owner, field⟩] else []

theorem misses_required {β : Type} (owner field : String) (value : Option β) :
    Misses (required owner field value) (unset owner field value) := by
  intro u
  cases value <;> simp [required, unset]

end Misses

namespace Codec
variable {α : Type} {c : Codec α} {missing : α → List Unset}

def Total (c : Codec α) : Prop := ∀ a, Misses (c.write a) []

theorem text_total : text.Total := by
  intro s
  exact misses_ok (Value.string s)

theorem integer_total : integer.Total := by
  intro n
  exact misses_ok (Value.integer n.toInt)

theorem double_total : double.Total := by
  intro x
  cases x with
  | finite d => exact misses_ok (Value.double d)
  | infinite _ | undefined => exact misses_ok Value.null

theorem formatted_total {expected : String} {read? : List Char → Option α}
    {written : α → List Char} : (formatted expected read? written).Total := by
  intro a
  exact misses_ok (Value.string (String.ofList (written a)))

theorem wholeNumber_total : wholeNumber.Total := formatted_total

theorem bytes_total : bytes.Total := formatted_total

theorem timestamp_total : timestamp.Total := formatted_total

theorem member_total {ofName? : String → Option α} {name : α → String} :
    (member ofName? name).Total :=
  formatted_total

theorem nullable_misses (misses : ∀ a, Misses (c.write a) (missing a)) (value : Option α) :
    Misses (c.nullable.write value) (value.elim [] missing) := by
  cases value with
  | none => exact misses_ok Value.null
  | some a => exact misses a

theorem list_misses (misses : ∀ a, Misses (c.write a) (missing a)) (values : List α) :
    Misses (c.list.write values) (values.flatMap missing) :=
  (misses_mapM fun a _ => misses a).map Value.array

theorem required_misses (owner field : String) (value : Option α)
    (misses : ∀ a, Misses (c.write a) (missing a)) :
    Misses (required owner field value >>= c.write)
      (unset owner field value ++ value.elim [] missing) := by
  refine (misses_required owner field value).bind fun a held => ?_
  cases value with
  | none => contradiction
  | some b =>
    cases held
    exact misses a

theorem Total.required (total : c.Total) (owner field : String) (value : Option α) :
    Misses (required owner field value >>= c.write) (unset owner field value) := by
  simpa using (misses_required owner field value).bind fun a _ => total a

theorem Total.nullable (total : c.Total) : c.nullable.Total := by
  intro value
  cases value with
  | none => exact misses_ok Value.null
  | some a => exact total a

theorem Total.list (total : c.Total) : c.list.Total := by
  intro values
  have none : values.flatMap (fun _ => ([] : List Unset)) = [] := by simp
  exact none ▸ list_misses total values

end Codec

abbrev Parts := List (String × Except Unset Value)

def memberOf (part : String × Except Unset Value) : Except Unset (String × Value) :=
  part.2.map fun form => (part.1, form)

def recordOf (parts : Parts) : Except Unset Value := (parts.mapM memberOf).map Value.ofMembers

theorem bind_members_cons {β : Type} (key : String) (x : Except Unset Value) (parts : Parts)
    (f : List (String × Value) → Except Unset β) :
    ((key, x) :: parts).mapM memberOf >>= f =
      x >>= fun form => parts.mapM memberOf >>= fun members => f ((key, form) :: members) := by
  rw [List.mapM_cons, bind_assoc]
  simp only [memberOf, bind_mapResult, bind_assoc, pure_bind]

theorem recordOf_eq_bind (parts : Parts) :
    recordOf parts = parts.mapM memberOf >>= fun members => pure (Value.ofMembers members) := by
  cases run : parts.mapM memberOf <;> simp only [recordOf, run] <;> rfl

/-- Objects are written with all their members and no others, or fail with the first property that
    is missing. -/
structure WritesParts {α : Type} (write : α → Except Unset Value) (keys : List String)
    (missing : α → List Unset) (parts : α → Parts) : Prop where
  distinct : keys.Nodup
  keyed : ∀ a, (parts a).map Prod.fst = keys
  fails : ∀ a, Misses (write a) (missing a)
  writes : ∀ a, missing a = [] → ∃ forms members,
    parts a = forms.map (fun f => (f.1, .ok f.2)) ∧ members.Perm forms ∧
      write a = .ok (.object members)

theorem misses_recordOf {parts : Parts} (unset : List (List Unset))
    (each : List.Forall₂ (fun p us => Misses p.2 us) parts unset) :
    Misses (recordOf parts) unset.flatten := by
  suffices all : Misses (parts.mapM memberOf) unset.flatten from all.map Value.ofMembers
  induction each with
  | nil => exact misses_ok []
  | cons here _ ih =>
    rw [List.mapM_cons, List.flatten_cons]
    exact (here.map _).bind fun form _ => ih.map (form :: ·)

theorem parts_of_mapM {parts : Parts} {forms : List (String × Value)}
    (run : parts.mapM memberOf = .ok forms) : parts = forms.map fun f => (f.1, .ok f.2) := by
  refine List.forall₂_eq_eq_eq ▸ List.forall₂_map_right_iff.mpr ?_
  refine (mapM_eq_ok.mp run).imp fun p f same => ?_
  obtain ⟨form, written, rfl⟩ := map_eq_ok.mp same
  rw [← written]

theorem writesParts_of_recordOf {α : Type} {write : α → Except Unset Value} {keys : List String}
    {missing : α → List Unset} {parts : α → Parts} (distinct : keys.Nodup)
    (keyed : ∀ a, (parts a).map Prod.fst = keys) (same : ∀ a, write a = recordOf (parts a))
    (misses : ∀ a, Misses (recordOf (parts a)) (missing a)) :
    WritesParts write keys missing parts where
  distinct := distinct
  keyed := keyed
  fails a := same a ▸ misses a
  writes a none := by
    rcases (misses a).ok_or_error with ⟨v, written, -⟩ | ⟨u, rest, -, some⟩
    · obtain ⟨forms, run, rfl⟩ := map_eq_ok.mp written
      have parts := parts_of_mapM run
      have named : forms.map Prod.fst = keys := by
        simpa [parts, Function.comp_def] using keyed a
      obtain ⟨members, object, order⟩ := ofMembers_perm (named ▸ distinct)
      exact ⟨forms, members, parts, order, by rw [same, written, object]⟩
    · rw [none] at some
      contradiction

end DataLayer.Record
