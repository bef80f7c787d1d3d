import DataLayer.Proofs.Outcome
import DataLayer.Proofs.Time.Moments
import DataLayer.Record.Codec

/- What a codec writes it reads back. The laws of the simple forms are joined through properties
   that may be null, through lists and through the members of a record. Only a moment can lose
   something on its way, because it is written in milliseconds. -/
namespace DataLayer.Json

theorem lookup_insertMember_of_ne {key other : String} (value : Value)
    (members : List (String × Value)) (differs : key ≠ other) :
    (insertMember other value members).lookup key = members.lookup key := by
  have different : (key == other) = false := beq_eq_false_iff_ne.mpr differs
  induction members with
  | nil => simp [insertMember, List.lookup_cons, different]
  | cons m rest ih =>
    obtain ⟨k, v⟩ := m
    by_cases before : other < k
    · simp [insertMember, before, List.lookup_cons, different]
    · by_cases same : other = k
      · subst same
        simp only [insertMember, if_neg before, if_true, List.lookup_cons, different]
      · simp [insertMember, before, same, List.lookup_cons, ih]

theorem lookup_inserted_of_not_mem {key : String} {members : List (String × Value)}
    (absent : key ∉ members.map Prod.fst) (all : List (String × Value)) :
    (members.foldl (fun all m => insertMember m.1 m.2 all) all).lookup key = all.lookup key := by
  induction members generalizing all with
  | nil => rfl
  | cons m rest ih =>
    simp only [List.map_cons, List.mem_cons, not_or] at absent
    rw [List.foldl_cons, ih absent.2, lookup_insertMember_of_ne _ _ absent.1]

theorem exists_lookup_inserted {key : String} {members : List (String × Value)}
    (present : key ∈ members.map Prod.fst) (all : List (String × Value)) :
    ∃ v, (key, v) ∈ members ∧
      (members.foldl (fun all m => insertMember m.1 m.2 all) all).lookup key = some v := by
  induction members generalizing all with
  | nil => simp at present
  | cons m rest ih =>
    obtain ⟨k, v⟩ := m
    rw [List.foldl_cons]
    by_cases later : key ∈ rest.map Prod.fst
    · obtain ⟨w, mem, found⟩ := ih later (insertMember k v all)
      exact ⟨w, List.mem_cons_of_mem _ mem, found⟩
    · have same : key = k := (List.mem_cons.mp present).resolve_right later
      subst same
      refine ⟨v, List.mem_cons_self, ?_⟩
      rw [lookup_inserted_of_not_mem later, lookup_insertMember]

theorem member?_ofMembers {members : List (String × Value)}
    (distinct : (members.map Prod.fst).Nodup) (key : String) :
    (Value.ofMembers members).member? key = members.lookup key := by
  suffices general : ∀ all : List (String × Value),
      (members.foldl (fun all m => insertMember m.1 m.2 all) all).lookup key =
        (members.lookup key).or (all.lookup key) by
    simpa [Value.ofMembers, Value.member?] using general []
  induction members with
  | nil => intro all; rfl
  | cons m rest ih =>
    obtain ⟨k, v⟩ := m
    intro all
    rw [List.map_cons, List.nodup_cons] at distinct
    rw [List.foldl_cons, List.lookup_cons]
    by_cases same : key = k
    · subst same
      rw [lookup_inserted_of_not_mem distinct.1, lookup_insertMember]
      simp
    · rw [ih distinct.2, lookup_insertMember_of_ne _ _ same, beq_eq_false_iff_ne.mpr same]

end DataLayer.Json

namespace DataLayer.Record
open Json Number Time Text

theorem field_ofMembers {members : List (String × Value)}
    (distinct : (members.map Prod.fst).Nodup) (key : String) :
    field (.ofMembers members) key = (members.lookup key).getD .null := by
  rw [field, member?_ofMembers distinct]

theorem discriminator?_ofMembers {members : List (String × Value)} {name : String}
    (distinct : (members.map Prod.fst).Nodup)
    (named : members.lookup discriminatorKey = some (.string name)) :
    discriminator? (.ofMembers members) = some name := by
  rw [discriminator?, member?_ofMembers distinct, named]
  rfl

namespace Codec
variable {α : Type} {c : Codec α}

/-- The value can be written, and is read back from what is written. -/
def Restores (c : Codec α) (a : α) : Prop := ∃ v, c.write a = .ok v ∧ c.read v = .ok a

/-- Nothing is written as null. -/
def Solid (c : Codec α) : Prop := ∀ a v, c.write a = .ok v → v.isNull = false

def Yields (c : Codec α) (P : α → Prop) : Prop := ∀ v a, c.read v = .ok a → P a

theorem text_restores (s : String) : text.Restores s := ⟨.string s, rfl, rfl⟩

theorem text_solid : text.Solid := by
  intro s v written
  cases written
  rfl

section formatted
variable {expected : String} {read? : List Char → Option α} {written : α → List Char}

theorem formatted_read_string (s : String) :
    (formatted expected read? written).read (.string s) =
      match read? s.toList with
      | some a => .ok a
      | none => .error (.badValue expected s) :=
  rfl

theorem formatted_read_string_eq_ok {s : String} {a : α} :
    (formatted expected read? written).read (.string s) = .ok a ↔ read? s.toList = some a := by
  rw [formatted_read_string]
  cases read? s.toList <;> simp

theorem formatted_read_string_eq_error {s : String} {f : Fault} :
    (formatted expected read? written).read (.string s) = .error f ↔
      read? s.toList = none ∧ f = .badValue expected s := by
  rw [formatted_read_string]
  cases read? s.toList <;> simp [eq_comm]

theorem formatted_read_eq_ok {v : Value} {a : α} :
    (formatted expected read? written).read v = .ok a ↔
      ∃ s, v = .string s ∧ read? s.toList = some a := by
  constructor
  · intro read
    cases v with
    | string s => exact ⟨s, rfl, formatted_read_string_eq_ok.mp read⟩
    | _ => contradiction
  · rintro ⟨s, rfl, read⟩
    exact formatted_read_string_eq_ok.mpr read

theorem formatted_read_written {a b : α} :
    (formatted expected read? written).read (.string (String.ofList (written a))) = .ok b ↔
      read? (written a) = some b := by
  rw [formatted_read_string_eq_ok, String.toList_ofList]

theorem formatted_read_written_eq_error {a : α} {f : Fault} :
    (formatted expected read? written).read (.string (String.ofList (written a))) = .error f ↔
      read? (written a) = none ∧ f = .badValue expected (String.ofList (written a)) := by
  rw [formatted_read_string_eq_error, String.toList_ofList]

theorem formatted_restores {a : α} (back : read? (written a) = some a) :
    (formatted expected read? written).Restores a :=
  ⟨.string (String.ofList (written a)), rfl, formatted_read_written.mpr back⟩

theorem formatted_solid : (formatted expected read? written).Solid := by
  intro a v same
  cases same
  rfl

theorem formatted_yields {P : α → Prop} (reads : ∀ s a, read? s = some a → P a) :
    (formatted expected read? written).Yields P := by
  intro v a read
  obtain ⟨s, _, found⟩ := formatted_read_eq_ok.mp read
  exact reads _ _ found

end formatted

theorem integer_restores (n : Int32) : integer.Restores n := by
  refine ⟨.integer n.toInt, rfl, ?_⟩
  have low : Int32.minValue.toInt ≤ n.toInt := n.le_toInt
  have high : n.toInt ≤ Int32.maxValue.toInt := Int.le_of_lt_add_one n.toInt_lt
  simp only [integer]
  rw [if_pos ⟨low, high⟩, Int32.ofInt_toInt]

theorem double_restores (d : Double) : double.Restores (.finite d) := ⟨.double d, rfl, rfl⟩

theorem double_yields : double.Yields fun x => ∃ d, x = .finite d := by
  intro v x read
  simp only [double] at read
  split at read
  · rename_i d _
    cases read
    exact ⟨d, rfl⟩
  · contradiction

theorem double_restores_iff {x : Binary64} : double.Restores x ↔ ∃ d, x = .finite d := by
  constructor
  · rintro ⟨v, _, back⟩
    exact double_yields v x back
  · rintro ⟨d, rfl⟩
    exact double_restores d

theorem boolean_restores (b : Bool) : boolean.Restores b := ⟨.boolean b, rfl, rfl⟩

theorem wholeNumber_restores (n : Int) : wholeNumber.Restores n :=
  formatted_restores (Integer.ofText?_text n)

theorem bytes_restores (data : List UInt8) : bytes.Restores data :=
  formatted_restores (ofHexText?_hexText data)

theorem member_restores {ofName? : String → Option α} {name : α → String} {a : α}
    (back : ofName? (name a) = some a) : (member ofName? name).Restores a := by
  refine formatted_restores ?_
  rw [String.ofList_toList, back]

theorem member_solid {ofName? : String → Option α} {name : α → String} :
    (member ofName? name).Solid :=
  formatted_solid

theorem timestamp_restores {t : Timestamp} (readable : t.Readable) (inMillis : t.InMillis) :
    timestamp.Restores t := by
  obtain ⟨whole, four⟩ := inMillis
  refine formatted_restores ?_
  have same : t.nanos / 1000000 * 1000000 = t.nanos := by omega
  rw [Timestamp.ofText?_text readable four, same]

theorem timestamp_yields : timestamp.Yields Timestamp.Readable :=
  formatted_yields fun _ _ => Timestamp.ofText?_readable

theorem nullable_restores (solid : c.Solid) {value : Option α}
    (restores : ∀ a ∈ value, c.Restores a) : c.nullable.Restores value := by
  cases value with
  | none => exact ⟨.null, rfl, rfl⟩
  | some a =>
    obtain ⟨v, written, back⟩ := restores a rfl
    refine ⟨v, written, ?_⟩
    simp only [nullable, solid a v written, back, Bool.false_eq_true, if_false]
    rfl

theorem nullable_yields {P : α → Prop} (yields : c.Yields P) :
    c.nullable.Yields fun value => ∀ a ∈ value, P a := by
  intro v value read
  by_cases null : v.isNull = true
  · simp only [nullable, null, if_true, Except.ok.injEq] at read
    subst read
    simp
  · simp only [nullable, null, Bool.false_eq_true, if_false] at read
    obtain ⟨a, inner, same⟩ := Outcome.map_eq_ok.mp read
    subst same
    intro b isB
    cases isB
    exact yields v a inner

theorem list_restores {values : List α} (restores : ∀ a ∈ values, c.Restores a) :
    c.list.Restores values := by
  have all : ∃ vs, List.Forall₂ (fun a v => c.write a = .ok v) values vs ∧
      List.Forall₂ (fun v a => c.read v = .ok a) vs values := by
    induction values with
    | nil => exact ⟨[], .nil, .nil⟩
    | cons a rest ih =>
      obtain ⟨v, written, back⟩ := restores a List.mem_cons_self
      obtain ⟨vs, restWritten, restBack⟩ := ih fun b isB => restores b (List.mem_cons_of_mem _ isB)
      exact ⟨v :: vs, .cons written restWritten, .cons back restBack⟩
  obtain ⟨vs, written, back⟩ := all
  refine ⟨.array vs, ?_, Outcome.mapM_eq_ok.mpr back⟩
  simp only [list, Outcome.mapM_eq_ok.mpr written, Except.map]

theorem list_solid : c.list.Solid := by
  intro values v written
  obtain ⟨vs, _, same⟩ := Outcome.map_eq_ok.mp written
  subst same
  rfl

theorem list_yields {P : α → Prop} (yields : c.Yields P) :
    c.list.Yields fun values => ∀ a ∈ values, P a := by
  intro v values read
  cases v with
  | array elements =>
    have pairs := Outcome.mapM_eq_ok.mp read
    intro a isA
    obtain ⟨element, _, inner⟩ := Outcome.exists_left_of_mem pairs isA
    exact yields element a inner
  | _ => contradiction

section nonNull
variable {read : Value → Except Fault α} {write : α → Except Unset Value}

theorem readNonNull_restores {a : α} (solid : (⟨readNonNull read, write⟩ : Codec α).Solid)
    (restores : (⟨read, write⟩ : Codec α).Restores a) :
    (⟨readNonNull read, write⟩ : Codec α).Restores a := by
  obtain ⟨v, written, back⟩ := restores
  refine ⟨v, written, ?_⟩
  have nonNull := solid a v written
  simp only [readNonNull, nonNull, Bool.false_eq_true, if_false]
  exact back

theorem readNonNull_yields {P : α → Prop} (yields : (⟨read, write⟩ : Codec α).Yields P) :
    (⟨readNonNull read, write⟩ : Codec α).Yields P := by
  intro v a run
  simp only [readNonNull] at run
  split at run
  · contradiction
  · exact yields v a run

end nonNull

theorem readAt_ofMembers (key : String) {members : List (String × Value)} {v : Value} {a : α}
    (distinct : (members.map Prod.fst).Nodup) (here : members.lookup key = some v)
    (back : c.read v = .ok a) : c.readAt (.ofMembers members) key = .ok a := by
  rw [readAt, field_ofMembers distinct, here]
  exact back

/-- Whatever has been read is written and read back, if its moments are written without loss. -/
def RoundTrips (c : Codec α) (moments : α → List Timestamp) : Prop :=
  ∀ v a, c.read v = .ok a → (∀ t ∈ moments a, t.InMillis) → c.Restores a

end Codec

end DataLayer.Record
