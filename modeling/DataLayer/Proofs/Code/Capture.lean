import DataLayer.Proofs.Code.Discriminator
import DataLayer.Proofs.Code.Naming
import DataLayer.Proofs.Code.Scopes
import DataLayer.Proofs.Code.Written
import DataLayer.Proofs.Tables

/- What the names mean in the method that writes the record of an entity. The method takes the fields
   that it writes out of the entity, and then makes the record and gives it a name of its own. From
   there on this name is the record's, also where a field has it. -/
namespace DataLayer.Name

theorem fileStem_raw (name : String) : fileStem ("r#" ++ name) = fileStem name := by
  rw [fileStem, String.toList_append]
  rfl

end DataLayer.Name

namespace DataLayer.Code
open Schema Outcome

def recordName : String := "json"

inductive Meaning
  | field (key : String)
  | record
  deriving DecidableEq

/-- The names that are bound at a place and what they mean, the latest first. They stand without
    their raw marks, which make no difference between names. -/
abbrev Bound := List (String × Meaning)

def Bound.meaning? (bound : Bound) (name : String) : Option Meaning :=
  bound.lookup (Name.fileStem name)

/-- The names that the text of an expression takes from around it, if its value is called by a name.
    What the expression does with a value inside is a closure that has the parameter `value`. -/
def WriteExpr.free : WriteExpr → String → List String
  | .text, name | .copied, name | .scalar _, name | .record, name => [name]
  | .list item, name => name :: (item.free "value").filter (· ≠ "value")
  | .nullable inner, name => name :: (inner.free "value").filter (· ≠ "value")

inductive WriterStatement
  | takeFields (fields : List EntityField) (more : Bool)
  | makeRecord
  | putVariant
  | putMember (field : EntityField) (write : WriteExpr)
  | giveRecord
  deriving DecidableEq

namespace WriterStatement

def text : WriterStatement → String
  | .takeFields fields more =>
      "let Self \x7b " ++ ", ".intercalate (fields.map EntityField.ident) ++
        (if more then ", .." else "") ++ " \x7d = self;"
  | .makeRecord => "let mut " ++ recordName ++ " = serde_json::Map::new();"
  | .putVariant => discriminatorInsert
  | .putMember field write => field.insertText write
  | .giveRecord => "serde_json::Value::Object(" ++ recordName ++ ")"

def binds : WriterStatement → Bound
  | .takeFields fields _ => fields.map fun f => (Name.fileStem f.ident, .field f.key)
  | .makeRecord => [(recordName, .record)]
  | .putVariant | .putMember _ _ | .giveRecord => []

def usesRecord : WriterStatement → Bool
  | .takeFields _ _ | .makeRecord => false
  | .putVariant | .putMember _ _ | .giveRecord => true

def placed (bound : Bound) : List WriterStatement → List (WriterStatement × Bound)
  | [] => []
  | s :: rest => (s, bound) :: placed (s.binds ++ bound) rest

end WriterStatement

open WriterStatement

namespace EntityCode
variable (c : EntityCode)

def writing : List WriterStatement :=
  .putVariant :: c.writtenParts.map (fun p => .putMember p.1 p.2) ++ [.giveRecord]

def taking : WriterStatement :=
  .takeFields (c.writtenParts.map Prod.fst) (c.writtenParts.length < c.parts.length)

def writerStatements : List WriterStatement := c.taking :: .makeRecord :: c.writing

def writerPlaces : List (WriterStatement × Bound) := placed [] c.writerStatements

def Rebinds : Prop := ∃ p ∈ c.writerPlaces, ∃ a ∈ p.1.binds, ∃ b ∈ p.2, a.1 = b.1

/-- The expression of every property means the field of this property by each of its names. -/
def MeansFields : Prop :=
  ∀ p ∈ c.writerPlaces, ∀ f write, p.1 = .putMember f write →
    ∀ name ∈ write.free f.ident, p.2.meaning? name = some (.field f.key)

end EntityCode

/-- What the names mean in the method that writes the record of an entity. -/
structure WriterNames (x : Entity) (c : EntityCode) : Prop where
  record : ∀ p ∈ c.writerPlaces, p.1.usesRecord = true → p.2.meaning? recordName = some .record
  rebinds : c.Rebinds ↔ ∃ key, WritesKey x key ∧ Name.fileStem (Name.snakeCase key) = recordName
  meansFields : c.MeansFields ↔ ¬ c.Rebinds ∧ ∀ a b, WritesKey x a → WritesKey x b →
    Name.fileStem (Name.fieldIdent a) = Name.fileStem (Name.fieldIdent b) → a = b
  unmarked : (∀ key, WritesKey x key → ¬ ['r', '#'] <+: (Name.snakeCase key).toList) →
    (c.MeansFields ↔ ¬ c.Rebinds)
  captured : ∀ p ∈ c.writerPlaces, ∀ f write, p.1 = .putMember f write →
    Name.fileStem f.ident = recordName →
      ∀ name ∈ write.free f.ident, p.2.meaning? name = some .record

theorem WriteExpr.free_eq (e : WriteExpr) (name : String) : e.free name = [name] := by
  induction e generalizing name with
  | text | copied | scalar _ | record => rfl
  | list item ih => simp [WriteExpr.free, ih]
  | nullable inner ih => simp [WriteExpr.free, ih]

namespace EntityCode
variable (c : EntityCode)

theorem destructuring_eq : c.destructuring = c.taking.text := by
  have idents : c.writtenParts.map (·.1.ident) =
      (c.writtenParts.map Prod.fst).map EntityField.ident := by
    rw [List.map_map]
    rfl
  unfold destructuring taking WriterStatement.text
  dsimp only
  rw [idents]
  by_cases more : c.writtenParts.length < c.parts.length
  · simp only [more, decide_true, if_true]
  · simp only [more, decide_false, if_false, Bool.false_eq_true]

theorem toJsonSteps_eq : c.toJsonSteps = c.writerStatements.map fun s => .line s.text := by
  have inserts : c.members.map (fun member => insertStep member.1 member.2) =
      c.writtenParts.map fun p => .line (WriterStatement.text (.putMember p.1 p.2)) := by
    rw [members, List.map_map]
    rfl
  have made : WriterStatement.text .makeRecord = "let mut json = serde_json::Map::new();" := rfl
  have given : WriterStatement.text .giveRecord = "serde_json::Value::Object(json)" := rfl
  have named : WriterStatement.text .putVariant = discriminatorInsert := rfl
  rw [toJsonSteps, writingSteps, inserts, destructuring_eq, writerStatements, writing, ← made,
    ← given, ← named]
  simp only [List.map_cons, List.map_append, List.map_map, List.cons_append, List.nil_append,
    List.map_nil, Function.comp_def]

def takenFields : Bound :=
  c.writtenParts.map fun p => (Name.fileStem p.1.ident, .field p.1.key)

theorem placed_of_silent {bound : Bound} {statements : List WriterStatement}
    (silent : ∀ s ∈ statements, s.binds = []) :
    placed bound statements = statements.map fun s => (s, bound) := by
  induction statements with
  | nil => rfl
  | cons s rest ih =>
    rw [List.forall_mem_cons] at silent
    rw [placed, silent.1, List.nil_append, ih silent.2, List.map_cons]

theorem placed_cons (bound : Bound) (s : WriterStatement) (rest : List WriterStatement) :
    placed bound (s :: rest) = (s, bound) :: placed (s.binds ++ bound) rest := rfl

theorem mem_writing {s : WriterStatement} : s ∈ c.writing ↔
    s = .putVariant ∨ (∃ p ∈ c.writtenParts, s = .putMember p.1 p.2) ∨ s = .giveRecord := by
  simp only [writing, List.cons_append, List.mem_cons, List.mem_append, List.mem_map,
    List.not_mem_nil, or_false, eq_comm]

def writingBound : Bound := (recordName, .record) :: c.takenFields

theorem silent_writing : ∀ s ∈ c.writing, s.binds = [] := by
  intro s mem
  rcases c.mem_writing.mp mem with rfl | ⟨p, _, rfl⟩ | rfl
  · rfl
  · rfl
  · rfl

theorem binds_taking : c.taking.binds = c.takenFields := by
  rw [taking, WriterStatement.binds, List.map_map]
  rfl

/-- Where the statements stand. None that writes binds a name, so that the same names are bound for
    all of them. -/
theorem mem_writerPlaces {p : WriterStatement × Bound} : p ∈ c.writerPlaces ↔
    p = (c.taking, []) ∨ p = (.makeRecord, c.takenFields) ∨
      ∃ s ∈ c.writing, p = (s, c.writingBound) := by
  have recorded : WriterStatement.binds .makeRecord ++ c.takenFields = c.writingBound := rfl
  rw [writerPlaces, writerStatements, placed_cons, placed_cons, binds_taking, List.append_nil,
    recorded, placed_of_silent c.silent_writing, List.mem_cons, List.mem_cons, List.mem_map]
  simp only [eq_comm]

theorem forall_putMember (P : EntityField → WriteExpr → Bound → Prop) :
    (∀ p ∈ c.writerPlaces, ∀ f write, p.1 = .putMember f write → P f write p.2) ↔
      ∀ q ∈ c.writtenParts, P q.1 q.2 c.writingBound := by
  constructor
  · intro all q mem
    have there : WriterStatement.putMember q.1 q.2 ∈ c.writing :=
      c.mem_writing.mpr (.inr (.inl ⟨q, mem, rfl⟩))
    exact all _ (c.mem_writerPlaces.mpr (.inr (.inr ⟨_, there, rfl⟩))) q.1 q.2 rfl
  · intro all p mem f write put
    rcases c.mem_writerPlaces.mp mem with rfl | rfl | ⟨s, there, rfl⟩
    · contradiction
    · contradiction
    · cases put
      rcases c.mem_writing.mp there with same | ⟨q, written, same⟩ | same
      · contradiction
      · cases same
        exact all q written
      · contradiction

theorem meaning?_of_captured {name : String} (captured : Name.fileStem name = recordName) :
    c.writingBound.meaning? name = some .record := by
  rw [Bound.meaning?, captured, writingBound, List.lookup_cons_self]

theorem meaning?_of_usesRecord : ∀ p ∈ c.writerPlaces, p.1.usesRecord = true →
    p.2.meaning? recordName = some .record := by
  intro p mem uses
  rcases c.mem_writerPlaces.mp mem with rfl | rfl | ⟨s, _, rfl⟩
  · contradiction
  · contradiction
  · exact c.meaning?_of_captured (by decide)

theorem captured_of_recordName : ∀ p ∈ c.writerPlaces, ∀ f write, p.1 = .putMember f write →
    Name.fileStem f.ident = recordName →
      ∀ name ∈ write.free f.ident, p.2.meaning? name = some .record := by
  refine (c.forall_putMember fun f write bound => Name.fileStem f.ident = recordName →
    ∀ name ∈ write.free f.ident, bound.meaning? name = some .record).mpr ?_
  intro q written captured name mem
  rw [WriteExpr.free_eq, List.mem_singleton] at mem
  exact mem ▸ c.meaning?_of_captured captured

theorem rebinds_iff :
    c.Rebinds ↔ ∃ q ∈ c.writtenParts, Name.fileStem q.1.ident = recordName := by
  constructor
  · rintro ⟨p, mem, a, bound, b, before, same⟩
    rcases c.mem_writerPlaces.mp mem with rfl | rfl | ⟨s, there, rfl⟩
    · contradiction
    · cases List.mem_singleton.mp bound
      obtain ⟨q, written, rfl⟩ := List.mem_map.mp before
      exact ⟨q, written, same.symm⟩
    · rw [c.silent_writing s there] at bound
      contradiction
  · rintro ⟨q, written, same⟩
    have taken : (Name.fileStem q.1.ident, Meaning.field q.1.key) ∈ c.takenFields :=
      List.mem_map_of_mem written
    exact ⟨_, c.mem_writerPlaces.mpr (.inr (.inl rfl)), _, List.mem_singleton_self _, _, taken,
      same.symm⟩

theorem exists_meaning?_of_ne {q : EntityField × WriteExpr} (written : q ∈ c.writtenParts)
    (free : Name.fileStem q.1.ident ≠ recordName) :
    ∃ first ∈ c.writtenParts, Name.fileStem first.1.ident = Name.fileStem q.1.ident ∧
      c.writingBound.meaning? q.1.ident = some (.field first.1.key) := by
  rw [Bound.meaning?, writingBound, Table.lookup_cons_of_ne free]
  have there : (Name.fileStem q.1.ident, Meaning.field q.1.key) ∈ c.takenFields :=
    List.mem_map_of_mem written
  cases found : c.takenFields.lookup (Name.fileStem q.1.ident) with
  | none => simpa using List.lookup_eq_none_iff.mp found _ there
  | some meaning =>
    obtain ⟨first, mem, same⟩ := List.mem_map.mp (Table.mem_of_lookup_eq_some found)
    obtain ⟨stem, field⟩ := Prod.mk.inj same
    exact ⟨first, mem, stem, field ▸ rfl⟩

theorem meansFields_iff : c.MeansFields ↔
    ¬ c.Rebinds ∧ ∀ q ∈ c.writtenParts, ∀ r ∈ c.writtenParts,
      Name.fileStem q.1.ident = Name.fileStem r.1.ident → q.1.key = r.1.key := by
  have own : c.MeansFields ↔ ∀ q ∈ c.writtenParts,
      c.writingBound.meaning? q.1.ident = some (.field q.1.key) := by
    refine (c.forall_putMember fun f write bound =>
      ∀ name ∈ write.free f.ident, bound.meaning? name = some (.field f.key)).trans ?_
    simp only [WriteExpr.free_eq, List.mem_singleton, forall_eq]
  rw [own, rebinds_iff]
  constructor
  · intro means
    refine ⟨?_, ?_⟩
    · rintro ⟨q, written, captured⟩
      have hidden := meaning?_of_captured c captured
      rw [means q written] at hidden
      cases hidden
    · intro q first r second same
      have meaning := means q first
      rw [Bound.meaning?, same, ← Bound.meaning?, means r second] at meaning
      exact (Meaning.field.inj (Option.some.inj meaning)).symm
  · rintro ⟨free, apart⟩ q written
    have other : Name.fileStem q.1.ident ≠ recordName := fun same => free ⟨q, written, same⟩
    obtain ⟨first, mem, same, meaning⟩ := c.exists_meaning?_of_ne written other
    rw [meaning, apart first mem q written same]

end EntityCode

theorem fileStem_escape_eq_recordName {name : String} :
    Name.fileStem (Name.escape name) = recordName ↔ Name.fileStem name = recordName := by
  have reserved : ∀ word ∈ Name.reserved, Name.fileStem word ≠ recordName ∧
      Name.fileStem (word ++ "_") ≠ recordName := by decide
  rcases Name.escape_cases name with ⟨held, form⟩ | ⟨_, form⟩ | form
  · exact form ▸ iff_of_false (reserved name held).2 (reserved name held).1
  · rw [form, Name.fileStem_raw]
  · rw [form]

theorem writesKey_iff_mem {m : Model} {name key : String} {x : Entity} {c : EntityCode}
    (made : entityCodeOf m true name x = .ok c) :
    WritesKey x key ↔ ∃ q ∈ c.writtenParts, q.1.key = key := by
  rw [← mem_memberKeys_iff made, EntityCode.members, List.map_map, List.mem_map]
  rfl

theorem ident_of_mem_writtenParts {m : Model} {name : String} {x : Entity} {c : EntityCode}
    (made : entityCodeOf m true name x = .ok c) {q : EntityField × WriteExpr}
    (written : q ∈ c.writtenParts) : q.1.ident = Name.fieldIdent q.1.key := by
  obtain ⟨_, _, fields⟩ := entityCodeOf_eq_ok made
  obtain ⟨⟨_, part⟩, parted, some⟩ := List.mem_filterMap.mp written
  obtain ⟨_, _, rfl⟩ := Option.map_eq_some_iff.mp some
  obtain ⟨f, mem, some⟩ := List.mem_filterMap.mp parted
  obtain ⟨_, _, same⟩ := Option.map_eq_some_iff.mp some
  cases same
  obtain ⟨p, _, binding, _, run⟩ := exists_left_of_mem fields mem
  obtain ⟨key, ident, _⟩ := entityFieldOf_names run
  rw [key, ident]

theorem admits_of_entityFields {m : Model} {owner : String} {isVariant : Bool} {scope : Scope}
    {properties : List (String × Property)} {fields : List EntityField}
    (run : entityFields m owner isVariant scope properties = .ok fields) :
    scope.Admits (properties.map fun p => (Name.fieldIdent p.1, p.1)) := by
  induction properties generalizing scope fields with
  | nil => exact Scope.admits_nil scope
  | cons first rest ih =>
    obtain ⟨_, _, run⟩ := bind_eq_ok.mp run
    obtain ⟨next, claimed, run⟩ := bind_eq_ok.mp run
    obtain ⟨_, _, run⟩ := bind_eq_ok.mp run
    obtain ⟨_, others, _⟩ := bind_eq_ok.mp run
    exact Scope.admits_cons.mpr ⟨next, claimed, ih others⟩

theorem eq_of_fieldIdent_eq {m : Model} {name : String} {x : Entity} {c : EntityCode}
    (made : entityCodeOf m true name x = .ok c) {a b : String} (first : WritesKey x a)
    (second : WritesKey x b) (same : Name.fieldIdent a = Name.fieldIdent b) : a = b := by
  obtain ⟨p, there, _⟩ := first
  obtain ⟨q, here, _⟩ := second
  obtain ⟨_, run, _⟩ := bind_eq_ok.mp made
  exact (admits_of_entityFields run).alike _ (List.mem_map_of_mem there) _
    (List.mem_map_of_mem here) same

section Made
variable {m : Model} {name : String} {x : Entity} {c : EntityCode}
  (made : entityCodeOf m true name x = .ok c)
include made

theorem rebinds_iff_writesKey : c.Rebinds ↔
    ∃ key, WritesKey x key ∧ Name.fileStem (Name.snakeCase key) = recordName := by
  rw [c.rebinds_iff]
  constructor
  · rintro ⟨q, written, captured⟩
    rw [ident_of_mem_writtenParts made written, Name.fieldIdent,
      fileStem_escape_eq_recordName] at captured
    exact ⟨q.1.key, (writesKey_iff_mem made).mpr ⟨q, written, rfl⟩, captured⟩
  · rintro ⟨key, writes, captured⟩
    obtain ⟨q, written, rfl⟩ := (writesKey_iff_mem made).mp writes
    refine ⟨q, written, ?_⟩
    rwa [ident_of_mem_writtenParts made written, Name.fieldIdent, fileStem_escape_eq_recordName]

theorem meansFields_iff_writesKey : c.MeansFields ↔
    ¬ c.Rebinds ∧ ∀ a b, WritesKey x a → WritesKey x b →
      Name.fileStem (Name.fieldIdent a) = Name.fileStem (Name.fieldIdent b) → a = b := by
  have named : ∀ q ∈ c.writtenParts, q.1.ident = Name.fieldIdent q.1.key :=
    fun q written => ident_of_mem_writtenParts made written
  rw [c.meansFields_iff]
  refine and_congr_right fun _ => ?_
  constructor
  · intro apart a b first second same
    obtain ⟨q, written, rfl⟩ := (writesKey_iff_mem made).mp first
    obtain ⟨r, other, rfl⟩ := (writesKey_iff_mem made).mp second
    exact apart q written r other (by rwa [named q written, named r other])
  · intro apart q written r other same
    refine apart _ _ ((writesKey_iff_mem made).mpr ⟨q, written, rfl⟩)
      ((writesKey_iff_mem made).mpr ⟨r, other, rfl⟩) ?_
    rwa [← named q written, ← named r other]

/-- Names that differ only by a raw mark pass the check of the names. Without marks it tells all
    fields apart. -/
theorem meansFields_iff_of_unmarked
    (unmarked : ∀ key, WritesKey x key → ¬ ['r', '#'] <+: (Name.snakeCase key).toList) :
    c.MeansFields ↔ ¬ c.Rebinds := by
  refine (meansFields_iff_writesKey made).trans (and_iff_left ?_)
  intro a b first second same
  have idents := congrArg Name.escape same
  rw [Name.fieldIdent, Name.fieldIdent, Name.escape_fileStem_escape (unmarked a first),
    Name.escape_fileStem_escape (unmarked b second)] at idents
  exact eq_of_fieldIdent_eq made first second idents

theorem writerNames : WriterNames x c where
  record := c.meaning?_of_usesRecord
  rebinds := rebinds_iff_writesKey made
  meansFields := meansFields_iff_writesKey made
  unmarked := meansFields_iff_of_unmarked made
  captured := c.captured_of_recordName

end Made

def WritesByNames (m : Model) (t : Tree) (variant : String) (x : Entity) : Prop :=
  ∃ f ∈ t.files, f.source.item = variant ∧ ∃ c, entityCodeOf m true variant x = .ok c ∧
    HasMethod f.source.body variant toJsonHeader (c.writerStatements.map fun s => .line s.text) ∧
    WriterNames x c

theorem writesByNames {m : Model} {tree : Tree} (run : generate m = .ok tree) {name : String}
    {x : Entity} (found : m.get? name = some (.entity x)) (isVariant : m.IsVariant name) :
    WritesByNames m tree name x := by
  obtain ⟨f, there, named, c, isCode, made⟩ := exists_entityCode run found isVariant
  obtain ⟨same, variant, _⟩ := entityCodeOf_eq_ok made
  have body : f.source.body = emitted c.body := by rw [ItemFile.source, isCode, ItemCode.body]
  refine ⟨f, there, named, c, made, ?_, writerNames made⟩
  rw [body, ← c.toJsonSteps_eq, ← same]
  exact EntityCode.hasMethod_toJson variant

/-- In the method that writes a variant, the name of the record means the record wherever the record
    is written. It is bound over a field exactly if a written key is the same name in snake case, and
    the expression of this property then means the record. Every property means its own field
    exactly if there is no such key and no two keys have one name; two keys can have one name only
    with a raw mark. -/
theorem generateText_writesByNames {text : String} {tree : Tree}
    (run : generateText text = .ok tree) :
    ∃ m, Model.ofText text = .ok m ∧ ∀ name x, m.get? name = some (.entity x) →
      m.IsVariant name → WritesByNames m tree name x := by
  obtain ⟨m, loaded, run⟩ := generateText_eq_ok run
  exact ⟨m, loaded, fun name x found isVariant => writesByNames run found isVariant⟩

def derivedRecordText : String :=
  "<schema><entity name=\"A\">" ++
  "<property name=\"json\" type=\"[A]\" derivedFrom=\"a\"/>" ++
  "<property name=\"type\" type=\"String\"/></entity>" ++
  "<union name=\"U\"><variant name=\"A\"/></union></schema>"

def derivedRecordEntity : Entity where
  description := none
  properties := { entries :=
    [("id", ⟨.scalar "ID", false, none⟩), ("json", ⟨.inverse "A" "a", true, none⟩),
     ("type", ⟨.scalar "String", true, none⟩)] }

def derivedRecordModel : Model where
  items := { entries :=
    [("A", .entity derivedRecordEntity), ("U", .union ⟨none, ["A"]⟩)] }

theorem derivedRecordText_writesByNames :
    ∃ tree, generateText derivedRecordText = .ok tree ∧
      WritesByNames derivedRecordModel tree "A" derivedRecordEntity := by
  have loaded : Model.ofText derivedRecordText = .ok derivedRecordModel :=
    eq_ok_of_toOption (by decide +kernel)
  have generates : (generate derivedRecordModel).toOption.isSome = true := by decide +kernel
  obtain ⟨tree, some⟩ := Option.isSome_iff_exists.mp generates
  have run : generateText derivedRecordText = .ok tree :=
    generateText_of_ofText loaded (eq_ok_of_toOption (by decide +kernel)) (eq_ok_of_toOption some)
  obtain ⟨m, same, variants⟩ := generateText_writesByNames run
  rw [loaded] at same
  cases same
  exact ⟨tree, run, variants "A" derivedRecordEntity rfl ⟨"U", ⟨none, ["A"]⟩, rfl, by simp⟩⟩

def capturedText : String :=
  "<schema><entity name=\"A\"><property name=\"json\" type=\"String\"/></entity>" ++
  "<union name=\"U\"><variant name=\"A\"/></union></schema>"

def capturedEntity : Entity where
  description := none
  properties := { entries :=
    [("id", ⟨.scalar "ID", false, none⟩), ("json", ⟨.scalar "String", true, none⟩)] }

def capturedModel : Model where
  items := { entries :=
    [("A", .entity capturedEntity), ("U", .union ⟨none, ["A"]⟩)] }

def capturedLines : List String :=
  ["let Self \x7b id, json \x7d = self;",
   "let mut json = serde_json::Map::new();",
   "json.insert(marshal::DISCRIMINATOR.to_string(), serde_json::Value::from(Self::IS_TYPE_OF));",
   "json.insert(\"id\".to_string(), serde_json::Value::from(id.as_str()));",
   "json.insert(\"json\".to_string(), json.as_ref().map_or(serde_json::Value::Null, " ++
     "|value| serde_json::Value::from(value.as_str())));",
   "serde_json::Value::Object(json)"]

theorem capturedText_rebinds :
    Model.ofText capturedText = .ok capturedModel ∧
      ∃ tree, generateText capturedText = .ok tree ∧
        ∃ f ∈ tree.files, f.source.item = "A" ∧
          HasMethod f.source.body "A" toJsonHeader (capturedLines.map .line) ∧
          ∃ c, entityCodeOf capturedModel true "A" capturedEntity = .ok c ∧
            c.Rebinds ∧ ¬ c.MeansFields := by
  have loaded : Model.ofText capturedText = .ok capturedModel :=
    eq_ok_of_toOption (by decide +kernel)
  have generates : (generate capturedModel).toOption.isSome = true := by decide +kernel
  obtain ⟨tree, result⟩ := Option.isSome_iff_exists.mp generates
  have run : generate capturedModel = .ok tree := eq_ok_of_toOption result
  refine ⟨loaded, tree,
    generateText_of_ofText loaded (eq_ok_of_toOption (by decide +kernel)) run, ?_⟩
  have isVariant : capturedModel.IsVariant "A" := ⟨"U", ⟨none, ["A"]⟩, rfl, by simp⟩
  have found : capturedModel.get? "A" = some (.entity capturedEntity) := rfl
  obtain ⟨f, there, named, c, made, method, names⟩ := writesByNames run found isVariant
  have lines : (entityCodeOf capturedModel true "A" capturedEntity).map
      (fun c => c.writerStatements.map WriterStatement.text) = .ok capturedLines :=
    eq_ok_of_toOption (by decide +kernel)
  rw [made] at lines
  have steps : (c.writerStatements.map fun s => .line s.text) = capturedLines.map Step.line := by
    rw [← Except.ok.inj lines, List.map_map]
    rfl
  have writes : WritesKey capturedEntity "json" :=
    ⟨⟨.scalar "String", true, none⟩, by simp [capturedEntity], by simp⟩
  have rebinds : c.Rebinds := names.rebinds.mpr ⟨"json", writes, by decide⟩
  exact ⟨f, there, named, steps ▸ method, c, made, rebinds,
    fun means => (names.meansFields.mp means).1 rebinds⟩

end DataLayer.Code
