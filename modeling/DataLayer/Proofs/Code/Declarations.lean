import Mathlib.Data.List.Basic
import DataLayer.Proofs.Code.Methods

/- The lines by which generated code declares its names: types, fields, accessors, the functions for
   columns and the one that reads a union, variants and members. Each of them stands in the body of
   its file. -/
namespace DataLayer.Code

/-- A line that declares a name, with what it says before the name and behind it. -/
structure NameLine where
  before : String
  name : String
  after : String

def NameLine.line (d : NameLine) : String := d.before ++ d.name ++ d.after

/-- The text is a line of the steps, at whatever level. -/
def Says (steps : List Step) (text : String) : Prop :=
  ∀ level, ∃ inner, indented inner text ∈ (emitAll level steps).1

section Says
variable {steps body : List Step} {header text : String}

theorem exists_emit_subset {step : Step} (mem : step ∈ steps) (level : Nat) :
    ∃ inner, (step.emit inner).1 ⊆ (emitAll level steps).1 := by
  induction steps generalizing level with
  | nil => exact absurd mem List.not_mem_nil
  | cons first rest ih =>
    rw [emitAll]
    rcases List.mem_cons.mp mem with rfl | mem
    · exact ⟨level, List.subset_append_left _ _⟩
    · obtain ⟨inner, found⟩ := ih mem (first.emit level).2
      exact ⟨inner, List.subset_append_of_subset_right _ found⟩

theorem says_line (mem : .line text ∈ steps) : Says steps text := by
  intro level
  obtain ⟨inner, found⟩ := exists_emit_subset mem level
  exact ⟨inner, found (by simp [Step.emit])⟩

theorem says_header (mem : .block header body ∈ steps) : Says steps (header ++ " \x7b") := by
  intro level
  obtain ⟨inner, found⟩ := exists_emit_subset mem level
  exact ⟨inner, found (by simp [Step.emit])⟩

theorem says_block (mem : .block header body ∈ steps) (inside : Says body text) :
    Says steps text := by
  intro level
  obtain ⟨inner, found⟩ := exists_emit_subset mem level
  obtain ⟨deeper, said⟩ := inside (inner + 1)
  exact ⟨deeper, found (by simp [Step.emit, said])⟩

theorem mem_parted {groups : List (List Step)} {group : List Step} (listed : group ∈ groups)
    {step : Step} (mem : step ∈ group) : step ∈ parted groups := by
  induction groups with
  | nil => exact absurd listed List.not_mem_nil
  | cons first rest ih =>
    rcases List.mem_cons.mp listed with rfl | later
    · cases rest with
      | nil => exact mem
      | cons next more => exact List.mem_append_left _ mem
    · cases rest with
      | nil => exact absurd later List.not_mem_nil
      | cons next more => exact List.mem_append_right _ (List.mem_cons_of_mem _ (ih later))

end Says

namespace EntityField

def declaration (f : EntityField) : NameLine := ⟨"pub ", f.ident, ": " ++ f.type.render ++ ","⟩

def columnDeclarations (f : EntityField) : List NameLine :=
  if f.document.isSome then
    [⟨"pub fn ", Name.snakeCase f.key ++ "_to_column",
      "(value: &" ++ f.type.render ++ ") -> serde_json::Value" ++ " \x7b"⟩,
     ⟨"pub fn ", Name.snakeCase f.key ++ "_from_column",
      "(json: &serde_json::Value) -> Result<" ++ f.type.render ++ ", marshal::MarshalError>" ++
        " \x7b"⟩]
  else []

theorem says_columnDeclarations {f : EntityField} {steps : List Step}
    (held : ∀ step ∈ f.documentSteps, step ∈ steps) {d : NameLine}
    (listed : d ∈ f.columnDeclarations) : Says steps d.line := by
  unfold columnDeclarations at listed
  unfold documentSteps at held
  cases stored : f.document with
  | none =>
    rw [stored, Option.isSome_none, if_neg Bool.false_ne_true] at listed
    exact absurd listed List.not_mem_nil
  | some document =>
    rw [stored, Option.isSome_some, if_pos rfl] at listed
    rw [stored] at held
    rcases List.mem_pair.mp listed with rfl | rfl
    · have said := says_header (held _ (List.mem_of_getElem? (i := 2) rfl))
      have joined : "_to_column(value: &" = "_to_column" ++ "(value: &" := rfl
      rw [joined] at said
      simpa only [NameLine.line, String.append_assoc] using said
    · have said := says_header (held _ (List.mem_of_getElem? (i := 8) rfl))
      have joined : "_from_column(json: &serde_json::Value) -> Result<" =
        "_from_column" ++ "(json: &serde_json::Value) -> Result<" := rfl
      rw [joined] at said
      simpa only [NameLine.line, String.append_assoc] using said

end EntityField

namespace EntityCode

def declarations (c : EntityCode) : List NameLine :=
  ⟨"pub struct ", c.name, " \x7b"⟩ ::
    c.fields.flatMap fun f => f.declaration :: f.columnDeclarations

theorem says_declarations {c : EntityCode} {d : NameLine} (listed : d ∈ c.declarations) :
    Says c.body d.line := by
  have shape : .block ("pub struct " ++ c.name) c.fieldSteps ∈ c.body := by
    simp [body, structSteps, fieldSteps]
  rcases List.mem_cons.mp listed with rfl | listed
  · exact says_header shape
  · obtain ⟨f, mem, listed⟩ := List.mem_flatMap.mp listed
    rcases List.mem_cons.mp listed with rfl | listed
    · refine says_block shape (says_line (List.mem_flatMap.mpr ⟨f, mem, ?_⟩))
      simp [EntityField.declaration, NameLine.line, String.append_assoc]
    · have stored : f.document.isSome = true := by
        unfold EntityField.columnDeclarations at listed
        split at listed
        · assumption
        · exact absurd listed List.not_mem_nil
      have group : f.documentSteps ∈ c.methodGroups :=
        List.mem_append_right _ (List.mem_map_of_mem (List.mem_filter.mpr ⟨mem, stored⟩))
      have methods : .block ("impl " ++ c.name) (parted c.methodGroups) ∈ c.body := by
        have some : c.methodGroups.isEmpty = false := by
          simpa using List.ne_nil_of_mem group
        simp [body, some]
      exact says_block methods
        (EntityField.says_columnDeclarations (fun _ => mem_parted group) listed)

end EntityCode

namespace ObjectField

def declaration (f : ObjectField) : NameLine :=
  ⟨"", f.ident, ": Option<" ++ f.type.render ++ ">,"⟩

def accessorDeclarations (f : ObjectField) : List NameLine :=
  let type := f.type.render
  if f.nullable then
    [⟨"pub fn ", f.ident, "(&self) -> Option<&" ++ type ++ ">" ++ " \x7b"⟩,
     ⟨"pub fn ", f.setter, "(&mut self, value: Option<" ++ type ++ ">)" ++ " \x7b"⟩]
  else
    [⟨"pub fn ", f.ident, "(&self) -> &" ++ type ++ " \x7b"⟩,
     ⟨"pub fn ", f.setter, "(&mut self, value: " ++ type ++ ")" ++ " \x7b"⟩]

theorem says_accessorDeclarations {f : ObjectField} (owner : String) {steps : List Step}
    (held : ∀ step ∈ f.accessorSteps owner, step ∈ steps) {d : NameLine}
    (listed : d ∈ f.accessorDeclarations) : Says steps d.line := by
  unfold accessorDeclarations at listed
  unfold accessorSteps at held
  cases nullable : f.nullable with
  | true =>
    rw [nullable] at held
    rw [nullable, if_pos rfl] at listed
    rcases List.mem_pair.mp listed with rfl | rfl
    · have said := says_header (held _ (List.mem_of_getElem? (i := 3) rfl))
      simpa only [NameLine.line, String.append_assoc] using said
    · have said := says_header (held _ (List.mem_of_getElem? (i := 5) rfl))
      simpa only [NameLine.line, String.append_assoc] using said
  | false =>
    rw [nullable] at held
    rw [nullable, if_neg Bool.false_ne_true] at listed
    rcases List.mem_pair.mp listed with rfl | rfl
    · have said := says_header (held _ (List.mem_of_getElem? (i := 3) rfl))
      simpa only [NameLine.line, String.append_assoc] using said
    · have said := says_header (held _ (List.mem_of_getElem? (i := 5) rfl))
      simpa only [NameLine.line, String.append_assoc] using said

end ObjectField

namespace ObjectCode

def declarations (c : ObjectCode) : List NameLine :=
  ⟨"pub struct ", c.name, if c.fields.isEmpty then " \x7b\x7d" else " \x7b"⟩ ::
    c.fields.flatMap fun f => f.declaration :: f.accessorDeclarations

def fieldSteps (c : ObjectCode) : List Step :=
  c.fields.map fun f => .line (f.ident ++ ": Option<" ++ f.type.render ++ ">,")

theorem mem_body_struct {c : ObjectCode} (some : c.fields.isEmpty = false) :
    .block ("pub struct " ++ c.name) c.fieldSteps ∈ c.body := by
  simp [body, structSteps, fieldSteps, some]

theorem says_declarations {c : ObjectCode} {d : NameLine} (listed : d ∈ c.declarations) :
    Says c.body d.line := by
  rcases List.mem_cons.mp listed with rfl | listed
  · cases empty : c.fields.isEmpty with
    | true =>
      refine says_line ?_
      simp [NameLine.line, body, structSteps, empty]
    | false => exact says_header (mem_body_struct empty)
  · obtain ⟨f, mem, listed⟩ := List.mem_flatMap.mp listed
    have some : c.fields.isEmpty = false := by simpa using List.ne_nil_of_mem mem
    rcases List.mem_cons.mp listed with rfl | listed
    · refine says_block (mem_body_struct some) (says_line (List.mem_map.mpr ⟨f, mem, ?_⟩))
      simp [ObjectField.declaration, NameLine.line, String.append_assoc]
    · have accessors : ∀ step ∈ f.accessorSteps c.name,
          step ∈ c.fields.flatMap (ObjectField.accessorSteps c.name) := fun step held =>
        List.mem_flatMap.mpr ⟨f, mem, held⟩
      refine says_block (List.mem_append_right _ (List.mem_cons_of_mem _ List.mem_cons_self)) ?_
      refine ObjectField.says_accessorDeclarations c.name (fun step held => ?_) listed
      simp [accessors step held]

end ObjectCode

namespace UnionCode

def declarations (c : UnionCode) : List NameLine :=
  ⟨"pub enum ", c.name, " \x7b"⟩ ::
    ⟨"pub fn ", Name.dispatchIdent c.name,
      "(json: &serde_json::Value) -> Result<" ++ c.name ++ ", marshal::MarshalError>" ++ " \x7b"⟩ ::
    c.variants.map fun v => ⟨"", v, "(" ++ v ++ "),"⟩

theorem says_declarations {c : UnionCode} {d : NameLine} (listed : d ∈ c.declarations) :
    Says c.body d.line := by
  have shape : .block ("pub enum " ++ c.name)
      (c.variants.map fun v => .line (v ++ "(" ++ v ++ "),")) ∈ c.body := by
    simp [body, enumSteps]
  rcases List.mem_cons.mp listed with rfl | listed
  · exact says_header shape
  rcases List.mem_cons.mp listed with rfl | listed
  · have dispatch : ∀ step ∈ c.dispatchSteps, step ∈ c.body := fun _ => List.mem_append_right _
    have said := says_header (dispatch _ (List.mem_of_getElem? (i := 1) rfl))
    simpa only [NameLine.line, String.append_assoc] using said
  · obtain ⟨v, mem, rfl⟩ := List.mem_map.mp listed
    refine says_block shape (says_line (List.mem_map.mpr ⟨v, mem, ?_⟩))
    simp [NameLine.line, String.append_assoc]

end UnionCode

namespace EnumerationCode

def declarations (c : EnumerationCode) : List NameLine :=
  ⟨"pub enum ", c.name, " \x7b"⟩ :: c.members.map fun m => ⟨"", m.ident, ","⟩

theorem says_declarations {c : EnumerationCode} {d : NameLine} (listed : d ∈ c.declarations) :
    Says c.body d.line := by
  have shape : .block ("pub enum " ++ c.name) (c.members.map fun m => .line (m.ident ++ ","))
      ∈ c.body := by
    simp [body, enumSteps]
  rcases List.mem_cons.mp listed with rfl | listed
  · exact says_header shape
  · obtain ⟨m, mem, rfl⟩ := List.mem_map.mp listed
    refine says_block shape (says_line (List.mem_map.mpr ⟨m, mem, ?_⟩))
    simp [NameLine.line]

end EnumerationCode

def ItemCode.declarations : ItemCode → List NameLine
  | .entity c => c.declarations
  | .object c => c.declarations
  | .union c => c.declarations
  | .enumeration c => c.declarations

theorem ItemCode.says_declarations {c : ItemCode} {d : NameLine} (listed : d ∈ c.declarations) :
    Says c.body d.line := by
  cases c with
  | entity c => exact EntityCode.says_declarations listed
  | object c => exact ObjectCode.says_declarations listed
  | union c => exact UnionCode.says_declarations listed
  | enumeration c => exact EnumerationCode.says_declarations listed

end DataLayer.Code
