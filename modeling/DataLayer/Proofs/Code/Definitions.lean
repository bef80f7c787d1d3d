import DataLayer.Proofs.Code.Blocks

/- What the files of items define. The file of a variant has an implementation block with all that
   a union calls on its variants, and the file of a union the function that reads it. -/
namespace DataLayer.Code

/-- The opening lines of what a union relies on in a variant. -/
def variantDefinitions (name : String) : List String :=
  ["pub const IS_TYPE_OF: &'static str = \"" ++ name ++ "\";",
   "pub fn new(json: Option<&serde_json::Value>) -> Result<Self, marshal::MarshalError> \x7b",
   "pub fn is_type_of(&self) -> &'static str \x7b",
   "pub fn to_json(&self) -> serde_json::Value \x7b"]

def dispatchLine (name : String) : String :=
  "pub fn " ++ Name.dispatchIdent name ++ "(json: &serde_json::Value) -> Result<" ++ name ++
    ", marshal::MarshalError>" ++ " \x7b"

theorem balanced_discriminatorSteps (name : String) : Balanced (discriminatorSteps name) := by
  intro level
  simp [discriminatorSteps]

theorem balanced_isTypeOfSteps : Balanced isTypeOfSteps := by
  intro level
  simp [isTypeOfSteps]

theorem places_discriminator (name : String) : Places (discriminatorSteps name)
    ("pub const IS_TYPE_OF: &'static str = \"" ++ name ++ "\";") := by
  intro level
  simp [discriminatorSteps, emitAll, Step.emit]

theorem places_isTypeOf : Places isTypeOfSteps "pub fn is_type_of(&self) -> &'static str \x7b" := by
  intro level
  simp [isTypeOfSteps, emitAll, Step.emit]

theorem EntityField.balanced_documentSteps (f : EntityField) : Balanced f.documentSteps := by
  intro level
  unfold documentSteps
  split
  · simp
  · simp

namespace EntityCode

theorem balanced_structSteps (c : EntityCode) : Balanced c.structSteps := by
  intro level
  have fields : Balanced (c.fields.flatMap fun f =>
      [.doc f.description, .line ("pub " ++ f.ident ++ ": " ++ f.type.render ++ ",")]) := by
    refine balanced_flatMap fun f _ level => ?_
    simp
  simp [structSteps, fields (level + 1)]

theorem balanced_tableSteps (r : Support.Registration) : Balanced (tableSteps r) := by
  intro level
  have columns : Balanced (r.columns.map fun column => .line (columnEntry column)) :=
    balanced_map fun _ => ⟨_, rfl⟩
  simp [tableSteps, columns (level + 1)]

theorem balanced_registrationSteps (c : EntityCode) : Balanced c.registrationSteps :=
  balanced_block (balanced_tableSteps c.registration)

theorem hasDefinition_registration (c : EntityCode) :
    HasDefinition (emitted c.body) ("impl Entity for " ++ c.name) (tableSteps c.registration) := by
  have before : Balanced (c.structSteps ++ [.blank]) := by
    intro level
    simp [balanced_structSteps c level]
  have placed : PlacesBlock c.registrationSteps ("impl Entity for " ++ c.name)
      (tableSteps c.registration) := by
    refine placesBlock_of_mem ?_ (balanced_tableSteps c.registration) List.mem_cons_self
    intro step mem
    cases List.mem_singleton.mp mem
    exact balanced_registrationSteps c
  exact (placed.append_right before).append_left 0

section Record
variable (c : EntityCode)

theorem balanced_read : Balanced (c.parts.map fun (f, part) =>
    .line (f.ident ++ ": " ++ f.initialText part ++ ",")) :=
  balanced_map fun _ => ⟨_, rfl⟩

theorem balanced_written : Balanced (c.writtenParts.map fun (f, write) =>
    .line (f.insertText write)) :=
  balanced_map fun _ => ⟨_, rfl⟩

theorem balanced_recordSteps : Balanced c.recordSteps := by
  intro level
  have read := balanced_read c (level + 1 + 1)
  have written := balanced_written c (level + 1)
  simp [recordSteps, discriminatorSteps, isTypeOfSteps, read, written]

theorem places_recordSteps : ∀ text ∈ variantDefinitions c.name, Places c.recordSteps text := by
  intro text defined
  simp only [variantDefinitions, List.mem_cons, List.not_mem_nil, or_false] at defined
  unfold recordSteps
  rcases defined with rfl | rfl | rfl | rfl
  · refine Places.append_left (Places.append_left (Places.append_left ?_))
    exact places_discriminator c.name
  · refine Places.append_left (Places.append_left (Places.append_right ?_ ?_))
    · exact balanced_discriminatorSteps c.name
    · intro level
      simp [emitAll, Step.emit]
  · refine Places.append_left (Places.append_right ?_ ?_)
    · intro level
      have read := balanced_read c (level + 1 + 1)
      simp [discriminatorSteps, read]
    · exact places_isTypeOf
  · refine Places.append_right ?_ ?_
    · intro level
      have read := balanced_read c (level + 1 + 1)
      simp [discriminatorSteps, isTypeOfSteps, read]
    · intro level
      simp [emitAll, Step.emit]

end Record

theorem body_of_isVariant {c : EntityCode} (isVariant : c.isVariant = true) :
    ∃ before groups,
      c.body = before ++ .block ("impl " ++ c.name) (parted (c.recordSteps :: groups)) :: [] ∧
      Balanced before ∧ Balanced (parted (c.recordSteps :: groups)) := by
  refine ⟨c.structSteps ++ [.blank] ++ c.registrationSteps ++ [.blank],
    (c.fields.filter (·.document.isSome)).map EntityField.documentSteps, ?_, ?_, ?_⟩
  · simp [EntityCode.body, methodGroups, isVariant]
  · intro level
    simp [balanced_structSteps c level, balanced_registrationSteps c level]
  · refine balanced_parted fun group mem => ?_
    rcases List.mem_cons.mp mem with rfl | mem
    · exact balanced_recordSteps c
    · obtain ⟨f, _, rfl⟩ := List.mem_map.mp mem
      exact f.balanced_documentSteps

theorem hasBlock_body {c : EntityCode} (isVariant : c.isVariant = true) :
    HasBlock (emitted c.body) ("impl " ++ c.name) (variantDefinitions c.name) := by
  obtain ⟨before, groups, body, balancedBefore, balancedMethods⟩ := body_of_isVariant isVariant
  rw [body]
  refine hasBlock_of_places balancedBefore balancedMethods fun text defined => ?_
  exact places_parted (places_recordSteps c text defined)

end EntityCode

namespace ObjectCode

theorem balanced_structSteps (c : ObjectCode) : Balanced c.structSteps := by
  intro level
  have fields : Balanced (c.fields.map fun f =>
      .line (f.ident ++ ": Option<" ++ f.type.render ++ ">,")) :=
    balanced_map fun _ => ⟨_, rfl⟩
  unfold structSteps
  split
  · simp
  · simp [fields (level + 1)]

theorem balanced_readerSteps (c : ObjectCode) : Balanced c.readerSteps := by
  intro level
  have read : Balanced (c.fields.map fun f => .line f.readText) :=
    balanced_map fun _ => ⟨_, rfl⟩
  unfold readerSteps
  split
  · simp
  · simp [read (level + 1)]

theorem balanced_accessorSteps (owner : String) (f : ObjectField) :
    Balanced (f.accessorSteps owner) := by
  intro level
  unfold ObjectField.accessorSteps
  split
  · simp
  · simp

theorem balanced_writerSteps (c : ObjectCode) : Balanced c.writerSteps := by
  intro level
  have written : Balanced (c.fields.map fun f => .line f.insertText) :=
    balanced_map fun _ => ⟨_, rfl⟩
  cases isVariant : c.isVariant with
  | true => simp [writerSteps, isVariant, written (level + 1)]
  | false => simp [writerSteps, isVariant, written (level + 1)]

theorem places_readerSteps (c : ObjectCode) : Places c.readerSteps
    "pub fn new(json: Option<&serde_json::Value>) -> Result<Self, marshal::MarshalError> \x7b" := by
  intro level
  simp [readerSteps, emitAll, Step.emit]

theorem places_writerSteps (c : ObjectCode) : Places c.writerSteps
    "pub fn to_json(&self) -> serde_json::Value \x7b" := by
  intro level
  simp [writerSteps, emitAll, Step.emit]

section Methods
variable (c : ObjectCode)

def readingSteps : List Step :=
  discriminatorSteps c.name ++ [.blank] ++ c.readerSteps ++ .blank :: isTypeOfSteps ++
    c.fields.flatMap (ObjectField.accessorSteps c.name)

theorem balanced_readingSteps : Balanced c.readingSteps := by
  intro level
  have accessors : Balanced (c.fields.flatMap (ObjectField.accessorSteps c.name)) :=
    balanced_flatMap fun f _ => balanced_accessorSteps c.name f
  simp [readingSteps, balanced_discriminatorSteps c.name level, balanced_readerSteps c level,
    balanced_isTypeOfSteps level, accessors level]

theorem places_readingSteps :
    ∀ text ∈ variantDefinitions c.name, Places (c.readingSteps ++ c.writerSteps) text := by
  have named : Balanced (discriminatorSteps c.name ++ [.blank]) := by
    intro level
    simp [balanced_discriminatorSteps c.name level]
  intro text defined
  simp only [variantDefinitions, List.mem_cons, List.not_mem_nil, or_false] at defined
  rcases defined with rfl | rfl | rfl | rfl
  · refine Places.append_left (Places.append_left (Places.append_left (Places.append_left ?_)))
    exact (places_discriminator c.name).append_left
  · refine Places.append_left (Places.append_left (Places.append_left ?_))
    exact (places_readerSteps c).append_right named
  · refine Places.append_left (Places.append_left (Places.append_right ?_ ?_))
    · intro level
      simp only [level_append, named level, balanced_readerSteps c level]
    · exact Places.behind balanced_blank places_isTypeOf
  · exact (places_writerSteps c).append_right (balanced_readingSteps c)

end Methods

theorem body_of_isVariant {c : ObjectCode} (isVariant : c.isVariant = true) :
    c.body = (c.structSteps ++ [.blank]) ++
      .block ("impl " ++ c.name) (c.readingSteps ++ c.writerSteps) :: [] := by
  simp [ObjectCode.body, readingSteps, isVariant]

theorem hasBlock_body {c : ObjectCode} (isVariant : c.isVariant = true) :
    HasBlock (emitted c.body) ("impl " ++ c.name) (variantDefinitions c.name) := by
  rw [body_of_isVariant isVariant]
  refine hasBlock_of_places ?_ ?_ (places_readingSteps c)
  · intro level
    simp [balanced_structSteps c level]
  · intro level
    simp [balanced_readingSteps c level, balanced_writerSteps c level]

end ObjectCode

namespace UnionCode

theorem balanced_enumSteps (c : UnionCode) : Balanced c.enumSteps := by
  intro level
  have variants : Balanced (c.variants.map fun v => .line (v ++ "(" ++ v ++ "),")) :=
    balanced_map fun _ => ⟨_, rfl⟩
  simp [enumSteps, variants (level + 1)]

theorem balanced_methodSteps (c : UnionCode) : Balanced c.methodSteps := by
  intro level
  have named : Balanced (c.variants.map fun v =>
      .line ("Self::" ++ v ++ "(_) => " ++ v ++ "::IS_TYPE_OF,")) :=
    balanced_map fun _ => ⟨_, rfl⟩
  have written : Balanced (c.variants.map fun v =>
      .line ("Self::" ++ v ++ "(value) => value.to_json(),")) :=
    balanced_map fun _ => ⟨_, rfl⟩
  simp [methodSteps, named (level + 1 + 1 + 1), written (level + 1 + 1 + 1)]

theorem balanced_conversionSteps (c : UnionCode) (variant : String) :
    Balanced (c.conversionSteps variant) := by
  intro level
  simp [conversionSteps]

theorem places_dispatchSteps (c : UnionCode) : Places c.dispatchSteps (dispatchLine c.name) := by
  unfold dispatchSteps
  refine Places.behind ?_ places_block
  intro level
  simp

theorem balanced_before_dispatchSteps (c : UnionCode) :
    Balanced (c.enumSteps ++ [.blank] ++ c.methodSteps ++
      c.variants.flatMap c.conversionSteps ++ [.blank]) := by
  intro level
  have conversions : Balanced (c.variants.flatMap c.conversionSteps) :=
    balanced_flatMap fun variant _ => balanced_conversionSteps c variant
  simp [balanced_enumSteps c level, balanced_methodSteps c level, conversions level]

theorem mem_body (c : UnionCode) : dispatchLine c.name ∈ emitted c.body := by
  have placed : Places c.body (dispatchLine c.name) :=
    (places_dispatchSteps c).append_right (balanced_before_dispatchSteps c)
  have margin := placed 0
  rw [indented_zero] at margin
  exact margin

end UnionCode

end DataLayer.Code
