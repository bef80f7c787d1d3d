import DataLayer.Proofs.Code.Definitions

/- What stands in the methods by which variants are read and written, and in the function by which
   a union is read. Each is found whole in the body of its file, at its level. -/
namespace DataLayer.Code
open Text

def newHeader : String :=
  "pub fn new(json: Option<&serde_json::Value>) -> Result<Self, marshal::MarshalError>"

def toJsonHeader : String := "pub fn to_json(&self) -> serde_json::Value"

theorem each_discriminatorSteps (name : String) :
    ∀ step ∈ discriminatorSteps name, Balanced [step] := by
  simp [discriminatorSteps]

theorem each_isTypeOfSteps : ∀ step ∈ isTypeOfSteps, Balanced [step] := by
  simp [isTypeOfSteps, balanced_block]

def insertStep (key value : String) : Step :=
  .line ("json.insert(" ++ quoted key ++ ".to_string(), " ++ value ++ ");")

/-- A method that writes the discriminator into an empty record and after it, in order, a member for
    every key, each with the value of some expression. -/
def writingSteps (before : List Step) (members : List (String × String)) : List Step :=
  before ++ [.line "let mut json = serde_json::Map::new();", .line discriminatorInsert] ++
    members.map (fun member => insertStep member.1 member.2) ++
    [.line "serde_json::Value::Object(json)"]

theorem balanced_writingSteps {before : List Step} (balanced : Balanced before)
    (members : List (String × String)) : Balanced (writingSteps before members) := by
  intro level
  have inserts : Balanced (members.map fun member => insertStep member.1 member.2) :=
    balanced_map fun _ => ⟨_, rfl⟩
  simp [writingSteps, balanced level, inserts level]

namespace EntityCode
variable (c : EntityCode)

def newSteps : List Step :=
  [.line "let Some(json) = json else \x7b", .indent,
   .line "return Err(marshal::MarshalError::NullValue);", .dedent, .line "\x7d;",
   .line "Ok(Self \x7b", .indent] ++
  (c.parts.map fun (f, part) => .line (f.ident ++ ": " ++ f.initialText part ++ ",")) ++
  [.dedent, .line "\x7d)"]

theorem balanced_newSteps : Balanced c.newSteps := by
  intro level
  simp [newSteps, balanced_read c (level + 1)]

def members : List (String × String) :=
  c.writtenParts.map fun (f, write) =>
    (f.key, write.render (if write.isNullable then f.ident ++ ".as_ref()" else f.ident))

def toJsonSteps : List Step := writingSteps [.line c.destructuring] c.members

theorem balanced_toJsonSteps : Balanced c.toJsonSteps :=
  balanced_writingSteps (balanced_line _) c.members

theorem recordSteps_eq : c.recordSteps =
    discriminatorSteps c.name ++
    [.blank,
     .line ("/// Reads a `" ++ c.name ++ "` from a JSON record."),
     .line "///",
     .line "/// # Errors",
     .line "/// Returns `MarshalError` if the record is absent or a property has the",
     .line "/// wrong shape.",
     .block newHeader c.newSteps,
     .blank] ++
    isTypeOfSteps ++
    [.blank,
     .line "/// Writes this entity as a JSON record, discriminator included.",
     .line "#[must_use]",
     .block toJsonHeader c.toJsonSteps] := by
  have inserts : c.members.map (fun member => insertStep member.1 member.2) =
      c.writtenParts.map fun (f, write) => .line (f.insertText write) := by
    rw [members, List.map_map]
    rfl
  rw [toJsonSteps, writingSteps, inserts]
  rfl

theorem each_recordSteps : ∀ step ∈ c.recordSteps, Balanced [step] := by
  rw [recordSteps_eq]
  refine List.forall_mem_append.mpr ⟨List.forall_mem_append.mpr
    ⟨List.forall_mem_append.mpr ⟨each_discriminatorSteps c.name, ?_⟩, each_isTypeOfSteps⟩, ?_⟩
  · simp [balanced_block, balanced_newSteps]
  · simp [balanced_block, balanced_toJsonSteps]

variable {c}

theorem hasMethod_body {header : String} {body : List Step} (isVariant : c.isVariant = true)
    (balanced : Balanced body) (mem : .block header body ∈ c.recordSteps) :
    HasMethod (emitted c.body) c.name header body := by
  obtain ⟨before, groups, whole, balancedBefore, balancedMethods⟩ := body_of_isVariant isVariant
  have placed : PlacesBlock c.recordSteps header body :=
    placesBlock_of_mem (each_recordSteps c) balanced mem
  rw [whole]
  exact hasMethod_of_placesBlock balancedBefore balancedMethods (placesBlock_parted placed)

theorem hasMethod_new (isVariant : c.isVariant = true) :
    HasMethod (emitted c.body) c.name newHeader c.newSteps := by
  refine hasMethod_body isVariant (balanced_newSteps c) ?_
  rw [recordSteps_eq]
  refine List.mem_append_left _ (List.mem_append_left _ (List.mem_append_right _ ?_))
  simp only [List.mem_cons, true_or, or_true]

theorem hasMethod_toJson (isVariant : c.isVariant = true) :
    HasMethod (emitted c.body) c.name toJsonHeader c.toJsonSteps := by
  refine hasMethod_body isVariant (balanced_toJsonSteps c) ?_
  rw [recordSteps_eq]
  refine List.mem_append_right _ ?_
  simp only [List.mem_cons, true_or, or_true]

def fieldSteps (c : EntityCode) : List Step :=
  c.fields.flatMap fun f =>
    [.doc f.description, .line ("pub " ++ f.ident ++ ": " ++ f.type.render ++ ",")]

theorem hasDefinition_struct (c : EntityCode) :
    HasDefinition (emitted c.body) ("pub struct " ++ c.name) c.fieldSteps := by
  have balanced : Balanced c.fieldSteps := by
    refine balanced_flatMap fun f _ level => ?_
    simp
  have placed : PlacesBlock c.structSteps ("pub struct " ++ c.name) c.fieldSteps := by
    refine placesBlock_of_mem ?_ balanced (by simp [structSteps, fieldSteps])
    intro step mem
    simp only [structSteps, List.mem_cons, List.not_mem_nil, or_false] at mem
    rcases mem with rfl | rfl | rfl
    · exact balanced_doc _
    · exact balanced_line _
    · exact balanced_block balanced
  unfold body
  exact (placed.append_left.append_left.append_left) 0

end EntityCode

namespace ObjectCode
variable {c : ObjectCode}

def members (c : ObjectCode) : List (String × String) :=
  c.fields.map fun f => (f.key, f.write.render ("self." ++ f.ident ++ "()"))

def toJsonSteps (c : ObjectCode) : List Step := writingSteps [] c.members

theorem balanced_toJsonSteps (c : ObjectCode) : Balanced c.toJsonSteps :=
  balanced_writingSteps level_nil c.members

theorem writerSteps_eq (isVariant : c.isVariant = true) : c.writerSteps =
    [.blank, .line "/// Writes this value as a JSON record.", .line "#[must_use]",
     .block toJsonHeader c.toJsonSteps] := by
  have inserts : c.members.map (fun member => insertStep member.1 member.2) =
      c.fields.map fun f => .line f.insertText := by
    rw [members, List.map_map]
    rfl
  rw [toJsonSteps, writingSteps, inserts, writerSteps, isVariant]
  rfl

theorem hasMethod_toJson (isVariant : c.isVariant = true) :
    HasMethod (emitted c.body) c.name toJsonHeader c.toJsonSteps := by
  have placed : PlacesBlock c.writerSteps toJsonHeader c.toJsonSteps := by
    rw [writerSteps_eq isVariant]
    refine placesBlock_of_mem ?_ (balanced_toJsonSteps c) (by simp)
    simp [balanced_block, balanced_toJsonSteps]
  rw [body_of_isVariant isVariant]
  refine hasMethod_of_placesBlock ?_ ?_ (placed.append_right (balanced_readingSteps c))
  · intro level
    simp [balanced_structSteps c level]
  · intro level
    simp [balanced_readingSteps c level, balanced_writerSteps c level]

end ObjectCode

namespace UnionCode

def dispatchHeader (c : UnionCode) : String :=
  "pub fn " ++ Name.dispatchIdent c.name ++ "(json: &serde_json::Value) -> Result<" ++ c.name ++
    ", marshal::MarshalError>"

/-- The arms of a match on the discriminator: one for every variant in order, and one that refuses
    everything else. -/
def arms (c : UnionCode) : List Step :=
  (c.variants.map fun v =>
    .line ("Some(\"" ++ v ++ "\") => " ++ v ++ "::new(Some(json)).map(" ++ c.name ++ "::" ++ v ++
      "),")) ++
  [.line ("other => Err(marshal::MarshalError::unknown_discriminator(\"" ++ c.name ++
    "\", other)),")]

def readingSteps (c : UnionCode) : List Step :=
  [.line "let discriminator = json", .indent, .line ".get(marshal::DISCRIMINATOR)",
   .line ".and_then(serde_json::Value::as_str);", .dedent, .block "match discriminator" c.arms]

theorem hasDefinition_dispatch (c : UnionCode) :
    HasDefinition (emitted c.body) c.dispatchHeader c.readingSteps := by
  have variants : Balanced (c.variants.map fun v => .line ("Some(\"" ++ v ++ "\") => " ++ v ++
      "::new(Some(json)).map(" ++ c.name ++ "::" ++ v ++ "),")) :=
    balanced_map fun _ => ⟨_, rfl⟩
  have balanced : Balanced c.readingSteps := by
    intro level
    simp [readingSteps, arms, variants (level + 1)]
  have placed : PlacesBlock c.dispatchSteps c.dispatchHeader c.readingSteps := by
    refine placesBlock_of_mem ?_ balanced (List.mem_cons_of_mem _ List.mem_cons_self)
    intro step mem
    simp only [dispatchSteps, List.mem_cons, List.not_mem_nil, or_false] at mem
    rcases mem with rfl | rfl
    · exact balanced_line _
    · exact balanced_block balanced
  exact placed.append_right (balanced_before_dispatchSteps c) 0

end UnionCode

end DataLayer.Code
