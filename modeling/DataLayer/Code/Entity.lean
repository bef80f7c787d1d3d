import DataLayer.Code.Column
import DataLayer.Code.Conversion
import DataLayer.Code.Layout
import DataLayer.Code.Scope

/- The code of an entity: a struct, its registration table, a pair of functions for every column
   that stores a document and, for a variant of a union, a JSON record of its own. -/
namespace DataLayer.Code
open Schema Text

inductive Initial
  | emptyList
  | read (e : ReadExpr)
  deriving DecidableEq, Repr

/-- A field's part in the JSON record of a variant. A derived relation is not written. -/
structure RecordPart where
  initial : Initial
  written : Option WriteExpr
  deriving DecidableEq, Repr

structure EntityField where
  key : String
  ident : String
  type : CodeType
  description : Option String
  binding : Binding
  document : Option (WriteExpr × ReadExpr)
  part : Option RecordPart
  deriving DecidableEq, Repr

structure EntityCode where
  name : String
  description : Option String
  isVariant : Bool
  fields : List EntityField
  uses : List Use
  deriving DecidableEq, Repr

def documentOf (type : PropertyType) (nullable : Bool) :
    Except Fault (Option (WriteExpr × ReadExpr)) :=
  match type with
  | .object _ | .union _ =>
      return some (← writeExpr type nullable, ← readExpr type nullable)
  | _ => .ok none

def recordPartOf (owner key : String) (type : PropertyType) (nullable : Bool) :
    Except Fault RecordPart :=
  match type with
  | .reference _ => .error (.unsupported "fk" (owner ++ "." ++ key))
  | .inverse _ _ => .ok ⟨.emptyList, none⟩
  | _ => return ⟨.read (← readExpr type nullable), some (← writeExpr type nullable)⟩

def entityFieldOf (owner : String) (isVariant : Bool) (key : String) (p : Property)
    (binding : Binding) : Except Fault EntityField := do
  let type ← typeOf .entity p.type binding.nullable
  let document ← documentOf p.type binding.nullable
  let part ←
    if isVariant then (recordPartOf owner key p.type binding.nullable).map some else .ok none
  return ⟨key, Name.fieldIdent key, type, p.description, binding, document, part⟩

def entityFields (m : Model) (owner : String) (isVariant : Bool) (scope : Scope) :
    List (String × Property) → Except Fault (List EntityField)
  | [] => .ok []
  | (key, p) :: rest => do
      let binding ← bindingOf m p
      let scope ← scope.claim (Name.fieldIdent key) key
      let field ← entityFieldOf owner isVariant key p binding
      return field :: (← entityFields m owner isVariant scope rest)

/-- What the field of a property uses, in the order in which its code is composed. -/
def entityFieldUses (isVariant : Bool) (p : Property) : List Use :=
  let own := match p.type with
    | .reference name | .inverse name _ | .enumeration name => [.item name]
    | .object _ | .union _ => .marshal :: (writeUses p.type ++ readUses p.type p.nullable)
    | .scalar _ | .list _ _ _ => []
  let part := match p.type with
    | .reference _ | .inverse _ _ => [.marshal]
    | _ => .marshal :: (readUses p.type p.nullable ++ writeUses p.type)
  own ++ if isVariant then part else []

def entityCodeOf (m : Model) (isVariant : Bool) (name : String) (e : Entity) :
    Except Fault EntityCode := do
  let fields ← entityFields m name isVariant (.new ("entity " ++ name)) e.properties.entries
  let uses := ColumnSymbol.all.map Use.column ++
    e.properties.entries.flatMap fun p => entityFieldUses isVariant p.2
  return ⟨name, e.description, isVariant, fields, uses⟩

namespace EntityField

def column (f : EntityField) : Support.Column :=
  ⟨f.key, f.binding.storage.columnType, f.binding.nullable, f.binding.indexed⟩

def documentSteps (f : EntityField) : List Step :=
  match f.document with
  | none => []
  | some (write, read) =>
      let stem := Name.snakeCase f.key
      let type := f.type.render
      [.line ("/// Writes `" ++ f.ident ++ "` into its JSON column."),
       .line "#[must_use]",
       .block ("pub fn " ++ stem ++ "_to_column(value: &" ++ type ++ ") -> serde_json::Value")
         [.line (write.render (if write.isNullable then "value.as_ref()" else "value"))],
       .blank,
       .line ("/// Reads `" ++ f.ident ++ "` back from its JSON column."),
       .line "///",
       .line "/// # Errors",
       .line "/// Returns `MarshalError` if the stored document does not match.",
       .block ("pub fn " ++ stem ++ "_from_column(json: &serde_json::Value) -> Result<" ++ type ++
           ", marshal::MarshalError>")
         [.line (read.render "json")]]

def initialText (f : EntityField) (part : RecordPart) : String :=
  match part.initial with
  | .emptyList => "Vec::new()"
  | .read e => e.render ("marshal::field(json, " ++ quoted f.key ++ ")") ++ "?"

def insertText (f : EntityField) (write : WriteExpr) : String :=
  let value := if write.isNullable then f.ident ++ ".as_ref()" else f.ident
  "json.insert(" ++ quoted f.key ++ ".to_string(), " ++ write.render value ++ ");"

end EntityField

def parted : List (List Step) → List Step
  | [] => []
  | [group] => group
  | group :: rest => group ++ .blank :: parted rest

def discriminatorInsert : String :=
  "json.insert(marshal::DISCRIMINATOR.to_string(), serde_json::Value::from(Self::IS_TYPE_OF));"

def discriminatorSteps (name : String) : List Step :=
  [.line "/// Discriminator written into the JSON form.",
   .line ("pub const IS_TYPE_OF: &'static str = \"" ++ name ++ "\";")]

def isTypeOfSteps : List Step :=
  [.line "/// Returns the discriminator written into the JSON form.",
   .line "#[must_use]",
   .block "pub fn is_type_of(&self) -> &'static str" [.line "Self::IS_TYPE_OF"]]

namespace EntityCode

def parts (c : EntityCode) : List (EntityField × RecordPart) :=
  c.fields.filterMap fun f => f.part.map (f, ·)

def writtenParts (c : EntityCode) : List (EntityField × WriteExpr) :=
  c.parts.filterMap fun (f, part) => part.written.map (f, ·)

def destructuring (c : EntityCode) : String :=
  let rest := if c.writtenParts.length < c.parts.length then ", .." else ""
  "let Self \x7b " ++ ", ".intercalate (c.writtenParts.map (·.1.ident)) ++ rest ++ " \x7d = self;"

def recordSteps (c : EntityCode) : List Step :=
  discriminatorSteps c.name ++
  [.blank,
   .line ("/// Reads a `" ++ c.name ++ "` from a JSON record."),
   .line "///",
   .line "/// # Errors",
   .line "/// Returns `MarshalError` if the record is absent or a property has the",
   .line "/// wrong shape.",
   .block "pub fn new(json: Option<&serde_json::Value>) -> Result<Self, marshal::MarshalError>"
     ([.line "let Some(json) = json else \x7b", .indent,
       .line "return Err(marshal::MarshalError::NullValue);", .dedent, .line "\x7d;",
       .line "Ok(Self \x7b", .indent] ++
      (c.parts.map fun (f, part) => .line (f.ident ++ ": " ++ f.initialText part ++ ",")) ++
      [.dedent, .line "\x7d)"]),
   .blank] ++
  isTypeOfSteps ++
  [.blank,
   .line "/// Writes this entity as a JSON record, discriminator included.",
   .line "#[must_use]",
   .block "pub fn to_json(&self) -> serde_json::Value"
     ([.line c.destructuring, .line "let mut json = serde_json::Map::new();",
       .line discriminatorInsert] ++
      (c.writtenParts.map fun (f, write) => .line (f.insertText write)) ++
      [.line "serde_json::Value::Object(json)"])]

def structSteps (c : EntityCode) : List Step :=
  [.doc c.description,
   .line "#[derive(Debug, Clone, PartialEq)]",
   .block ("pub struct " ++ c.name)
     (c.fields.flatMap fun f =>
       [.doc f.description, .line ("pub " ++ f.ident ++ ": " ++ f.type.render ++ ",")])]

def registration (c : EntityCode) : Support.Registration :=
  ⟨c.name, c.fields.map EntityField.column⟩

def tableSteps (r : Support.Registration) : List Step :=
  [.line ("const NAME: &'static str = \"" ++ r.entity ++ "\";"),
   .line "const COLUMNS: &'static [Column] = &[", .indent] ++
  (r.columns.map fun column => .line (columnEntry column)) ++
  [.dedent, .line "];"]

def registrationSteps (c : EntityCode) : List Step :=
  [.block ("impl Entity for " ++ c.name) (tableSteps c.registration)]

def methodGroups (c : EntityCode) : List (List Step) :=
  (if c.isVariant then [c.recordSteps] else []) ++
  (c.fields.filter (·.document.isSome)).map EntityField.documentSteps

def body (c : EntityCode) : List Step :=
  c.structSteps ++ [.blank] ++ c.registrationSteps ++
    if c.methodGroups.isEmpty then []
    else [.blank, .block ("impl " ++ c.name) (parted c.methodGroups)]

end EntityCode

end DataLayer.Code
