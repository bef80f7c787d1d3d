import DataLayer.Code.Entity

/- The code of a value object: a struct whose fields may still be empty, a reader, a getter and a
   setter for every property, and a writer. Reading a required field that is empty is an error of
   the program that does it. -/
namespace DataLayer.Code
open Schema Text

def reservedMethods : List String := ["new", "to_json", "is_type_of"]

structure ObjectField where
  key : String
  ident : String
  setter : String
  type : CodeType
  nullable : Bool
  description : Option String
  read : ReadExpr
  write : WriteExpr
  deriving DecidableEq, Repr

structure ObjectCode where
  name : String
  description : Option String
  isVariant : Bool
  fields : List ObjectField
  uses : List Use
  deriving DecidableEq, Repr

def objectFieldType (owner key : String) (p : Property) : Except Fault CodeType :=
  if Name.fieldIdent key ∈ reservedMethods then
    .error (.clash ("property " ++ owner ++ "." ++ key ++ " clashes with a generated method"))
  else typeOf .object p.type false

def claimAccessors (scope : Scope) : List String → Except Fault Scope
  | [] => .ok scope
  | key :: rest => do
      let scope ← scope.claim (Name.fieldIdent key) key
      let scope ← scope.claim (Name.setterIdent key) key
      claimAccessors scope rest

def objectFieldOf (owner : String) (key : String) (p : Property) : Except Fault ObjectField := do
  let type ← objectFieldType owner key p
  let read ← readExpr p.type p.nullable
  let write ← writeExpr p.type p.nullable
  return ⟨key, Name.fieldIdent key, Name.setterIdent key, type, p.nullable, p.description, read,
    write⟩

def objectUses (properties : List (String × Property)) : List Use :=
  .marshal :: properties.flatMap (fun p => readUses p.2.type p.2.nullable ++ writeUses p.2.type) ++
    if properties.any (!·.2.nullable) then [.assertion] else []

/-- All types are looked at before any name, and all names before any conversion. -/
def objectCodeOf (isVariant : Bool) (name : String) (o : ValueObject) :
    Except Fault ObjectCode := do
  let properties := o.properties.entries
  let _ ← properties.mapM fun p => objectFieldType name p.1 p.2
  let _ ← claimAccessors (.new ("object " ++ name)) o.properties.keys
  let fields ← properties.mapM fun p => objectFieldOf name p.1 p.2
  return ⟨name, o.description, isVariant, fields, objectUses properties⟩

namespace ObjectField

def readText (f : ObjectField) : String :=
  let value := f.read.render ("marshal::field(json, " ++ quoted f.key ++ ")") ++ "?"
  "this." ++ f.ident ++ " = " ++ (if f.nullable then value else "Some(" ++ value ++ ")") ++ ";"

def insertText (f : ObjectField) : String :=
  "json.insert(" ++ quoted f.key ++ ".to_string(), " ++
    f.write.render ("self." ++ f.ident ++ "()") ++ ");"

def accessorSteps (owner : String) (f : ObjectField) : List Step :=
  let type := f.type.render
  [.blank, .doc f.description, .line "#[must_use]"] ++
  if f.nullable then
    [.block ("pub fn " ++ f.ident ++ "(&self) -> Option<&" ++ type ++ ">")
       [.line ("self." ++ f.ident ++ ".as_ref()")],
     .blank,
     .block ("pub fn " ++ f.setter ++ "(&mut self, value: Option<" ++ type ++ ">)")
       [.line ("self." ++ f.ident ++ " = value;")]]
  else
    [.block ("pub fn " ++ f.ident ++ "(&self) -> &" ++ type)
       [.line ("assert_initialized(self." ++ f.ident ++ ".as_ref(), \"" ++ owner ++ "\", " ++
         quoted f.key ++ ")")],
     .blank,
     .block ("pub fn " ++ f.setter ++ "(&mut self, value: " ++ type ++ ")")
       [.line ("self." ++ f.ident ++ " = Some(value);")]]

end ObjectField

namespace ObjectCode

def structSteps (c : ObjectCode) : List Step :=
  [.doc c.description, .line "#[derive(Debug, Clone, Default, PartialEq)]",
   if c.fields.isEmpty then .line ("pub struct " ++ c.name ++ " \x7b\x7d")
   else .block ("pub struct " ++ c.name)
     (c.fields.map fun f => .line (f.ident ++ ": Option<" ++ f.type.render ++ ">,"))]

def readerSteps (c : ObjectCode) : List Step :=
  [.line ("/// Reads a `" ++ c.name ++ "` from a JSON record. `None` yields an empty value."),
   .line "///",
   .line "/// # Errors",
   .line "/// Returns `MarshalError` if a property has the wrong shape.",
   .block "pub fn new(json: Option<&serde_json::Value>) -> Result<Self, marshal::MarshalError>"
     (if c.fields.isEmpty then [.line "let _ = json;", .line "Ok(Self::default())"]
      else
        [.line "let mut this = Self::default();",
         .line "let Some(json) = json else \x7b", .indent, .line "return Ok(this);", .dedent,
         .line "\x7d;"] ++
        (c.fields.map fun f => .line f.readText) ++
        [.line "Ok(this)"])]

def writerSteps (c : ObjectCode) : List Step :=
  let binding := if c.isVariant || !c.fields.isEmpty then "let mut json" else "let json"
  [.blank,
   .line "/// Writes this value as a JSON record.",
   .line "#[must_use]",
   .block "pub fn to_json(&self) -> serde_json::Value"
     ([.line (binding ++ " = serde_json::Map::new();")] ++
      (if c.isVariant then [.line discriminatorInsert] else []) ++
      (c.fields.map fun f => .line f.insertText) ++
      [.line "serde_json::Value::Object(json)"])]

def body (c : ObjectCode) : List Step :=
  c.structSteps ++
  [.blank,
   .block ("impl " ++ c.name)
     ((if c.isVariant then discriminatorSteps c.name ++ [.blank] else []) ++
      c.readerSteps ++
      (if c.isVariant then .blank :: isTypeOfSteps else []) ++
      c.fields.flatMap (ObjectField.accessorSteps c.name) ++
      c.writerSteps)]

end ObjectCode

end DataLayer.Code
