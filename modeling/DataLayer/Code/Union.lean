import DataLayer.Code.Fault
import DataLayer.Code.Imports
import DataLayer.Code.Layout

/- The code of a union: an enum over its variants that reads and writes whichever variant it holds.
   The variant to read is the one that the record's discriminator names. -/
namespace DataLayer.Code
open Schema

structure UnionCode where
  name : String
  description : Option String
  variants : List String
  deriving DecidableEq, Repr

def checkVariant (m : Model) (variant : String) : Except Fault Unit := do
  match (← ofModel (m.item variant)).kind with
  | .entity | .object => return ()
  | other => throw (.unsupported (other.word ++ " union variant") variant)

def unionCodeOf (m : Model) (name : String) (u : Union) : Except Fault UnionCode := do
  u.variants.forM (checkVariant m)
  return ⟨name, u.description, u.variants⟩

namespace UnionCode

def uses (c : UnionCode) : List Use := .marshal :: c.variants.map Use.item

def enumSteps (c : UnionCode) : List Step :=
  [.doc c.description,
   .line "#[derive(Debug, Clone, PartialEq)]",
   .block ("pub enum " ++ c.name) (c.variants.map fun v => .line (v ++ "(" ++ v ++ "),"))]

def methodSteps (c : UnionCode) : List Step :=
  [.block ("impl " ++ c.name)
    [.line "/// Returns the discriminator of the held variant.",
     .line "#[must_use]",
     .block "pub fn is_type_of(&self) -> &'static str"
       [.block "match self"
         (c.variants.map fun v => .line ("Self::" ++ v ++ "(_) => " ++ v ++ "::IS_TYPE_OF,"))],
     .blank,
     .line "/// Writes the held variant as JSON, discriminator included.",
     .line "#[must_use]",
     .block "pub fn to_json(&self) -> serde_json::Value"
       [.block "match self"
         (c.variants.map fun v => .line ("Self::" ++ v ++ "(value) => value.to_json(),"))]]]

def conversionSteps (c : UnionCode) (variant : String) : List Step :=
  [.blank,
   .block ("impl From<" ++ variant ++ "> for " ++ c.name)
     [.block ("fn from(value: " ++ variant ++ ") -> Self")
       [.line ("Self::" ++ variant ++ "(value)")]]]

def dispatchSteps (c : UnionCode) : List Step :=
  [.line ("/// Reads a `" ++ c.name ++ "` from JSON, dispatching on its discriminator."),
   .block ("pub fn " ++ Name.dispatchIdent c.name ++ "(json: &serde_json::Value) -> Result<" ++
       c.name ++ ", marshal::MarshalError>")
     [.line "let discriminator = json", .indent,
      .line ".get(marshal::DISCRIMINATOR)",
      .line ".and_then(serde_json::Value::as_str);", .dedent,
      .block "match discriminator"
        ((c.variants.map fun v =>
            .line ("Some(\"" ++ v ++ "\") => " ++ v ++ "::new(Some(json)).map(" ++ c.name ++ "::" ++
              v ++ "),")) ++
         [.line ("other => Err(marshal::MarshalError::unknown_discriminator(\"" ++ c.name ++
           "\", other)),")])]]

def body (c : UnionCode) : List Step :=
  c.enumSteps ++ [.blank] ++ c.methodSteps ++ c.variants.flatMap c.conversionSteps ++ [.blank] ++
    c.dispatchSteps

end UnionCode

end DataLayer.Code
