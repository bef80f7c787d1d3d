import DataLayer.Xml.Fault
import DataLayer.Storage.Fault
import DataLayer.Schema.Model

/- Why a schema is refused: while its document is loaded, or later, when the loaded model is asked
   for an item or is checked. -/
namespace DataLayer.Schema

inductive LoadFault
  | markup (fault : Xml.Fault)
  | missingAttribute (element key : String)
  | invalidAttribute (element key value : String)
  | unknownElement (element context : String)
  | duplicate (kind name : String)
  | badStructure (text : String)
  | storage (fault : Storage.Fault)
  deriving DecidableEq, Repr

namespace LoadFault

def noSchema : LoadFault := .badStructure "no schema element found"

def endInside (element : String) : LoadFault :=
  .badStructure ("unexpected end of document inside <" ++ element ++ ">")

def message : LoadFault → String
  | .markup fault => "XML parsing error: " ++ fault.message
  | .missingAttribute element key =>
      "missing required attribute '" ++ key ++ "' on element '" ++ element ++ "'"
  | .invalidAttribute element key value =>
      "invalid value '" ++ value ++ "' for attribute '" ++ key ++ "' on element '" ++
        element ++ "'"
  | .unknownElement element context =>
      "unknown element '" ++ element ++ "' in context '" ++ context ++ "'"
  | .duplicate kind name => "duplicate " ++ kind ++ " definition: '" ++ name ++ "'"
  | .badStructure text => "invalid schema structure: " ++ text
  | .storage fault => "IO error: " ++ fault.message

def chain (f : LoadFault) : List String :=
  f.message :: match f with
    | .markup fault => [fault.message, fault.detail]
    | .storage fault => [fault.message]
    | _ => []

end LoadFault

inductive ModelFault
  | load (fault : LoadFault)
  | itemNotFound (name : String)
  | kindMismatch (name expected found : String)
  | invalid (text : String)
  deriving DecidableEq, Repr

namespace ModelFault

def emptyEnumeration (name : String) : ModelFault :=
  .invalid ("enum '" ++ name ++ "' declares no values")

def emptyUnion (name : String) : ModelFault :=
  .invalid ("union '" ++ name ++ "' declares no variants")

def message : ModelFault → String
  | .load fault => "parse error: " ++ fault.message
  | .itemNotFound name => "item '" ++ name ++ "' not found"
  | .kindMismatch name expected found =>
      "item '" ++ name ++ "' is " ++ found ++ ", expected " ++ expected
  | .invalid text => "validation error: " ++ text

def chain (f : ModelFault) : List String :=
  f.message :: match f with
    | .load fault => fault.chain
    | _ => []

end ModelFault

namespace Model

def item (m : Model) (name : String) : Except ModelFault Item :=
  (m.get? name).elim (.error (.itemNotFound name)) .ok

def enumeration (m : Model) (name : String) : Except ModelFault Enumeration := do
  match ← m.item name with
  | .enumeration e => return e
  | other => throw (.kindMismatch name ItemKind.enumeration.word other.kind.word)

def object (m : Model) (name : String) : Except ModelFault ValueObject := do
  match ← m.item name with
  | .object o => return o
  | other => throw (.kindMismatch name ItemKind.object.word other.kind.word)

end Model

end DataLayer.Schema
