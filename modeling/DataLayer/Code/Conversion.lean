import DataLayer.Code.Type
import DataLayer.Code.Imports

/- Expressions that read a property from a JSON value and write it back. An expression is first a
   tree that says what is converted, and then the text of that tree around the expression of the
   value. Beside each stands the list of what its text uses, in the order of first use; it is the
   same whether or not the whole conversion is supported. -/
namespace DataLayer.Code
open Schema

def scalarModule : Scalar → String
  | .id => "id"
  | .string => "string"
  | .int => "int"
  | .float => "float"
  | .boolean => "boolean"
  | .dateTime => "datetime"
  | .bigInt => "bigint"
  | .bytes => "bytes"

inductive ReadExpr
  | scalar (s : Scalar)
  | enumeration (name : String)
  | identifier
  | object (name : String)
  | union (name : String)
  | list (item : ReadExpr)
  | nullable (inner : ReadExpr)
  deriving DecidableEq, Repr

namespace ReadExpr

def render : ReadExpr → String → String
  | .scalar s, value => "marshal::" ++ scalarModule s ++ "::from_json(" ++ value ++ ")"
  | .enumeration name, value =>
      "marshal::enumeration::from_json::<" ++ name ++ ">(" ++ value ++ ")"
  | .identifier, value => "marshal::string::from_json(" ++ value ++ ")"
  | .object name, value =>
      "marshal::non_null(" ++ value ++ ").and_then(|json| " ++ name ++ "::new(Some(json)))"
  | .union name, value => Name.dispatchIdent name ++ "(" ++ value ++ ")"
  | .list item, value => "marshal::from_list(" ++ value ++ ", |json| " ++ item.render "json" ++ ")"
  | .nullable inner, value =>
      "marshal::nullable(" ++ value ++ ", |json| " ++ inner.render "json" ++ ")"

def type : ReadExpr → CodeType
  | .scalar s => scalarType s
  | .enumeration name | .object name | .union name => .named name
  | .identifier => .named "String"
  | .list item => .vector item.type
  | .nullable inner => .optional inner.type

def orNull (e : ReadExpr) (nullable : Bool) : ReadExpr := if nullable then .nullable e else e

end ReadExpr

/-- How a property is read. Derived relations have no JSON form. -/
def readExpr : PropertyType → Bool → Except Fault ReadExpr
  | .scalar name, nullable => return (ReadExpr.scalar (← scalarOf name)).orNull nullable
  | .enumeration name, nullable => .ok ((ReadExpr.enumeration name).orNull nullable)
  | .reference _, nullable => .ok (ReadExpr.identifier.orNull nullable)
  | .object name, nullable => .ok ((ReadExpr.object name).orNull nullable)
  | .union name, nullable => .ok ((ReadExpr.union name).orNull nullable)
  | .list item itemNullable _, nullable =>
      return (ReadExpr.list (← readExpr item itemNullable)).orNull nullable
  | .inverse entity _, _ => .error (.unsupported "list-relation" entity)

def readUses : PropertyType → Bool → List Use
  | t, nullable =>
      (if nullable then [.marshal] else []) ++
        match t with
        | .scalar _ | .reference _ => [.marshal]
        | .enumeration name | .object name => [.marshal, .item name]
        | .union name => [.item name]
        | .list item itemNullable _ => .marshal :: readUses item itemNullable
        | .inverse _ _ => []

inductive WriteExpr
  | text
  | copied
  | scalar (s : Scalar)
  | record
  | list (item : WriteExpr)
  | nullable (inner : WriteExpr)
  deriving DecidableEq, Repr

namespace WriteExpr

def isNullable : WriteExpr → Bool
  | .nullable _ => true
  | _ => false

def render : WriteExpr → String → String
  | .text, value => "serde_json::Value::from(" ++ value ++ ".as_str())"
  | .copied, value => "serde_json::Value::from(*" ++ value ++ ")"
  | .scalar s, value => "marshal::" ++ scalarModule s ++ "::to_json(" ++ value ++ ")"
  | .record, value => value ++ ".to_json()"
  | .list item, value =>
      "serde_json::Value::Array(" ++ value ++ ".iter().map(|value| " ++
        item.render (if item.isNullable then "value.as_ref()" else "value") ++ ").collect())"
  | .nullable inner, value =>
      value ++ ".map_or(serde_json::Value::Null, |value| " ++ inner.render "value" ++ ")"

def orNull (e : WriteExpr) (nullable : Bool) : WriteExpr := if nullable then .nullable e else e

end WriteExpr

def scalarWrite : Scalar → WriteExpr
  | .id | .string => .text
  | .int | .float | .boolean => .copied
  | s => .scalar s

def writeExpr : PropertyType → Bool → Except Fault WriteExpr
  | .scalar name, nullable => return (scalarWrite (← scalarOf name)).orNull nullable
  | .reference _, nullable | .enumeration _, nullable => .ok (WriteExpr.text.orNull nullable)
  | .object _, nullable | .union _, nullable => .ok (WriteExpr.record.orNull nullable)
  | .list item itemNullable _, nullable =>
      return (WriteExpr.list (← writeExpr item itemNullable)).orNull nullable
  | .inverse entity _, _ => .error (.unsupported "list-relation" entity)

def writeUses : PropertyType → List Use
  | .scalar name =>
      match Scalar.ofName? name with
      | some .dateTime | some .bigInt | some .bytes => [.marshal]
      | _ => []
  | .reference _ => []
  | .enumeration name | .object name | .union name => [.item name]
  | .list item _ _ => writeUses item
  | .inverse _ _ => []

end DataLayer.Code
