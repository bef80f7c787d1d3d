import DataLayer.Code.Fault

/- The Rust types that properties have in generated code. What may be null is optional. An entity
   holds another entity in a box, a value object holds it by identifier. -/
namespace DataLayer.Code
open Schema

inductive CodeType
  | named (name : String)
  | boxed (inner : CodeType)
  | vector (item : CodeType)
  | optional (inner : CodeType)
  deriving DecidableEq, Repr

namespace CodeType

def render : CodeType → String
  | .named name => name
  | .boxed t => "Box<" ++ t.render ++ ">"
  | .vector t => "Vec<" ++ t.render ++ ">"
  | .optional t => "Option<" ++ t.render ++ ">"

def orNull (t : CodeType) (nullable : Bool) : CodeType := if nullable then .optional t else t

end CodeType

def scalarOf (name : String) : Except Fault Scalar :=
  (Scalar.ofName? name).elim (.error (.unsupported "scalar" name)) .ok

def scalarType : Scalar → CodeType
  | .id | .string => .named "String"
  | .int => .named "i32"
  | .float => .named "f64"
  | .boolean => .named "bool"
  | .dateTime => .named "chrono::DateTime<chrono::Utc>"
  | .bigInt => .named "num_bigint::BigInt"
  | .bytes => .vector (.named "u8")

inductive Holder
  | entity
  | object
  deriving DecidableEq, Repr

/-- The type of a property. The elements of a list are held as in a value object. -/
def typeOf (holder : Holder) : PropertyType → Bool → Except Fault CodeType
  | .scalar name, nullable => return (scalarType (← scalarOf name)).orNull nullable
  | .enumeration name, nullable | .object name, nullable | .union name, nullable =>
      .ok ((CodeType.named name).orNull nullable)
  | .reference entity, nullable =>
      match holder with
      | .entity => .ok ((CodeType.boxed (.named entity)).orNull nullable)
      | .object => .ok ((CodeType.named "String").orNull nullable)
  | .inverse entity _, nullable => .ok ((CodeType.vector (.named entity)).orNull nullable)
  | .list item itemNullable _, nullable =>
      return (CodeType.vector (← typeOf .object item itemNullable)).orNull nullable

end DataLayer.Code
