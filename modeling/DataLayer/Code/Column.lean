import DataLayer.Code.Fault
import DataLayer.Support.Column
import DataLayer.Text.Quoted

/- How the properties of an entity are stored. Scalars have column types of their own, the primary
   key is never null, structured values are stored as documents and only references are indexed. -/
namespace DataLayer.Code
open Schema Support Text

def scalarColumn : Scalar → ColumnType
  | .id => .primaryKey
  | .string => .text
  | .int => .integer
  | .float => .doublePrecision
  | .boolean => .boolean
  | .dateTime => .timestampTz
  | .bigInt => .numeric
  | .bytes => .bytea

inductive DocumentForm
  | object (name : String)
  | union (name : String)
  deriving DecidableEq, Repr

inductive Storage
  | plain (type : ColumnType)
  | document (form : DocumentForm)
  deriving DecidableEq, Repr

namespace Storage

def columnType : Storage → ColumnType
  | .plain type => type
  | .document _ => .jsonb

def form? : Storage → Option DocumentForm
  | .plain _ => none
  | .document form => some form

def isColumn (s : Storage) : Bool :=
  match s.columnType with
  | .oneToMany _ _ => false
  | _ => true

end Storage

structure Binding where
  storage : Storage
  nullable : Bool
  indexed : Bool
  deriving DecidableEq, Repr

def Binding.ofStorage (storage : Storage) (nullable : Bool) : Binding where
  storage := storage
  nullable := nullable && storage.columnType != .primaryKey
  indexed := match storage.columnType with
    | .manyToOne _ => true
    | _ => false

/-- Where and how a property of an entity is stored. Lists are not, unless they are derived. -/
def storageOf (m : Model) : PropertyType → Except Fault Storage
  | .scalar name =>
      match Scalar.ofName? name with
      | some s => .ok (.plain (scalarColumn s))
      | none => .error (.unsupported "scalar" name)
  | .enumeration name => return .plain (.varChar (← ofModel (m.enumeration name)).longestValue)
  | .reference entity => .ok (.plain (.manyToOne entity))
  | .inverse entity field => .ok (.plain (.oneToMany entity field))
  | .object name => .ok (.document (.object name))
  | .union name => .ok (.document (.union name))
  | .list _ _ _ => .error (.unsupported "list" "entity property")

def bindingOf (m : Model) (p : Property) : Except Fault Binding :=
  return .ofStorage (← storageOf m p.type) p.nullable

def columnVariant : ColumnType → String
  | .primaryKey => "PrimaryKey"
  | .text => "Text"
  | .integer => "Integer"
  | .doublePrecision => "DoublePrecision"
  | .boolean => "Boolean"
  | .timestampTz => "TimestampTz"
  | .numeric => "Numeric"
  | .bytea => "Bytea"
  | .varChar length => "VarChar(" ++ toString length ++ ")"
  | .jsonb => "Jsonb"
  | .manyToOne entity => "ManyToOne(" ++ quoted entity ++ ")"
  | .oneToMany entity inverse =>
      "OneToMany \x7b entity: " ++ quoted entity ++ ", inverse: " ++ quoted inverse ++ " \x7d"

def columnExpression (t : ColumnType) : String := "ColumnKind::" ++ columnVariant t

def boolWord (b : Bool) : String := if b then "true" else "false"

def columnEntry (c : Column) : String :=
  "Column \x7b field: " ++ quoted c.field ++ ", kind: " ++ columnExpression c.type ++
    ", nullable: " ++ boolWord c.nullable ++ ", indexed: " ++ boolWord c.indexed ++ " \x7d,"

end DataLayer.Code
