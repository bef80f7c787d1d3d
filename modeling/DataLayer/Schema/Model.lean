import DataLayer.Table

/- A schema: named items in the order of their declaration. An item is an entity, which is stored,
   a value object, which lives inside other values, a union of such shapes or an enumeration. -/
namespace DataLayer.Schema

/-- The type of a property. A list carries its element type with that element's own nullability
    and description. -/
inductive PropertyType
  | scalar (name : String)
  | enumeration (name : String)
  | object (name : String)
  | union (name : String)
  | reference (entity : String)
  | inverse (entity field : String)
  | list (item : PropertyType) (nullable : Bool) (description : Option String)
  deriving DecidableEq, Repr, Inhabited

def PropertyType.kindName : PropertyType → String
  | .scalar _ => "scalar"
  | .enumeration _ => "enum"
  | .object _ => "object"
  | .union _ => "union"
  | .reference _ => "fk"
  | .inverse _ _ => "list-relation"
  | .list _ _ _ => "list"

def PropertyType.leaf : PropertyType → PropertyType
  | .list item _ _ => item.leaf
  | t => t

structure Property where
  type : PropertyType
  nullable : Bool
  description : Option String := none
  deriving DecidableEq, Repr

inductive Scalar
  | id
  | string
  | int
  | float
  | boolean
  | dateTime
  | bigInt
  | bytes
  deriving DecidableEq, Repr

namespace Scalar

def all : List Scalar := [.id, .string, .int, .float, .boolean, .dateTime, .bigInt, .bytes]

def name : Scalar → String
  | .id => "ID"
  | .string => "String"
  | .int => "Int"
  | .float => "Float"
  | .boolean => "Boolean"
  | .dateTime => "DateTime"
  | .bigInt => "BigInt"
  | .bytes => "Bytes"

def ofName? (name : String) : Option Scalar := all.find? (·.name = name)

theorem ofName?_name (s : Scalar) : ofName? s.name = some s := by
  cases s <;> decide

theorem name_of_ofName? {name : String} {s : Scalar} (found : ofName? name = some s) :
    s.name = name := by
  simpa using List.find?_some found

end Scalar

structure Entity where
  description : Option String
  properties : Table Property
  deriving DecidableEq

structure ValueObject where
  description : Option String
  properties : Table Property
  deriving DecidableEq

structure Union where
  description : Option String
  variants : List String
  deriving DecidableEq, Repr

structure Enumeration where
  description : Option String
  values : NameSet
  deriving DecidableEq

def Enumeration.longestValue (e : Enumeration) : Nat :=
  (e.values.names.map String.utf8ByteSize).foldl max 0

inductive ItemKind
  | entity
  | object
  | union
  | enumeration
  deriving DecidableEq, Repr

def ItemKind.word : ItemKind → String
  | .entity => "entity"
  | .object => "object"
  | .union => "union"
  | .enumeration => "enum"

def ItemKind.all : List ItemKind := [.entity, .object, .union, .enumeration]

def ItemKind.ofWord? (word : String) : Option ItemKind := all.find? (·.word = word)

inductive Item
  | entity (e : Entity)
  | object (o : ValueObject)
  | union (u : Union)
  | enumeration (e : Enumeration)
  deriving DecidableEq

def Item.kind : Item → ItemKind
  | .entity _ => .entity
  | .object _ => .object
  | .union _ => .union
  | .enumeration _ => .enumeration

structure Model where
  items : Table Item
  deriving DecidableEq

namespace Model

def empty : Model := ⟨.empty⟩

def get? (m : Model) (name : String) : Option Item := m.items.get? name

def kind? (m : Model) (name : String) : Option ItemKind := (m.get? name).map Item.kind

def insert (m : Model) (name : String) (item : Item) : Model := ⟨m.items.insert name item⟩

def names (m : Model) : List String := m.items.keys

def variantNames (m : Model) : List String :=
  m.items.entries.flatMap fun e =>
    match e.2 with
    | .union u => u.variants
    | _ => []

end Model

end DataLayer.Schema
