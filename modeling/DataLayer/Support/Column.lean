/- Columns as generated entities register them: the kind of storage of each field, its type in the
   database and its expression in code. The inverse side of a relation is stored elsewhere. -/
namespace DataLayer.Support

inductive ColumnType
  | primaryKey
  | text
  | integer
  | doublePrecision
  | boolean
  | timestampTz
  | numeric
  | bytea
  | varChar (length : Nat)
  | jsonb
  | manyToOne (entity : String)
  | oneToMany (entity inverse : String)
  deriving DecidableEq, Repr

def ColumnType.sqlType? : ColumnType → Option String
  | .primaryKey | .text | .manyToOne _ => some "text"
  | .integer => some "integer"
  | .doublePrecision => some "double precision"
  | .boolean => some "bool"
  | .timestampTz => some "timestamp with time zone"
  | .numeric => some "numeric"
  | .bytea => some "bytea"
  | .varChar _ => some "varchar"
  | .jsonb => some "jsonb"
  | .oneToMany _ _ => none

structure Column where
  field : String
  type : ColumnType
  nullable : Bool
  indexed : Bool
  deriving DecidableEq, Repr

structure Registration where
  entity : String
  columns : List Column
  deriving DecidableEq, Repr

namespace Registration

def column? (r : Registration) (field : String) : Option Column :=
  r.columns.find? (·.field = field)

def primaryKey? (r : Registration) : Option Column :=
  r.columns.find? (·.type = .primaryKey)

end Registration

end DataLayer.Support
