import DataLayer.Support.MarshalText
import DataLayer.Support.ColumnText
import DataLayer.Support.ConnectionText

/- The support modules of a generated tree. They are the same in every tree that has them. -/
namespace DataLayer.Support

inductive Resource
  | marshal
  | orm
  | dbConfig
  deriving DecidableEq, Repr

namespace Resource

def module : Resource → String
  | .marshal => "marshal"
  | .orm => "orm"
  | .dbConfig => "db_config"

def fileName (r : Resource) : String := r.module ++ ".rs"

def lines : Resource → List String
  | .marshal => marshalLines
  | .orm => ormLines
  | .dbConfig => dbConfigLines

def content (r : Resource) : String := String.join (r.lines.map (· ++ "\n"))

end Resource

end DataLayer.Support
