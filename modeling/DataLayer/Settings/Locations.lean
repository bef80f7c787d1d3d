import DataLayer.Settings.Connection
import DataLayer.Storage.Path

/- Where the schema is found and where the code goes. Both have variables in the environment, and a
   variable without any text in it counts as not set. -/
namespace DataLayer.Settings
open Storage

structure Locations where
  schema : String := "schema.xml"
  output : String := "src/generated"
  deriving DecidableEq, Repr

namespace Locations

def schemaVariable : String := "MODELGEN_SCHEMA"
def outputVariable : String := "MODELGEN_OUT_DIR"

def ofEnvironment (e : Environment) : Locations :=
  let default : Locations := {}
  let setting (key default : String) := ((e key).filter (!·.isEmpty)).getD default
  { schema := setting schemaVariable default.schema
    output := setting outputVariable default.output }

def same (a b : Locations) : Bool := Path.same a.schema b.schema && Path.same a.output b.output

def isDefault (l : Locations) : Bool := l.same {}

end Locations

end DataLayer.Settings
