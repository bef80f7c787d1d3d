import DataLayer.Schema.Fault

/- Why no code is generated: the schema is refused, a type has no form where it stands, or two names
   get in each other's way. -/
namespace DataLayer.Code
open Schema

inductive Fault
  | load (fault : LoadFault)
  | schema (fault : ModelFault)
  | storage (fault : Storage.Fault)
  | unsupported (kind name : String)
  | clash (text : String)
  deriving DecidableEq, Repr

namespace Fault

def message : Fault → String
  | .load fault => "schema parse error: " ++ fault.message
  | .schema fault => "schema error: " ++ fault.message
  | .storage fault => "IO error: " ++ fault.message
  | .unsupported kind name => "unsupported " ++ kind ++ " type '" ++ name ++ "'"
  | .clash text => "generation error: " ++ text

def chain (f : Fault) : List String :=
  f.message :: match f with
    | .load fault => fault.chain
    | .schema fault => fault.chain
    | .storage fault => [fault.message]
    | _ => []

end Fault

def ofModel {α : Type} : Except ModelFault α → Except Fault α
  | .ok a => .ok a
  | .error f => .error (.schema f)

end DataLayer.Code
