import DataLayer.Code.Fault
import DataLayer.Table

/- Identifiers claimed in one scope of generated code. An identifier belongs to the schema name that
   claimed it first, and no other name can have it. -/
namespace DataLayer.Code

structure Scope where
  label : String
  claimed : Table String
  deriving DecidableEq

namespace Scope

def new (label : String) : Scope := ⟨label, .empty⟩

def clash (s : Scope) (ident first second : String) : Fault :=
  .clash (s.label ++ ": '" ++ first ++ "' and '" ++ second ++ "' both generate '" ++ ident ++ "'")

def claim (s : Scope) (ident source : String) : Except Fault Scope :=
  match s.claimed.get? ident with
  | none => .ok { s with claimed := s.claimed.insert ident source }
  | some holder => if holder = source then .ok s else .error (s.clash ident holder source)

end Scope

end DataLayer.Code
