import DataLayer.Record.Codec

/- The states of a drawing or an account. -/
namespace DataLayer.Sample
open Record

inductive Status
  | active
  | inactiveLong
  deriving DecidableEq, Repr

namespace Status

def all : List Status := [.active, .inactiveLong]

def name : Status → String
  | .active => "ACTIVE"
  | .inactiveLong => "INACTIVE_LONG"

def ofName? (name : String) : Option Status := all.find? (·.name = name)

def ofName (name : String) : Except UnknownMember Status :=
  match ofName? name with
  | some s => .ok s
  | none => .error ⟨"Status", name⟩

def codec : Codec Status := .member ofName? name

theorem ofName?_name (s : Status) : ofName? s.name = some s := by
  cases s <;> decide

end Status

end DataLayer.Sample
