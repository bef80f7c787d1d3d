/- What can go wrong with a record. A document may have the wrong form for what is to be read from
   it, a name may be no member of its enumeration, and a value cannot be written or asked for a
   property that has never been set. -/
namespace DataLayer.Record

inductive Fault
  | wrongKind (expected found : String)
  | badValue (expected value : String)
  | null
  | unknownVariant (union : String) (name : Option String)
  deriving DecidableEq, Repr

def Fault.message : Fault → String
  | .wrongKind expected found => "expected JSON " ++ expected ++ ", found " ++ found
  | .badValue expected value => "invalid " ++ expected ++ ": '" ++ value ++ "'"
  | .null => "unexpected null value"
  | .unknownVariant union none => "unknown json object passed as " ++ union
  | .unknownVariant union (some name) =>
      "unknown json object passed as " ++ union ++ ": '" ++ name ++ "'"

structure Unset where
  owner : String
  field : String
  deriving DecidableEq, Repr

def Unset.message (u : Unset) : String := "uninitialized access: " ++ u.owner ++ "." ++ u.field

structure UnknownMember where
  enumeration : String
  name : String
  deriving DecidableEq, Repr

def UnknownMember.message (u : UnknownMember) : String :=
  "unknown " ++ u.enumeration ++ " member '" ++ u.name ++ "'"

def required {α : Type} (owner field : String) (value : Option α) : Except Unset α :=
  match value with
  | some value => .ok value
  | none => .error ⟨owner, field⟩

end DataLayer.Record
