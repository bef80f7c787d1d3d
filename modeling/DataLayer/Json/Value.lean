import DataLayer.Number.Double

/- Documents of JSON. Members of an object stand in ascending order of their keys, one for each key,
   if the object has been put together by insertion. A whole number is kept apart from a double. -/
namespace DataLayer.Json
open Number

inductive Value
  | null
  | boolean (value : Bool)
  | integer (value : Int)
  | double (value : Double)
  | string (value : String)
  | array (elements : List Value)
  | object (members : List (String × Value))
  deriving Repr

instance : Inhabited Value := ⟨.null⟩

def insertMember (key : String) (value : Value) :
    List (String × Value) → List (String × Value)
  | [] => [(key, value)]
  | (k, v) :: rest =>
      if key < k then (key, value) :: (k, v) :: rest
      else if key = k then (key, value) :: rest
      else (k, v) :: insertMember key value rest

namespace Value

/-- The object with these members. Later ones win over earlier ones of the same key. -/
def ofMembers (members : List (String × Value)) : Value :=
  .object (members.foldl (fun all m => insertMember m.1 m.2 all) [])

def member? : Value → String → Option Value
  | .object members, key => members.lookup key
  | _, _ => none

def isNull : Value → Bool
  | .null => true
  | _ => false

def string? : Value → Option String
  | .string s => some s
  | _ => none

def double? : Value → Option Double
  | .double d => some d
  | .integer n => Double.ofInt? n
  | _ => none

def kind : Value → String
  | .null => "null"
  | .boolean _ => "boolean"
  | .integer _ | .double _ => "number"
  | .string _ => "string"
  | .array _ => "array"
  | .object _ => "object"

theorem isNull_iff {v : Value} : v.isNull = true ↔ v = .null := by
  cases v <;> simp [isNull]

end Value

theorem lookup_insertMember (key : String) (value : Value) (members : List (String × Value)) :
    (insertMember key value members).lookup key = some value := by
  induction members with
  | nil => simp [insertMember]
  | cons m rest ih =>
    obtain ⟨k, v⟩ := m
    unfold insertMember
    split
    · simp
    · split
      · simp
      · rename_i other
        have differs : (key == k) = false := by simpa using other
        simp [List.lookup_cons, differs, ih]

end DataLayer.Json
