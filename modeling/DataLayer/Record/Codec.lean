import DataLayer.Number.Integer
import DataLayer.Json.Value
import DataLayer.Record.Fault
import DataLayer.Text.Hex
import DataLayer.Time.Timestamp

/- Values and their form in a record. Numbers of any size, moments and bytes travel as strings. What
   is null or missing is told apart from a value only where a property may be null. -/
namespace DataLayer.Record
open Json Number Time Text

def discriminatorKey : String := "isTypeOf"

/-- The member of a record, or null if it has none or is no record. -/
def field (v : Value) (key : String) : Value := (v.member? key).getD .null

def discriminator? (v : Value) : Option String := (v.member? discriminatorKey).bind Value.string?

structure Codec (α : Type) where
  read : Value → Except Fault α
  write : α → Except Unset Value

namespace Codec
variable {α : Type}

def text : Codec String where
  read
    | .string s => .ok s
    | v => .error (.wrongKind "string" v.kind)
  write s := .ok (.string s)

def formatted (expected : String) (read? : List Char → Option α) (written : α → List Char) :
    Codec α where
  read v := do
    let s ← text.read v
    match read? s.toList with
    | some value => .ok value
    | none => .error (.badValue expected s)
  write value := .ok (.string (String.ofList (written value)))

def integer : Codec Int32 where
  read
    | .integer n =>
        if Int32.minValue.toInt ≤ n ∧ n ≤ Int32.maxValue.toInt then .ok (Int32.ofInt n)
        else .error (.wrongKind "32-bit integer" "number")
    | v => .error (.wrongKind "32-bit integer" v.kind)
  write n := .ok (.integer n.toInt)

/-- A number that is not finite has no form of its own and is written as null. -/
def double : Codec Binary64 where
  read v :=
    match v.double? with
    | some d => .ok (.finite d)
    | none => .error (.wrongKind "number" v.kind)
  write
    | .finite d => .ok (.double d)
    | .infinite _ | .undefined => .ok .null

def boolean : Codec Bool where
  read
    | .boolean b => .ok b
    | v => .error (.wrongKind "boolean" v.kind)
  write b := .ok (.boolean b)

def timestamp : Codec Timestamp :=
  formatted "RFC 3339 timestamp" Timestamp.ofText? Timestamp.text

def wholeNumber : Codec Int := formatted "decimal integer" Integer.ofText? Integer.text

def bytes : Codec (List UInt8) := formatted "0x-prefixed hex string" ofHexText? hexText

def member (ofName? : String → Option α) (name : α → String) : Codec α :=
  formatted "enum member" (fun s => ofName? (String.ofList s)) fun value => (name value).toList

def readNonNull (read : Value → Except Fault α) (v : Value) : Except Fault α :=
  if v.isNull then .error .null else read v

def nullable (c : Codec α) : Codec (Option α) where
  read v := if v.isNull then .ok none else (c.read v).map some
  write
    | none => .ok .null
    | some value => c.write value

def list (c : Codec α) : Codec (List α) where
  read
    | .array elements => elements.mapM c.read
    | v => .error (.wrongKind "array" v.kind)
  write values := (values.mapM c.write).map Value.array

def readAt (c : Codec α) (v : Value) (key : String) : Except Fault α := c.read (field v key)

end Codec

end DataLayer.Record
