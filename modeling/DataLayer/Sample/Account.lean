import DataLayer.Sample.Drawing
import DataLayer.Support.Column

/- Accounts, which are stored in a table of their own. A drawing is stored with its account as a
   document. -/
namespace DataLayer.Sample
open Record Json Support

structure Account where
  id : String
  balance : Int
  status : Option Status
  drawing : Option Drawing
  deriving DecidableEq, Repr

namespace Account

def typeName : String := "Account"

/-- The longest name of a status has thirteen characters. -/
def registration : Registration where
  entity := typeName
  columns :=
    [⟨"id", .primaryKey, false, false⟩,
     ⟨"balance", .numeric, false, false⟩,
     ⟨"status", .varChar 13, true, false⟩,
     ⟨"drawing", .jsonb, true, false⟩]

def drawingColumn : Codec (Option Drawing) := Drawing.codec.nullable

def read (v : Value) : Except Fault Account := do
  let id ← Codec.text.readAt v "id"
  let balance ← Codec.wholeNumber.readAt v "balance"
  let status ← Status.codec.nullable.readAt v "status"
  let drawing ← drawingColumn.readAt v "drawing"
  return { id, balance, status, drawing }

def write (a : Account) : Except Unset Value := do
  let id ← Codec.text.write a.id
  let balance ← Codec.wholeNumber.write a.balance
  let status ← Status.codec.nullable.write a.status
  let drawing ← drawingColumn.write a.drawing
  return .ofMembers
    [(discriminatorKey, .string typeName), ("id", id), ("balance", balance), ("status", status),
     ("drawing", drawing)]

def new (record : Option Value) : Except Fault Account := record.elim (.error .null) read

end Account

end DataLayer.Sample
