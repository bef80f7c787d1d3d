import DataLayer.Code.Entity
import DataLayer.Code.Object
import DataLayer.Code.Union
import DataLayer.Code.Enumeration
import DataLayer.Code.SourceFile

/- The code of an item of any kind, and the file that holds it. The code is composed first; the file
   then imports what the code uses. -/
namespace DataLayer.Code
open Schema

inductive ItemCode
  | entity (c : EntityCode)
  | object (c : ObjectCode)
  | union (c : UnionCode)
  | enumeration (c : EnumerationCode)
  deriving DecidableEq, Repr

namespace ItemCode

def name : ItemCode → String
  | .entity c => c.name
  | .object c => c.name
  | .union c => c.name
  | .enumeration c => c.name

def uses : ItemCode → List Use
  | .entity c => c.uses
  | .object c => c.uses
  | .union c => c.uses
  | .enumeration _ => []

def imports (c : ItemCode) : Imports := .ofUses c.name c.uses

def body : ItemCode → List Step
  | .entity c => c.body
  | .object c => c.body
  | .union c => c.body
  | .enumeration c => c.body

def readsRecords : ItemCode → Bool
  | .object _ | .union _ => true
  | .entity _ | .enumeration _ => false

end ItemCode

def itemCodeOf (m : Model) (variants : List String) (name : String) :
    Item → Except Fault ItemCode
  | .entity e => return .entity (← entityCodeOf m (variants.contains name) name e)
  | .object o => return .object (← objectCodeOf (variants.contains name) name o)
  | .union u => return .union (← unionCodeOf m name u)
  | .enumeration e => return .enumeration (← enumerationCodeOf name e)

structure ItemFile where
  code : ItemCode
  imported : List ImportLine
  deriving DecidableEq, Repr

def itemFileOf (m : Model) (variants : List String) (name : String) (item : Item) :
    Except Fault ItemFile := do
  let code ← itemCodeOf m variants name item
  return ⟨code, ← code.imports.lines m⟩

def ItemFile.source (f : ItemFile) : SourceFile :=
  ⟨f.code.name, f.imported.map ImportLine.render, emitted f.code.body⟩

end DataLayer.Code
