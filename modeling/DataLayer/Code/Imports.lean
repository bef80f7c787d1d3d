import DataLayer.Code.Fault
import DataLayer.Name

/- What a generated file uses from elsewhere. Uses are collected while the file is composed, an item
   never uses itself, and the `use` lines stand in a fixed order: the helpers first, then the items
   in the order of their first use. -/
namespace DataLayer.Code
open Schema

inductive ColumnSymbol
  | column
  | columnKind
  | entity
  deriving DecidableEq, Repr

namespace ColumnSymbol

def all : List ColumnSymbol := [.column, .columnKind, .entity]

def name : ColumnSymbol → String
  | .column => "Column"
  | .columnKind => "ColumnKind"
  | .entity => "Entity"

end ColumnSymbol

inductive Use
  | assertion
  | column (symbol : ColumnSymbol)
  | marshal
  | item (name : String)
  deriving DecidableEq, Repr

structure Imports where
  owner : String
  assertion : Bool
  columns : List ColumnSymbol
  marshal : Bool
  items : NameSet
  deriving DecidableEq

namespace Imports

def new (owner : String) : Imports := ⟨owner, false, [], false, .empty⟩

def add (i : Imports) : Use → Imports
  | .assertion => { i with assertion := true }
  | .column symbol => { i with columns := symbol :: i.columns }
  | .marshal => { i with marshal := true }
  | .item name => if name = i.owner then i else { i with items := i.items.insert name }

def addAll (i : Imports) (uses : List Use) : Imports := uses.foldl add i

def ofUses (owner : String) (uses : List Use) : Imports := (new owner).addAll uses

def isEmpty (i : Imports) : Bool :=
  !i.assertion && i.columns.isEmpty && !i.marshal && i.items.isEmpty

end Imports

inductive ImportLine
  | assertion
  | columns (symbols : List ColumnSymbol)
  | marshal
  | item (name : String)
  | union (name : String)
  deriving DecidableEq, Repr

namespace ImportLine

def support? : ImportLine → Option String
  | .assertion | .marshal => some "marshal"
  | .columns _ => some "orm"
  | .item _ | .union _ => none

/-- A union is imported together with the function that reads it. -/
def render : ImportLine → String
  | .assertion => "use super::super::marshal::assert_initialized;"
  | .columns symbols =>
      "use super::super::orm::\x7b" ++ ", ".intercalate (symbols.map ColumnSymbol.name) ++ "\x7d;"
  | .marshal => "use super::super::marshal;"
  | .item name => "use super::" ++ Name.moduleName name ++ "::" ++ name ++ ";"
  | .union name =>
      "use super::" ++ Name.moduleName name ++ "::\x7b" ++ name ++ ", " ++
        Name.dispatchIdent name ++ "\x7d;"

end ImportLine

def itemLine (m : Model) (name : String) : Except Fault ImportLine := do
  match (← ofModel (m.item name)).kind with
  | .union => return .union name
  | _ => return .item name

namespace Imports

def supportLines (i : Imports) : List ImportLine :=
  (if i.assertion then [.assertion] else []) ++
  (if i.columns.isEmpty then [] else [.columns (ColumnSymbol.all.filter (· ∈ i.columns))]) ++
  (if i.marshal then [.marshal] else [])

def lines (i : Imports) (m : Model) : Except Fault (List ImportLine) :=
  return i.supportLines ++ (← i.items.names.mapM (itemLine m))

end Imports

end DataLayer.Code
