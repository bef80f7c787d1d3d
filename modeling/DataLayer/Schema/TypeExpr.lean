import DataLayer.Text.Blank
import DataLayer.Name

/- Type expressions such as `String`, `Int!` and `[Transfer!]!`. A type may be null unless an
   exclamation mark follows it, and white space may stand around every part. As a list has one item
   type, the opening brackets all stand before the one name in it, the closing ones behind it. -/
namespace DataLayer.Schema
open Text

inductive TypeExpr
  | named (name : String) (nullable : Bool)
  | list (item : TypeExpr) (nullable : Bool)
  deriving DecidableEq, Repr

namespace TypeExpr

def nullable : TypeExpr → Bool
  | .named _ n => n
  | .list _ n => n

def openings : List Char → Nat × List Char
  | [] => (0, [])
  | '[' :: rest => ((openings rest).1 + 1, (openings rest).2)
  | c :: rest => if isBlank c then openings rest else (0, c :: rest)

def readMark (s : List Char) : Bool × List Char :=
  match trimStart s with
  | '!' :: rest => (false, trimStart rest)
  | rest => (true, rest)

/-- The list types around a type, one for each bracket left to close. Nothing may follow. -/
def close? (t : TypeExpr) : Nat → List Char → Option TypeExpr
  | 0, [] => some t
  | depth + 1, ']' :: rest =>
      let (nullable, rest) := readMark rest
      close? (.list t nullable) depth rest
  | _, _ => none

def read? (s : List Char) : Option TypeExpr :=
  let (depth, s) := openings s
  let name := s.takeWhile Name.isIdentPart
  if name.isEmpty then none
  else
    let (nullable, rest) := readMark (s.dropWhile Name.isIdentPart)
    close? (.named (String.ofList name) nullable) depth rest

def ofText? (text : String) : Option TypeExpr := read? text.toList

def spelling : TypeExpr → String
  | .named name n => name ++ (if n then "" else "!")
  | .list item n => "[" ++ item.spelling ++ "]" ++ (if n then "" else "!")

end TypeExpr

end DataLayer.Schema
