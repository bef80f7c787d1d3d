import DataLayer.Json.Token

/- Reading a document token by token. What has been read so far is a stack of the arrays and objects
   that are still open, and with it what may come next. A document is read if it ends where its
   first value is complete and nothing is open. -/
namespace DataLayer.Json

inductive Open
  | array (elements : List Value)
  | object (members : List (String × Value)) (key : String)
  deriving Repr

/-- Where a reader stands, with everything that is open there, innermost first. -/
inductive Place
  | beforeValue (outer : List Open)
  | inArray (outer : List Open)
  | beforeKey (outer : List Open) (members : List (String × Value)) (mayClose : Bool)
  | beforeColon (outer : List Open) (members : List (String × Value)) (key : String)
  | afterValue (outer : List Open) (value : Value)
  deriving Repr

namespace Place

def startValue? (outer : List Open) : Token → Option Place
  | .scalar v => some (.afterValue outer v)
  | .openArray => some (.inArray outer)
  | .openObject => some (.beforeKey outer [] true)
  | _ => none

def step? : Place → Token → Option Place
  | .beforeValue outer, t => startValue? outer t
  | .inArray outer, .closeArray => some (.afterValue outer (.array []))
  | .inArray outer, t => startValue? (.array [] :: outer) t
  | .beforeKey outer members _, .scalar (.string key) => some (.beforeColon outer members key)
  | .beforeKey outer members true, .closeObject => some (.afterValue outer (.object members))
  | .beforeColon outer members key, .colon => some (.beforeValue (.object members key :: outer))
  | .afterValue (.array elements :: outer) v, .comma =>
      some (.beforeValue (.array (v :: elements) :: outer))
  | .afterValue (.array elements :: outer) v, .closeArray =>
      some (.afterValue outer (.array (v :: elements).reverse))
  | .afterValue (.object members key :: outer) v, .comma =>
      some (.beforeKey outer (insertMember key v members) false)
  | .afterValue (.object members key :: outer) v, .closeObject =>
      some (.afterValue outer (.object (insertMember key v members)))
  | _, _ => none

def value? : Place → Option Value
  | .afterValue [] v => some v
  | _ => none

end Place

def Value.ofTokens? (tokens : List Token) : Option Value :=
  (tokens.foldlM Place.step? (.beforeValue [])).bind Place.value?

def Value.ofText? (text : String) : Option Value := (tokens? text.toList).bind Value.ofTokens?

end DataLayer.Json
