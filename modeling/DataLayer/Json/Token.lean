import DataLayer.Json.Number
import DataLayer.Json.Quoted

/- Documents as sequences of tokens: brackets, commas, colons, and the values that have no parts. -/
namespace DataLayer.Json

inductive Token
  | openArray
  | closeArray
  | openObject
  | closeObject
  | comma
  | colon
  | scalar (value : Value)
  deriving Repr

def isSpace (c : Char) : Bool := c == ' ' || c == '\t' || c == '\n' || c == '\r'

def Token.ofMark? : Char → Option Token
  | '[' => some .openArray
  | ']' => some .closeArray
  | '{' => some .openObject
  | '}' => some .closeObject
  | ',' => some .comma
  | ':' => some .colon
  | _ => none

def endsWord (c : Char) : Bool := isSpace c || (Token.ofMark? c).isSome || c == '"'

def wordValue? (word : List Char) : Option Value :=
  if word = "null".toList then some .null
  else if word = "true".toList then some (.boolean true)
  else if word = "false".toList then some (.boolean false)
  else (Literal.ofText? word).bind Literal.value?

def tokens? : List Char → Option (List Token)
  | [] => some []
  | c :: rest =>
      if isSpace c then tokens? rest
      else if c = '"' then
        match closed : closing? rest with
        | none => none
        | some (inner, after) =>
            have := length_closing? closed
            (unescaped? inner).bind fun s =>
              (tokens? after).map (.scalar (.string (String.ofList s)) :: ·)
      else
        match Token.ofMark? c with
        | some mark => (tokens? rest).map (mark :: ·)
        | none =>
            have := (List.dropWhile_suffix (fun c => !endsWord c) (l := rest)).length_le
            (wordValue? (c :: rest.takeWhile (!endsWord ·))).bind fun v =>
              (tokens? (rest.dropWhile (!endsWord ·))).map (.scalar v :: ·)
termination_by text => text.length
decreasing_by all_goals simp_all <;> omega

end DataLayer.Json
