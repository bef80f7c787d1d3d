import DataLayer.Text.Case

/- Names in generated Rust code. Modules, fields, setters and dispatch functions are all named in
   snake case after the schema's own name, and a name that is a keyword is written in its raw form
   or, where no raw form exists, with an underscore after it. -/
namespace DataLayer.Name
open Text

def keywords : List String :=
  ["as", "async", "await", "break", "const", "continue", "dyn", "else", "enum", "extern", "false",
   "fn", "for", "gen", "if", "impl", "in", "let", "loop", "match", "mod", "move", "mut", "pub",
   "ref", "return", "static", "struct", "trait", "true", "type", "unsafe", "use", "where",
   "while", "abstract", "become", "box", "do", "final", "macro", "override", "priv", "try",
   "typeof", "unsized", "virtual", "yield"]

def reserved : List String := ["self", "Self", "super", "crate", "_"]

/-- A capital opens a word after a small letter or a digit, and as the last capital of a run that
    a small letter follows: the second M of `MDMEntry` does not, its E does. -/
def opensWord (before : Option Char) (c : Char) (after : Option Char) : Bool :=
  isUppercase c && match before with
    | none => false
    | some b => isLowercase b || b.isDigit || (isUppercase b && after.any isLowercase)

/-- Hyphens and spaces become underscores and words are parted by underscores, but no underscore
    is added where one has just been written (`parted`). -/
def snakeFrom (before : Option Char) (parted : Bool) : List Char → List Char
  | [] => []
  | c :: rest =>
      if c = '-' ∨ c = ' ' then
        (if parted then [] else ['_']) ++ snakeFrom (some c) true rest
      else
        (if opensWord before c rest.head? && !parted then ['_'] else []) ++
          lowercase c ++ snakeFrom (some c) (c == '_') rest

def snakeCase (s : String) : String := String.ofList (snakeFrom none false s.toList)

def escape (ident : String) : String :=
  if ident ∈ reserved then ident ++ "_"
  else if ident ∈ keywords then "r#" ++ ident
  else ident

def moduleName (item : String) : String := escape (snakeCase item)
def fieldIdent (key : String) : String := escape (snakeCase key)
def setterIdent (key : String) : String := "set_" ++ snakeCase key
def dispatchIdent (union : String) : String := snakeCase union ++ "_from_json"

def dropRawMarks : List Char → List Char
  | 'r' :: '#' :: rest => dropRawMarks rest
  | s => s

def fileStem (module : String) : String := String.ofList (dropRawMarks module.toList)

def isIdentStart (c : Char) : Bool := c.isAlpha || c == '_'
def isIdentPart (c : Char) : Bool := c.isAlphanum || c == '_'

def isAsciiIdent (s : String) : Bool :=
  match s.toList with
  | [] => false
  | c :: rest => isIdentStart c && rest.all isIdentPart

example : ["clOrdId", "MDEntryPx", "INACTIVE_LONG", "block2Hash", "order-type"].map snakeCase =
    ["cl_ord_id", "md_entry_px", "inactive_long", "block2_hash", "order_type"] := by
  decide +kernel

example : ["type", "self", "balance"].map escape = ["r#type", "self_", "balance"] := by
  decide +kernel

end DataLayer.Name
