import DataLayer.Json.Number
import DataLayer.Json.Quoted

/- Documents written without any space. -/
namespace DataLayer.Json
open Number

mutual

def written : Value → List Char
  | .null => "null".toList
  | .boolean b => (if b then "true" else "false").toList
  | .integer n => Integer.text n
  | .double d => doubleText d
  | .string s => quoted s.toList
  | .array elements => '[' :: writtenElements elements ++ [']']
  | .object members => '{' :: writtenMembers members ++ ['}']

def writtenElements : List Value → List Char
  | [] => []
  | [v] => written v
  | v :: rest => written v ++ ',' :: writtenElements rest

def writtenMembers : List (String × Value) → List Char
  | [] => []
  | [(key, v)] => quoted key.toList ++ ':' :: written v
  | (key, v) :: rest => quoted key.toList ++ ':' :: written v ++ ',' :: writtenMembers rest

end

def Value.text (v : Value) : String := String.ofList (written v)

end DataLayer.Json
