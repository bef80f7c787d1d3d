import DataLayer.Text.Coded

/- String literals in source text. A quote, a backslash, the line ends, the tab and the null have
   short escapes, coded characters are written by code point in lowercase hexadecimal, and all else
   stands for itself. An apostrophe needs no escape. -/
namespace DataLayer.Text

def quotedChar (c : Char) : List Char :=
  match c with
  | '\x00' => ['\\', '0']
  | '\t' => ['\\', 't']
  | '\r' => ['\\', 'r']
  | '\n' => ['\\', 'n']
  | '"' => ['\\', '"']
  | '\\' => ['\\', '\\']
  | c =>
      if isCoded c then '\\' :: 'u' :: '\x7b' :: (Nat.toDigits 16 c.toNat ++ ['\x7d'])
      else [c]

def quoted (s : String) : String :=
  String.ofList ('"' :: (s.toList.flatMap quotedChar ++ ['"']))

end DataLayer.Text
