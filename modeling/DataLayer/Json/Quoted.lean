import DataLayer.Text.Digits

/- Strings as they stand in documents. A quotation mark, a backslash and the control characters
   below the space are written as escapes; everything else stands for itself. Reading knows more
   escapes than writing uses, among them two in a row for a character beyond the first 65536. -/
namespace DataLayer.Json
open Text

def lowHex (n : Nat) : Char := Nat.digitChar (n % 16)

def writtenChar (c : Char) : List Char :=
  match c with
  | '"' => ['\\', '"']
  | '\\' => ['\\', '\\']
  | '\x08' => ['\\', 'b']
  | '\x0c' => ['\\', 'f']
  | '\n' => ['\\', 'n']
  | '\r' => ['\\', 'r']
  | '\t' => ['\\', 't']
  | c =>
      if c.toNat < 0x20 then ['\\', 'u', '0', '0', lowHex (c.toNat / 16), lowHex c.toNat] else [c]

def quoted (s : List Char) : List Char := '"' :: s.flatMap writtenChar ++ ['"']

def closing? : List Char → Option (List Char × List Char)
  | [] => none
  | '"' :: rest => some ([], rest)
  | '\\' :: c :: rest => (closing? rest).map fun s => ('\\' :: c :: s.1, s.2)
  | c :: rest => (closing? rest).map fun s => (c :: s.1, s.2)

theorem length_closing? {text inner rest : List Char}
    (closed : closing? text = some (inner, rest)) :
    rest.length < text.length := by
  fun_induction closing? text generalizing inner rest with
  | case1 => contradiction
  | case2 => simp_all
  | case3 c after ih =>
    simp only [Option.map_eq_some_iff, Prod.mk.injEq] at closed
    obtain ⟨⟨i, r⟩, found, -, rfl⟩ := closed
    have := ih found
    simp only [List.length_cons]
    omega
  | case4 c after _ _ ih =>
    simp only [Option.map_eq_some_iff, Prod.mk.injEq] at closed
    obtain ⟨⟨i, r⟩, found, -, rfl⟩ := closed
    have := ih found
    simp only [List.length_cons]
    omega

def simpleEscapes : List (Char × Char) :=
  [('"', '"'), ('\\', '\\'), ('/', '/'), ('b', '\x08'), ('f', '\x0c'), ('n', '\n'), ('r', '\r'),
   ('t', '\t')]

def isHighHalf (n : Nat) : Bool := 0xD800 ≤ n && n < 0xDC00
def isLowHalf (n : Nat) : Bool := 0xDC00 ≤ n && n < 0xE000

/-- Replaces every escape by its character. Control characters have to be escaped, and of the two
    halves of a character beyond the first 65536 neither may stand alone. -/
def unescaped? : List Char → Option (List Char)
  | [] => some []
  | '\\' :: 'u' :: a :: b :: c :: d :: rest =>
      match number? 16 [a, b, c, d] with
      | none => none
      | some high =>
          if isHighHalf high then
            match rest with
            | '\\' :: 'u' :: e :: f :: g :: h :: rest =>
                match number? 16 [e, f, g, h] with
                | none => none
                | some low =>
                    if isLowHalf low then
                      let code := 0x10000 + (high - 0xD800) * 0x400 + (low - 0xDC00)
                      (unescaped? rest).map (Char.ofNat code :: ·)
                    else none
            | _ => none
          else if isLowHalf high then none
          else (unescaped? rest).map (Char.ofNat high :: ·)
  | '\\' :: c :: rest =>
      match simpleEscapes.lookup c with
      | some char => (unescaped? rest).map (char :: ·)
      | none => none
  | c :: rest =>
      if c.toNat < 0x20 ∨ c = '\\' then none else (unescaped? rest).map (c :: ·)

end DataLayer.Json
