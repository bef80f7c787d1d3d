import DataLayer.Text.Digits

/- References in attribute values: five named characters, and any other character by its decimal or
   hexadecimal number. A value with any other reference has no meaning. -/
namespace DataLayer.Xml
open Text

def namedReferences : List (List Char × Char) :=
  [("lt".toList, '<'), ("gt".toList, '>'), ("amp".toList, '&'), ("apos".toList, '\''),
   ("quot".toList, '"')]

def charOfNumber? (n : Nat) : Option Char :=
  if n = 0 then none
  else if n < 0xD800 ∨ (0xE000 ≤ n ∧ n ≤ 0x10FFFF) then some (Char.ofNat n)
  else none

def referenced? (name : List Char) : Option Char :=
  match name with
  | '#' :: 'x' :: digits => (number? 16 digits).bind charOfNumber?
  | '#' :: digits => (number? 10 digits).bind charOfNumber?
  | _ => namedReferences.lookup name

/-- Replaces every reference by its character. `name` holds, last character first, what has been
    read of a reference that is still open. -/
def resolveFrom (name : Option (List Char)) : List Char → Option (List Char)
  | [] => if name.isSome then none else some []
  | c :: rest =>
      match name with
      | none =>
          if c = '&' then resolveFrom (some []) rest
          else (resolveFrom none rest).map (c :: ·)
      | some read =>
          if c = ';' then do
            let char ← referenced? read.reverse
            return char :: (← resolveFrom none rest)
          else if c = '&' then none
          else resolveFrom (some (c :: read)) rest

def resolve? (value : String) : Option String :=
  (resolveFrom none value.toList).map String.ofList

def writtenChar (c : Char) : List Char :=
  match c with
  | '<' => "&lt;".toList
  | '>' => "&gt;".toList
  | '&' => "&amp;".toList
  | '\'' => "&apos;".toList
  | '"' => "&quot;".toList
  | c => [c]

theorem resolveFrom_cons {c : Char} (plain : c ≠ '&') (rest : List Char) :
    resolveFrom none (c :: rest) = (resolveFrom none rest).map (c :: ·) := by
  simp [resolveFrom, plain]

theorem resolveFrom_writtenChar (c : Char) (rest : List Char) :
    resolveFrom none (writtenChar c ++ rest) = (resolveFrom none rest).map (c :: ·) := by
  unfold writtenChar
  split
  case h_6 _ _ notAmp _ _ => exact resolveFrom_cons notAmp rest
  all_goals
    cases h : resolveFrom none rest <;>
      simp [resolveFrom, referenced?, namedReferences, List.lookup_cons, h]

theorem resolveFrom_flatMap_writtenChar (s : List Char) :
    resolveFrom none (s.flatMap writtenChar) = some s := by
  induction s with
  | nil => rfl
  | cons c s ih => simp [resolveFrom_writtenChar, ih]

end DataLayer.Xml
