/- Splitting a text at its line feeds. A text always has one line more than it has line feeds. -/
namespace DataLayer.Text

def splitLines : List Char → List (List Char)
  | [] => [[]]
  | c :: rest =>
      if c = '\n' then [] :: splitLines rest
      else match splitLines rest with
        | line :: lines => (c :: line) :: lines
        | [] => [[c]]

def joinLines : List (List Char) → List Char
  | [] => []
  | [line] => line
  | line :: lines => line ++ '\n' :: joinLines lines

def dropReturn (line : List Char) : List Char :=
  if line.getLast? = some '\r' then line.dropLast else line

theorem splitLines_ne_nil (s : List Char) : splitLines s ≠ [] := by
  cases s with
  | nil => simp [splitLines]
  | cons c rest =>
    simp only [splitLines]
    split
    · simp
    · split <;> simp

theorem joinLines_splitLines (s : List Char) : joinLines (splitLines s) = s := by
  induction s with
  | nil => rfl
  | cons c rest ih =>
    simp only [splitLines]
    split
    · rename_i isFeed
      have nonempty := splitLines_ne_nil rest
      cases lines : splitLines rest with
      | nil => contradiction
      | cons line more => simp [joinLines, isFeed, ← lines, ih]
    · split
      · rename_i line lines eq
        rw [eq] at ih
        cases lines <;> simp_all [joinLines]
      · rename_i eq
        exact absurd eq (splitLines_ne_nil rest)

end DataLayer.Text
