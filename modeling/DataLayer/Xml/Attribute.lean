import DataLayer.Xml.Markup

/- Attributes in the text of a tag. An attribute is a key, an equals sign and a quoted value. What
   is not of that form is passed over, and reading goes on after it: a key without an equals sign
   costs the key, a value without quotes costs a word. A repeated key costs what is left of its
   word after the equals sign, whether quotes open there or not, so that a quoted value with a
   blank in it is read from that blank on. -/
namespace DataLayer.Xml

structure Attribute where
  key : String
  value : String
  deriving DecidableEq, Repr

def skipSpaces (s : List Char) : List Char := s.dropWhile isSpace
def skipWord (s : List Char) : List Char := s.dropWhile (!isSpace ·)

def isQuote (c : Char) : Bool := c == '"' || c == '\''

def endsKey (c : Char) : Bool := c == '=' || isSpace c

theorem dropWhile_length_le (p : Char → Bool) (s : List Char) :
    (s.dropWhile p).length ≤ s.length := (List.dropWhile_suffix p).length_le

/-- Reads attributes in order. `known` holds every key met so far, those with bad values too. A
    key without an equals sign is not remembered. -/
def readAttributes (known : List (List Char)) (s : List Char) : List Attribute :=
  match _start : skipSpaces s with
  | [] => []
  | first :: text =>
      let key := first :: text.takeWhile (!endsKey ·)
      match _equals : skipSpaces (text.dropWhile (!endsKey ·)) with
      | [] => []
      | c :: rest =>
          if c ≠ '=' then readAttributes known (c :: rest)
          else if key ∈ known then readAttributes known (skipWord rest)
          else
            match _quote : skipSpaces rest with
            | [] => []
            | q :: value =>
                if !isQuote q then readAttributes (key :: known) (skipWord value)
                else
                  match _close : value.dropWhile (· != q) with
                  | [] => []
                  | _ :: after =>
                      ⟨String.ofList key, String.ofList (value.takeWhile (· != q))⟩ ::
                        readAttributes (key :: known) after
termination_by s.length
decreasing_by
  all_goals
    simp_wf
    have b1 := dropWhile_length_le isSpace s
    have b2 := dropWhile_length_le (!endsKey ·) text
    have b3 := dropWhile_length_le isSpace (text.dropWhile (!endsKey ·))
    simp only [skipSpaces] at _start _equals
    rw [_start, List.length_cons] at b1
    rw [_equals, List.length_cons] at b3
  · omega
  · have := dropWhile_length_le (!isSpace ·) rest
    simp only [skipWord]
    omega
  · have b4 := dropWhile_length_le isSpace rest
    have b5 := dropWhile_length_le (!isSpace ·) value
    simp only [skipSpaces] at _quote
    rw [_quote, List.length_cons] at b4
    simp only [skipWord]
    omega
  · have b4 := dropWhile_length_le isSpace rest
    have b5 := dropWhile_length_le (· != q) value
    simp only [skipSpaces] at _quote
    rw [_quote, List.length_cons] at b4
    rw [_close, List.length_cons] at b5
    omega

end DataLayer.Xml
