import DataLayer.Xml.Fault

/- One piece of markup at a time. Everything here takes the text after a `<` and answers with the
   piece and the text after it, which is always a shorter suffix of what was given
   (`readMarkup_length_lt`). -/
namespace DataLayer.Xml

def isSpace (c : Char) : Bool := c == ' ' || c == '\t' || c == '\r' || c == '\n'

def after? (mark : List Char) : List Char → Option (List Char)
  | [] => none
  | c :: rest =>
      if mark.isPrefixOf (c :: rest) then some ((c :: rest).drop mark.length)
      else after? mark rest

theorem after?_suffix {mark s rest : List Char} (found : after? mark s = some rest) :
    rest <:+ s := by
  induction s with
  | nil => simp [after?] at found
  | cons c s ih =>
    simp only [after?] at found
    split at found
    · cases found
      exact List.drop_suffix _ _
    · exact (ih found).trans (List.suffix_cons c s)

def splitTag (quote : Option Char) : List Char → Except Fault (List Char × List Char)
  | [] => .error (quote.elim .openTag .openValue)
  | c :: rest =>
      let extend (q : Option Char) :=
        (splitTag q rest).map fun inside => (c :: inside.1, inside.2)
      match quote with
      | some q => extend (if c = q then none else some q)
      | none =>
          if c = '>' then .ok ([], rest)
          else extend (if c = '"' ∨ c = '\'' then some c else none)

theorem splitTag_length {quote : Option Char} {s inside rest : List Char}
    (split : splitTag quote s = .ok (inside, rest)) :
    inside.length + rest.length + 1 = s.length := by
  induction s generalizing quote inside with
  | nil => cases quote <;> simp [splitTag] at split
  | cons c s ih =>
    have step : ∀ q, (splitTag q s).map (fun p => (c :: p.1, p.2)) = .ok (inside, rest) →
        inside.length + rest.length + 1 = (c :: s).length := by
      intro q run
      cases tail : splitTag q s with
      | error f => simp [tail, Except.map] at run
      | ok p =>
        obtain ⟨inner, after⟩ := p
        simp only [tail, Except.map, Except.ok.injEq, Prod.mk.injEq] at run
        obtain ⟨rfl, rfl⟩ := run
        have := ih tail
        simp only [List.length_cons]
        omega
    simp only [splitTag] at split
    cases quote with
    | some q => exact step _ split
    | none =>
      dsimp only at split
      split at split
      · simp only [Except.ok.injEq, Prod.mk.injEq] at split
        obtain ⟨rfl, rfl⟩ := split
        simp
      · exact step _ split

/-- Where a reader of a document type declaration stands: outside the internal subset (perhaps in
    a quoted text), in the subset, in one of its pieces, or behind it. Of comments and instructions
    it counts the characters, because the end mark cannot begin within the opening one. -/
inductive DoctypePlace
  | before (quote : Option Char)
  | subset
  | comment (count : Nat)
  | instruction (count : Nat)
  | declaration (quote : Option Char)
  | piece
  | behind
  deriving DecidableEq, Repr

/-- Declarations of the internal subset in which a quoted `>` ends nothing. -/
def quotingDeclarations : List (List Char) :=
  ["!ENTITY".toList, "!ATTLIST".toList, "!NOTATION".toList]

def subsetPlace (s : List Char) : DoctypePlace :=
  if "!--".toList.isPrefixOf s then .comment 0
  else if "?".toList.isPrefixOf s then .instruction 0
  else if quotingDeclarations.any (·.isPrefixOf s) then .declaration none
  else .piece

def toggleQuote (quote : Option Char) (c : Char) : Option Char :=
  match quote with
  | some q => if c = q then none else some q
  | none => if c = '"' ∨ c = '\'' then some c else none

/-- The text after the `>` that ends a document type declaration. `last` holds the two characters
    just read in the present piece, by which the ends of comments and instructions are known. -/
def afterDoctype (place : DoctypePlace) (last : Char × Char) : List Char → Option (List Char)
  | [] => none
  | c :: rest =>
      let shift := (last.2, c)
      let fresh := (' ', ' ')
      match place with
      | .before none =>
          if c = '>' then some rest
          else if c = '[' then afterDoctype .subset fresh rest
          else afterDoctype (.before (toggleQuote none c)) fresh rest
      | .before (some q) => afterDoctype (.before (toggleQuote (some q) c)) fresh rest
      | .subset =>
          if c = ']' then afterDoctype .behind fresh rest
          else if c = '<' then afterDoctype (subsetPlace rest) fresh rest
          else afterDoctype .subset fresh rest
      | .comment count =>
          if c = '>' ∧ last = ('-', '-') ∧ 5 ≤ count then afterDoctype .subset fresh rest
          else afterDoctype (.comment (count + 1)) shift rest
      | .instruction count =>
          if c = '>' ∧ last.2 = '?' ∧ 2 ≤ count then afterDoctype .subset fresh rest
          else afterDoctype (.instruction (count + 1)) shift rest
      | .declaration none =>
          if c = '>' then afterDoctype .subset fresh rest
          else afterDoctype (.declaration (toggleQuote none c)) fresh rest
      | .declaration (some q) => afterDoctype (.declaration (toggleQuote (some q) c)) fresh rest
      | .piece =>
          if c = '>' then afterDoctype .subset fresh rest else afterDoctype .piece fresh rest
      | .behind => if c = '>' then some rest else afterDoctype .behind fresh rest

theorem afterDoctype_suffix {place : DoctypePlace} {last : Char × Char} {s rest : List Char}
    (ended : afterDoctype place last s = some rest) : rest <:+ s := by
  induction s generalizing place last with
  | nil => simp [afterDoctype] at ended
  | cons c s ih =>
    have tail : ∀ {p l}, afterDoctype p l s = some rest → rest <:+ c :: s := fun h =>
      (ih h).trans (List.suffix_cons c s)
    have here : some s = some rest → rest <:+ c :: s := fun h =>
      Option.some.inj h ▸ List.suffix_cons c s
    cases place with
    | before quote =>
      cases quote <;> simp only [afterDoctype] at ended
      · split at ended
        · exact here ended
        · split at ended <;> exact tail ended
      · exact tail ended
    | subset =>
      simp only [afterDoctype] at ended
      split at ended
      · exact tail ended
      · split at ended <;> exact tail ended
    | declaration quote =>
      cases quote <;> simp only [afterDoctype] at ended
      · split at ended <;> exact tail ended
      · exact tail ended
    | comment | instruction | piece =>
      simp only [afterDoctype] at ended
      split at ended <;> exact tail ended
    | behind =>
      simp only [afterDoctype] at ended
      split at ended
      · exact here ended
      · exact tail ended

inductive Markup
  | silent
  | opening (name : String) (attributes : List Char)
  | whole (name : String) (attributes : List Char)
  | closing (name : String)
  deriving DecidableEq, Repr

def Markup.ofInside (inside : List Char) : Markup :=
  let body := if inside.getLast? = some '/' then inside.dropLast else inside
  let name := String.ofList (body.takeWhile (!isSpace ·))
  let attributes := body.dropWhile (!isSpace ·)
  if inside.getLast? = some '/' then .whole name attributes else .opening name attributes

/-- The inside of a closing tag names the element. Blanks after the name do not count, but where
    there is nothing else they are the name. -/
def closingName (inside : List Char) : String :=
  if inside.all isSpace then String.ofList inside
  else String.ofList (inside.reverse.dropWhile isSpace).reverse

def sameLetters (a b : List Char) : Bool := a.map Char.toUpper == b.map Char.toUpper

def readDeclaration (s : List Char) : Except Fault (Markup × List Char) :=
  match s with
  | '[' :: _ =>
      match "[CDATA[".toList.isPrefixOf s, after? "]]>".toList s with
      | true, some rest => .ok (.silent, rest)
      | _, _ => .error .openCData
  | '-' :: body =>
      match body with
      | '-' :: body =>
          match after? "-->".toList body with
          | some rest => .ok (.silent, rest)
          | none => .error .openComment
      | _ => .error .openComment
  | c :: _ =>
      if c = 'D' ∨ c = 'd' then
        match afterDoctype (.before none) (' ', ' ') s with
        | none => .error .openDoctype
        | some rest =>
            let written := s.take (s.length - rest.length - 1)
            if sameLetters (written.take 7) "DOCTYPE".toList then
              if (written.drop 7).all isSpace then .error .namelessDoctype
              else .ok (.silent, rest)
            else .error .openDoctype
      else .error .unknownMarkup
  | [] => .error .unknownMarkup

def startsXmlDeclaration (s : List Char) : Bool :=
  "xml".toList.isPrefixOf s &&
    match s.drop 3 with
    | [] => true
    | c :: _ => isSpace c || c == '?'

def readInstruction (s : List Char) : Except Fault (Markup × List Char) :=
  match s with
  | '>' :: _ => .error .openInstruction
  | _ =>
      match after? "?>".toList s with
      | some rest => .ok (.silent, rest)
      | none => .error (if startsXmlDeclaration s then .openDeclaration else .openInstruction)

def readMarkup (s : List Char) : Except Fault (Markup × List Char) :=
  match s with
  | [] => .error .openTag
  | '!' :: s => readDeclaration s
  | '?' :: s => readInstruction s
  | '/' :: s => (splitTag none s).map fun p => (.closing (closingName p.1), p.2)
  | s => (splitTag none s).map fun p => (Markup.ofInside p.1, p.2)

theorem readDeclaration_length_le {s rest : List Char} {m : Markup}
    (read : readDeclaration s = .ok (m, rest)) : rest.length ≤ s.length := by
  unfold readDeclaration at read
  split at read
  · rename_i tail
    split at read
    · rename_i found
      cases read
      exact (after?_suffix found).length_le
    · contradiction
  · rename_i body
    split at read
    · rename_i inner
      split at read
      · rename_i found
        cases read
        have := (after?_suffix found).length_le
        simp only [List.length_cons]
        omega
      · contradiction
    · contradiction
  · split at read
    · split at read
      · contradiction
      · rename_i ended
        dsimp only at read
        split at read
        · split at read
          · contradiction
          · cases read
            exact (afterDoctype_suffix ended).length_le
        · contradiction
    · contradiction
  · contradiction

theorem readInstruction_length_le {s rest : List Char} {m : Markup}
    (read : readInstruction s = .ok (m, rest)) : rest.length ≤ s.length := by
  unfold readInstruction at read
  split at read
  · contradiction
  · split at read
    · rename_i found
      cases read
      exact (after?_suffix found).length_le
    · contradiction

theorem splitTag_map_length_lt {f : List Char → Markup} {s rest : List Char} {m : Markup}
    (read : (splitTag none s).map (fun p => (f p.1, p.2)) = .ok (m, rest)) :
    rest.length < s.length := by
  cases split : splitTag none s with
  | error e => simp [split, Except.map] at read
  | ok p =>
    obtain ⟨inside, after⟩ := p
    simp only [split, Except.map, Except.ok.injEq, Prod.mk.injEq] at read
    obtain ⟨_, rfl⟩ := read
    have := splitTag_length split
    omega

theorem readMarkup_length_lt {s rest : List Char} {m : Markup}
    (read : readMarkup s = .ok (m, rest)) : rest.length < s.length := by
  unfold readMarkup at read
  split at read
  · contradiction
  · have := readDeclaration_length_le read
    simp only [List.length_cons]
    omega
  · have := readInstruction_length_le read
    simp only [List.length_cons]
    omega
  · have := splitTag_map_length_lt (f := fun inside => .closing (closingName inside)) read
    simp only [List.length_cons]
    omega
  · exact splitTag_map_length_lt (f := Markup.ofInside) read

end DataLayer.Xml
