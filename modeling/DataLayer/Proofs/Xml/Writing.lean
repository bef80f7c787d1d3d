import DataLayer.Xml.Attribute
import DataLayer.Xml.Event
import DataLayer.Xml.Reference
import DataLayer.Proofs.Outcome

/- Elements as they are written, each attribute in double quotes with five characters escaped, and
   read back tag by tag. As no quote is left in an escaped text, a value ends at the quote that it
   is written with, and a tag at its own bracket, whatever the texts are. -/
namespace DataLayer.Xml

def writtenText (text : String) : List Char := text.toList.flatMap writtenChar

def writtenAttributes (attributes : List (String × String)) : List Char :=
  attributes.flatMap fun a => ' ' :: (a.1.toList ++ '=' :: '"' :: (writtenText a.2 ++ ['"']))

def openingTag (name : String) (attributes : List (String × String)) : List Char :=
  '<' :: (name.toList ++ writtenAttributes attributes ++ ['>'])

def wholeTag (name : String) (attributes : List (String × String)) : List Char :=
  '<' :: (name.toList ++ writtenAttributes attributes ++ ['/', '>'])

def closingTag (name : String) : List Char := '<' :: '/' :: (name.toList ++ ['>'])

def PlainName (name : String) : Prop :=
  name ≠ "" ∧ ∀ c ∈ name.toList, c.isAlphanum = true

instance (name : String) : Decidable (PlainName name) :=
  decidable_of_iff (name ≠ "" ∧ name.toList.all Char.isAlphanum = true) (by simp [PlainName])

theorem quote_not_mem_writtenText (text : String) : '"' ∉ writtenText text := by
  intro mem
  obtain ⟨c, _, mem⟩ := List.mem_flatMap.mp mem
  unfold writtenChar at mem
  split at mem
  case h_6 c _ _ _ _ notQuote =>
    exact notQuote (List.mem_singleton.mp mem).symm
  all_goals simp at mem

theorem resolve?_writtenText (text : String) :
    resolve? (String.ofList (writtenText text)) = some text := by
  rw [resolve?, String.toList_ofList, writtenText, resolveFrom_flatMap_writtenChar, Option.map_some,
    String.ofList_toList]

/-- Text of a tag that ends no tag and leaves no quote open. -/
def Passes (s : List Char) : Prop := ∀ rest inside after,
  splitTag none rest = .ok (inside, after) → splitTag none (s ++ rest) = .ok (s ++ inside, after)

theorem Passes.append {a b : List Char} (first : Passes a) (second : Passes b) :
    Passes (a ++ b) := by
  intro rest inside after split
  rw [List.append_assoc, List.append_assoc]
  exact first _ _ _ (second _ _ _ split)

theorem passes_nil : Passes [] := fun _ _ _ split => split

theorem passes_cons {c : Char} {s : List Char} (plain : c ≠ '>' ∧ c ≠ '"' ∧ c ≠ '\'')
    (passes : Passes s) : Passes (c :: s) := by
  intro rest inside after split
  have behind := passes _ _ _ split
  simp [splitTag, plain, behind, Except.map]

theorem splitTag_quoted {s rest inside after : List Char} (unquoted : '"' ∉ s)
    (split : splitTag none rest = .ok (inside, after)) :
    splitTag (some '"') (s ++ '"' :: rest) = .ok (s ++ '"' :: inside, after) := by
  induction s with
  | nil => simp [splitTag, split, Except.map]
  | cons c s ih =>
    obtain ⟨differs, unquoted⟩ := List.ne_and_not_mem_of_not_mem_cons unquoted
    simp [splitTag, Ne.symm differs, ih unquoted, Except.map]

theorem passes_quoted {s : List Char} (unquoted : '"' ∉ s) :
    Passes ('"' :: (s ++ ['"'])) := by
  intro rest inside after split
  have behind := splitTag_quoted unquoted split
  simp [splitTag, behind, Except.map]

theorem passes_name {name : List Char} (plain : ∀ c ∈ name, c.isAlphanum = true) :
    Passes name := by
  induction name with
  | nil => exact passes_nil
  | cons c name ih =>
    have here := plain c List.mem_cons_self
    refine passes_cons ⟨?_, ?_, ?_⟩ (ih fun d mem => plain d (List.mem_cons_of_mem _ mem)) <;>
      (rintro rfl; exact absurd here (by decide))

theorem passes_attributes {attributes : List (String × String)}
    (plain : ∀ a ∈ attributes, PlainName a.1) : Passes (writtenAttributes attributes) := by
  induction attributes with
  | nil => exact passes_nil
  | cons a rest ih =>
    have others := ih fun b mem => plain b (List.mem_cons_of_mem _ mem)
    have key := passes_name (plain a List.mem_cons_self).2
    have value := passes_quoted (quote_not_mem_writtenText a.2)
    have one : Passes (' ' :: (a.1.toList ++ '=' :: '"' :: (writtenText a.2 ++ ['"']))) :=
      passes_cons (by decide) (key.append (passes_cons (by decide) value))
    exact one.append others

theorem splitTag_of_passes {s : List Char} (passes : Passes s) (rest : List Char) :
    splitTag none (s ++ '>' :: rest) = .ok (s, rest) := by
  have ends : splitTag none ('>' :: rest) = .ok ([], rest) := rfl
  simpa using passes _ _ _ ends

theorem not_isSpace_of_isAlphanum {c : Char} (plain : c.isAlphanum = true) :
    (!isSpace c) = true := by
  have other : ∀ d, d.isAlphanum = false → c ≠ d := by
    rintro d differs rfl
    rw [plain] at differs
    contradiction
  simp [isSpace, other ' ' (by decide), other '\t' (by decide), other '\r' (by decide),
    other '\n' (by decide)]

section Tag
variable {name : String} {attributes : List (String × String)} (plain : PlainName name)
include plain

theorem exists_head_of_plainName :
    ∃ c rest, name.toList = c :: rest ∧ c.isAlphanum = true := by
  have some : name.toList ≠ [] := by simpa using plain.1
  obtain ⟨c, rest, characters⟩ := List.exists_cons_of_ne_nil some
  exact ⟨c, rest, characters, plain.2 c (characters ▸ List.mem_cons_self)⟩

theorem takeWhile_name : (name.toList ++ writtenAttributes attributes).takeWhile (!isSpace ·) =
    name.toList := by
  rw [List.takeWhile_append_of_pos fun c mem => not_isSpace_of_isAlphanum (plain.2 c mem)]
  cases attributes with
  | nil => simp [writtenAttributes]
  | cons a rest => simp [writtenAttributes, isSpace]

theorem dropWhile_name : (name.toList ++ writtenAttributes attributes).dropWhile (!isSpace ·) =
    writtenAttributes attributes := by
  rw [List.dropWhile_append_of_pos fun c mem => not_isSpace_of_isAlphanum (plain.2 c mem)]
  cases attributes with
  | nil => simp [writtenAttributes]
  | cons a rest => simp [writtenAttributes, isSpace]

theorem getLast?_inside : (name.toList ++ writtenAttributes attributes).getLast? ≠ some '/' := by
  intro slash
  have mem := List.mem_of_getLast? slash
  rcases List.eq_nil_or_concat attributes with rfl | ⟨init, a, rfl⟩
  · rw [writtenAttributes, List.flatMap_nil, List.append_nil] at mem
    exact absurd (plain.2 '/' mem) (by decide)
  · have ends : name.toList ++ writtenAttributes (init.concat a) =
        (name.toList ++ writtenAttributes init ++
          ' ' :: (a.1.toList ++ '=' :: '"' :: writtenText a.2)) ++ ['"'] := by
      simp [writtenAttributes]
    rw [ends, List.getLast?_concat] at slash
    simp at slash

theorem ofInside_opening : Markup.ofInside (name.toList ++ writtenAttributes attributes) =
    .opening name (writtenAttributes attributes) := by
  rw [Markup.ofInside, if_neg (getLast?_inside plain), if_neg (getLast?_inside plain),
    takeWhile_name plain, dropWhile_name plain, String.ofList_toList]

theorem ofInside_whole :
    Markup.ofInside (name.toList ++ writtenAttributes attributes ++ ['/']) =
      .whole name (writtenAttributes attributes) := by
  rw [Markup.ofInside, if_pos List.getLast?_concat, if_pos List.getLast?_concat,
    List.dropLast_concat, takeWhile_name plain, dropWhile_name plain, String.ofList_toList]

theorem closingName_name : closingName name.toList = name := by
  obtain ⟨c, more, characters, alphanumeric⟩ := exists_head_of_plainName plain
  have visible : ∀ d ∈ name.toList, isSpace d = false := fun d mem => by
    simpa using not_isSpace_of_isAlphanum (plain.2 d mem)
  have notBlank : name.toList.all isSpace = false := by
    rw [characters, List.all_cons, visible c (characters ▸ List.mem_cons_self), Bool.false_and]
  have whole : name.toList.reverse.dropWhile isSpace = name.toList.reverse := by
    cases reversed : name.toList.reverse with
    | nil => rfl
    | cons d rest =>
      have mem : d ∈ name.toList := List.mem_reverse.mp (reversed ▸ List.mem_cons_self)
      rw [List.dropWhile_cons, visible d mem, if_neg Bool.false_ne_true]
  rw [closingName, notBlank, if_neg Bool.false_ne_true, whole, List.reverse_reverse,
    String.ofList_toList]

theorem readMarkup_name (rest : List Char) :
    readMarkup (name.toList ++ rest) =
      (splitTag none (name.toList ++ rest)).map fun p => (Markup.ofInside p.1, p.2) := by
  obtain ⟨c, more, characters, alphanumeric⟩ := exists_head_of_plainName plain
  rw [characters, List.cons_append]
  unfold readMarkup
  split
  · contradiction
  · rename_i same
    cases same
    exact absurd alphanumeric (by decide)
  · rename_i same
    cases same
    exact absurd alphanumeric (by decide)
  · rename_i same
    cases same
    exact absurd alphanumeric (by decide)
  · rfl

variable (keys : ∀ a ∈ attributes, PlainName a.1) (rest : List Char)
include keys

theorem readMarkup_openingTag :
    readMarkup (name.toList ++ (writtenAttributes attributes ++ '>' :: rest)) =
      .ok (.opening name (writtenAttributes attributes), rest) := by
  have passes := (passes_name plain.2).append (passes_attributes keys)
  rw [readMarkup_name plain, ← List.append_assoc, splitTag_of_passes passes, Except.map,
    ofInside_opening plain]

theorem readMarkup_wholeTag :
    readMarkup (name.toList ++ (writtenAttributes attributes ++ '/' :: '>' :: rest)) =
      .ok (.whole name (writtenAttributes attributes), rest) := by
  have slash : Passes ['/'] := passes_cons (by decide) passes_nil
  have passes := ((passes_name plain.2).append (passes_attributes keys)).append slash
  have shape : name.toList ++ (writtenAttributes attributes ++ '/' :: '>' :: rest) =
      name.toList ++ writtenAttributes attributes ++ ['/'] ++ '>' :: rest := by simp
  rw [readMarkup_name plain, shape, splitTag_of_passes passes, Except.map, ofInside_whole plain]

end Tag

section Events
variable {s rest text : List Char} {name : String} (within : List String)

theorem readEvents_opening (read : readMarkup s = .ok (.opening name text, rest)) :
    readEvents within ('<' :: s) =
      .cons (.opening name text) (readEvents (name :: within) rest) := by
  rw [readEvents]
  split <;> rename_i given <;> rw [read] at given <;> cases given
  rfl

theorem readEvents_whole (read : readMarkup s = .ok (.whole name text, rest)) :
    readEvents within ('<' :: s) = .cons (.whole name text) (readEvents within rest) := by
  rw [readEvents]
  split <;> rename_i given <;> rw [read] at given <;> cases given
  rfl

theorem readEvents_closing (read : readMarkup s = .ok (.closing name, rest)) :
    readEvents (name :: within) ('<' :: s) = .cons (.closing name) (readEvents within rest) := by
  rw [readEvents]
  split <;> rename_i given <;> rw [read] at given <;> cases given
  exact if_pos rfl

end Events

section Tags
variable {name : String} {attributes : List (String × String)} (plain : PlainName name)
  (within : List String) (rest : List Char)
include plain

theorem readEvents_openingTag (keys : ∀ a ∈ attributes, PlainName a.1) :
    readEvents within (openingTag name attributes ++ rest) =
      .cons (.opening name (writtenAttributes attributes)) (readEvents (name :: within) rest) := by
  have shape : openingTag name attributes ++ rest =
      '<' :: (name.toList ++ (writtenAttributes attributes ++ '>' :: rest)) := by
    simp [openingTag]
  rw [shape]
  exact readEvents_opening within (readMarkup_openingTag plain keys rest)

theorem readEvents_wholeTag (keys : ∀ a ∈ attributes, PlainName a.1) :
    readEvents within (wholeTag name attributes ++ rest) =
      .cons (.whole name (writtenAttributes attributes)) (readEvents within rest) := by
  have shape : wholeTag name attributes ++ rest =
      '<' :: (name.toList ++ (writtenAttributes attributes ++ '/' :: '>' :: rest)) := by
    simp [wholeTag]
  rw [shape]
  exact readEvents_whole within (readMarkup_wholeTag plain keys rest)

theorem readEvents_closingTag :
    readEvents (name :: within) (closingTag name ++ rest) =
      .cons (.closing name) (readEvents within rest) := by
  have shape : closingTag name ++ rest = '<' :: '/' :: (name.toList ++ '>' :: rest) := by
    simp [closingTag]
  have read : readMarkup ('/' :: (name.toList ++ '>' :: rest)) = .ok (.closing name, rest) := by
    rw [readMarkup, splitTag_of_passes (passes_name plain.2), Except.map, closingName_name plain]
  rw [shape]
  exact readEvents_closing within read

end Tags

def Gap (s : List Char) : Prop := ∀ c ∈ s, isSpace c = true

theorem gap_nil : Gap [] := by simp [Gap]

theorem readEvents_gap {gap : List Char} (isGap : Gap gap) (within : List String)
    (rest : List Char) : readEvents within (gap ++ rest) = readEvents within rest := by
  induction gap with
  | nil => rfl
  | cons c gap ih =>
    have here := isGap c List.mem_cons_self
    have notReference : c ≠ '&' := by
      rintro rfl
      exact absurd here (by decide)
    have notMarkup : c ≠ '<' := by
      rintro rfl
      exact absurd here (by decide)
    rw [List.cons_append, readEvents, ih fun d mem => isGap d (List.mem_cons_of_mem _ mem)]
    · exact notReference
    · exact notMarkup

inductive InOrder {α : Type} (Piece : α → List Char → Prop) : List α → List Char → Prop
  | nil {gap : List Char} (isGap : Gap gap) : InOrder Piece [] gap
  | cons {a : α} {pieces : List α} {gap s rest : List Char} (isGap : Gap gap) (here : Piece a s)
      (behind : InOrder Piece pieces rest) : InOrder Piece (a :: pieces) (gap ++ (s ++ rest))

/-- An element with attributes in some order and a text inside it. One tag is enough where there may
    be no text. -/
inductive Tagged (name : String) (attributes : List (String × String))
    (Inside : List Char → Prop) : List Char → Prop
  | around {given : List (String × String)} {text : List Char} (order : given.Perm attributes)
      (inside : Inside text) :
      Tagged name attributes Inside (openingTag name given ++ (text ++ closingTag name))
  | whole {given : List (String × String)} (order : given.Perm attributes) (inside : Inside []) :
      Tagged name attributes Inside (wholeTag name given)

theorem tagged_ne_nil {name : String} {attributes : List (String × String)}
    {Inside : List Char → Prop} {s : List Char} (tagged : Tagged name attributes Inside s) :
    s ≠ [] := by
  cases tagged <;> simp [openingTag, wholeTag]

theorem inOrder_nil {α : Type} {Piece : α → List Char → Prop} {pieces : List α}
    (nonempty : ∀ a s, Piece a s → s ≠ []) (written : InOrder Piece pieces []) : pieces = [] := by
  generalize same : ([] : List Char) = text at written
  cases written with
  | nil isGap => rfl
  | @cons a pieces gap s rest isGap here behind =>
    have none : s ++ rest = [] := (List.append_eq_nil_iff.mp same.symm).2
    exact absurd (List.append_eq_nil_iff.mp none).1 (nonempty a s here)

theorem inOrder_flatMap {α : Type} {Piece : α → List Char → Prop} {pieces : List α}
    {written : α → List Char} (each : ∀ a ∈ pieces, Piece a (written a)) :
    InOrder Piece pieces (pieces.flatMap written) := by
  induction pieces with
  | nil => exact .nil gap_nil
  | cons a pieces ih =>
    have behind := ih fun b mem => each b (List.mem_cons_of_mem _ mem)
    exact .cons gap_nil (each a List.mem_cons_self) behind

end DataLayer.Xml
