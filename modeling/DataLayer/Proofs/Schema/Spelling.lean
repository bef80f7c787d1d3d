import DataLayer.Schema.TypeExpr
import DataLayer.Proofs.Identifiers
import DataLayer.Proofs.Outcome

/- How type expressions are spelt. A type is a name or a bracketed type with white space around
   every part and an exclamation mark behind it unless it may be null, and a text is read as the one
   expression that it spells. -/
namespace DataLayer.Schema
open Text

def Blank (s : List Char) : Prop := ∀ c ∈ s, isBlank c = true

theorem blank_nil : Blank [] := by simp [Blank]

/-- What stands behind a type: white space, in which a type that may not be null has its mark. -/
def Marks (nullable : Bool) (s : List Char) : Prop :=
  if nullable then Blank s else ∃ before after, Blank before ∧ Blank after ∧
    s = before ++ '!' :: after

namespace TypeExpr

inductive Spells : TypeExpr → List Char → Prop
  | named {before name after : List Char} {nullable : Bool} (start : Blank before)
      (nonempty : name ≠ []) (ident : ∀ c ∈ name, Name.isIdentPart c = true)
      (marks : Marks nullable after) :
      Spells (.named (String.ofList name) nullable) (before ++ (name ++ after))
  | list {before inside after : List Char} {item : TypeExpr} {nullable : Bool}
      (start : Blank before) (inner : Spells item inside) (marks : Marks nullable after) :
      Spells (.list item nullable) (before ++ '[' :: (inside ++ ']' :: after))

/-- The text behind a type in an expression: nothing, or the end of the list around it. -/
def Stops (rest : List Char) : Prop := rest = [] ∨ ∃ more, rest = ']' :: more

theorem isBlank_eq_false {c : Char} (above : 0x20 < c.toNat) (below : c.toNat < 0x85) :
    isBlank c = false := by
  rw [Bool.eq_false_iff]
  intro held
  obtain ⟨s, mem, holds⟩ := exists_of_spansHold held
  simp only [Span.holds, Bool.and_eq_true, decide_eq_true_eq] at holds
  simp only [blankSpans, List.mem_cons, List.not_mem_nil, or_false] at mem
  rcases mem with rfl | rfl | rfl | rfl | rfl | rfl | rfl | rfl | rfl | rfl <;>
    (simp only at holds; omega)

theorem isBlank_of_isIdentPart {c : Char} (part : Name.isIdentPart c = true) :
    isBlank c = false := by
  have bounds := Name.bounds_of_isIdentPart part
  exact isBlank_eq_false (by omega) (by omega)

theorem trimStart_append {blank : List Char} (isBlank : Blank blank) (rest : List Char) :
    trimStart (blank ++ rest) = trimStart rest :=
  List.dropWhile_append_of_pos isBlank

theorem trimStart_of_stops {rest : List Char} (stops : Stops rest) : trimStart rest = rest := by
  rcases stops with rfl | ⟨more, rfl⟩
  · rfl
  · exact List.dropWhile_cons_of_neg (by decide)

theorem readMark_of_marks {nullable : Bool} {after rest : List Char} (marks : Marks nullable after)
    (stops : Stops rest) : readMark (after ++ rest) = (nullable, rest) := by
  have trimmed := trimStart_of_stops stops
  cases nullable with
  | true =>
    rw [readMark, trimStart_append marks, trimmed]
    rcases stops with rfl | ⟨more, rfl⟩ <;> rfl
  | false =>
    obtain ⟨before, behind, first, second, rfl⟩ := marks
    have mark : trimStart ('!' :: (behind ++ rest)) = '!' :: (behind ++ rest) :=
      List.dropWhile_cons_of_neg (by decide)
    rw [readMark, List.append_assoc, trimStart_append first, List.cons_append, mark]
    simp only [trimStart_append second, trimmed]

theorem openings_append {blank : List Char} (isBlank : Blank blank) (rest : List Char) :
    openings (blank ++ rest) = openings rest := by
  induction blank with
  | nil => rfl
  | cons c blank ih =>
    have here := isBlank c List.mem_cons_self
    have notBracket : c ≠ '[' := by
      rintro rfl
      exact absurd here (by decide)
    have behind := ih fun d mem => isBlank d (List.mem_cons_of_mem _ mem)
    rw [List.cons_append, openings, if_pos here, behind]
    exact notBracket

/-- Reads on in an expression of which some brackets are open already. -/
def readFrom? (depth : Nat) (s : List Char) : Option TypeExpr :=
  let name := (openings s).2.takeWhile Name.isIdentPart
  if name.isEmpty then none
  else
    let (nullable, rest) := readMark ((openings s).2.dropWhile Name.isIdentPart)
    close? (.named (String.ofList name) nullable) (depth + (openings s).1) rest

theorem readFrom?_zero (s : List Char) : readFrom? 0 s = read? s := by
  simp only [readFrom?, read?, Nat.zero_add]

theorem openings_of_isIdentPart {c : Char} (part : Name.isIdentPart c = true)
    (rest : List Char) : openings (c :: rest) = (0, c :: rest) := by
  have notBracket : c ≠ '[' := by
    rintro rfl
    exact absurd part (by decide)
  rw [openings, isBlank_of_isIdentPart part, if_neg Bool.false_ne_true]
  exact notBracket

def Ends (s : List Char) : Prop := ∀ c, s.head? = some c → Name.isIdentPart c = false

theorem ends_append {blank rest : List Char} (isBlank : Blank blank) (ends : Ends rest) :
    Ends (blank ++ rest) := by
  intro c first
  cases blank with
  | nil => exact ends c first
  | cons d blank =>
    cases first
    rw [Bool.eq_false_iff]
    intro part
    exact absurd (isBlank c List.mem_cons_self) (by simp [isBlank_of_isIdentPart part])

theorem ends_cons {c : Char} (other : Name.isIdentPart c = false) (rest : List Char) :
    Ends (c :: rest) := by
  intro d first
  cases first
  exact other

theorem ends_of_marks {nullable : Bool} {after rest : List Char} (marks : Marks nullable after)
    (stops : Stops rest) : Ends (after ++ rest) := by
  cases nullable with
  | true =>
    refine ends_append marks ?_
    rcases stops with rfl | ⟨more, rfl⟩
    · intro c first
      contradiction
    · exact ends_cons (by decide) more
  | false =>
    obtain ⟨before, behind, first, _, rfl⟩ := marks
    rw [List.append_assoc]
    exact ends_append first (ends_cons (by decide) _)

theorem takeWhile_of_ends {name rest : List Char}
    (ident : ∀ c ∈ name, Name.isIdentPart c = true) (ends : Ends rest) :
    (name ++ rest).takeWhile Name.isIdentPart = name ∧
      (name ++ rest).dropWhile Name.isIdentPart = rest := by
  rw [List.takeWhile_append_of_pos ident, List.dropWhile_append_of_pos ident]
  cases rest with
  | nil => simp
  | cons c rest => simp [ends c rfl]

theorem readFrom?_of_spells {t : TypeExpr} {s rest : List Char} (spells : Spells t s)
    (stops : Stops rest) (depth : Nat) : readFrom? depth (s ++ rest) = close? t depth rest := by
  induction spells generalizing rest depth with
  | @named before name after nullable start nonempty ident marks =>
    obtain ⟨c, more, characters⟩ := List.exists_cons_of_ne_nil nonempty
    have first : openings (name ++ (after ++ rest)) = (0, name ++ (after ++ rest)) := by
      rw [characters]
      exact openings_of_isIdentPart (ident c (characters ▸ List.mem_cons_self)) _
    obtain ⟨taken, dropped⟩ := takeWhile_of_ends ident (ends_of_marks marks stops)
    have some : name.isEmpty = false := by simpa using nonempty
    rw [List.append_assoc, List.append_assoc, readFrom?, openings_append start, first]
    simp only [taken, dropped, some, readMark_of_marks marks stops, Nat.add_zero,
      Bool.false_eq_true, if_false]
  | @list before inside after item nullable start inner marks ih =>
    have closes : Stops (']' :: (after ++ rest)) := .inr ⟨_, rfl⟩
    have opened : openings ((before ++ '[' :: (inside ++ ']' :: after)) ++ rest) =
        ((openings (inside ++ ']' :: (after ++ rest))).1 + 1,
          (openings (inside ++ ']' :: (after ++ rest))).2) := by
      rw [List.append_assoc, openings_append start, List.cons_append, openings, List.append_assoc,
        List.cons_append]
    have deeper : readFrom? (depth + 1) (inside ++ ']' :: (after ++ rest)) =
        close? (.list item nullable) depth rest := by
      rw [ih closes (depth + 1), close?, readMark_of_marks marks stops]
    rw [← deeper, readFrom?, opened, readFrom?]
    simp only [Nat.add_assoc, Nat.add_comm 1]

theorem ofText?_of_spells {t : TypeExpr} {text : String} (spells : Spells t text.toList) :
    ofText? text = some t := by
  have read := readFrom?_of_spells spells (.inl rfl) 0
  rw [List.append_nil, readFrom?_zero] at read
  exact read

theorem Blank.append {a b : List Char} (first : Blank a) (second : Blank b) : Blank (a ++ b) := by
  intro c mem
  rcases List.mem_append.mp mem with mem | mem
  · exact first c mem
  · exact second c mem

theorem Spells.behind {t : TypeExpr} {blank s : List Char} (isBlank : Blank blank)
    (spells : Spells t s) : Spells t (blank ++ s) := by
  cases spells with
  | named start nonempty ident marks =>
    rw [← List.append_assoc]
    exact .named (Blank.append isBlank start) nonempty ident marks
  | list start inner marks =>
    rw [← List.append_assoc]
    exact .list (Blank.append isBlank start) inner marks

inductive Opens : Nat → List Char → Prop
  | none {blank : List Char} (isBlank : Blank blank) : Opens 0 blank
  | bracket {depth : Nat} {before blank : List Char} (opens : Opens depth before)
      (isBlank : Blank blank) : Opens (depth + 1) (before ++ '[' :: blank)

theorem Opens.cons {depth : Nat} {s : List Char} {c : Char} (isBlank : isBlank c = true)
    (opens : Opens depth s) : Opens depth (c :: s) := by
  induction opens with
  | none blank => exact .none (List.forall_mem_cons.mpr ⟨isBlank, blank⟩)
  | bracket _ blank ih => exact .bracket ih blank

theorem Opens.bracketed {depth : Nat} {s : List Char} (opens : Opens depth s) :
    Opens (depth + 1) ('[' :: s) := by
  induction opens with
  | none blank => exact .bracket (.none blank_nil) blank
  | bracket _ blank ih => exact .bracket ih blank

theorem opens_openings (s : List Char) :
    ∃ before, Opens (openings s).1 before ∧ s = before ++ (openings s).2 := by
  induction s with
  | nil => exact ⟨[], .none blank_nil, rfl⟩
  | cons c s ih =>
    obtain ⟨before, opens, parted⟩ := ih
    by_cases isBracket : c = '['
    · subst isBracket
      refine ⟨'[' :: before, opens.bracketed, ?_⟩
      rw [openings, List.cons_append, ← parted]
    · by_cases blank : isBlank c = true
      · rw [openings, if_pos blank]
        · exact ⟨c :: before, opens.cons blank, by rw [List.cons_append, ← parted]⟩
        · exact isBracket
      · rw [openings, if_neg blank]
        · exact ⟨[], .none blank_nil, rfl⟩
        · exact isBracket

theorem exists_blank (s : List Char) : ∃ blank, Blank blank ∧ s = blank ++ trimStart s :=
  ⟨s.takeWhile isBlank, List.all_eq_true.mp List.all_takeWhile,
    List.takeWhile_append_dropWhile.symm⟩

theorem exists_marks (s : List Char) :
    ∃ marks, Marks (readMark s).1 marks ∧ s = marks ++ (readMark s).2 := by
  obtain ⟨before, first, parted⟩ := exists_blank s
  unfold readMark
  split
  · rename_i rest trimmed
    obtain ⟨behind, second, again⟩ := exists_blank rest
    refine ⟨before ++ '!' :: behind, ⟨before, behind, first, second, rfl⟩, ?_⟩
    rw [parted, trimmed]
    simp [← again]
  · exact ⟨before, first, parted⟩

theorem spells_of_close? {depth : Nat} {t u : TypeExpr} {before s rest : List Char}
    (opens : Opens depth before) (spells : Spells t s) (closed : close? t depth rest = some u) :
    Spells u (before ++ (s ++ rest)) := by
  induction depth generalizing t before s rest with
  | zero =>
    cases opens with
    | none blank =>
      cases rest with
      | nil =>
        cases closed
        rw [List.append_nil]
        exact spells.behind blank
      | cons c rest => simp [close?] at closed
  | succ depth ih =>
    cases opens with
    | @bracket _ before blank opens isBlank =>
      unfold close? at closed
      split at closed
      · contradiction
      · rename_i inner rest found
        cases found
        obtain ⟨marks, isMarks, parted⟩ := exists_marks rest
        generalize readMark rest = marked at closed isMarks parted
        obtain ⟨nullable, behind⟩ := marked
        subst parted
        have around : Spells (.list t nullable) ([] ++ '[' :: ((blank ++ s) ++ ']' :: marks)) :=
          .list blank_nil (spells.behind isBlank) isMarks
        have whole := ih opens around closed
        simpa using whole
      · contradiction

theorem spells_of_ofText? {t : TypeExpr} {text : String} (read : ofText? text = some t) :
    Spells t text.toList := by
  obtain ⟨before, opens, parted⟩ := opens_openings text.toList
  unfold ofText? read? at read
  generalize openings text.toList = opened at read opens parted
  obtain ⟨depth, s⟩ := opened
  simp only at read opens parted
  split at read
  · contradiction
  · rename_i nonempty
    obtain ⟨marks, isMarks, behind⟩ := exists_marks (s.dropWhile Name.isIdentPart)
    have named : Spells (.named (String.ofList (s.takeWhile Name.isIdentPart))
        (readMark (s.dropWhile Name.isIdentPart)).1)
        ([] ++ (s.takeWhile Name.isIdentPart ++ marks)) :=
      .named blank_nil (by simpa using nonempty)
        (List.all_eq_true.mp List.all_takeWhile) isMarks
    have whole := spells_of_close? opens named read
    rw [parted]
    rw [List.nil_append, List.append_assoc, ← behind, List.takeWhile_append_dropWhile] at whole
    exact whole

theorem ofText?_eq_some_iff {t : TypeExpr} {text : String} :
    ofText? text = some t ↔ Spells t text.toList :=
  ⟨spells_of_ofText?, ofText?_of_spells⟩

def Valid : TypeExpr → Prop
  | .named name _ => name ≠ "" ∧ ∀ c ∈ name.toList, Name.isIdentPart c = true
  | .list item _ => item.Valid

instance decidableValid : (t : TypeExpr) → Decidable t.Valid
  | .named name _ =>
      decidable_of_iff (name ≠ "" ∧ name.toList.all Name.isIdentPart = true) (by simp [Valid])
  | .list item _ => decidableValid item

theorem marks_mark (nullable : Bool) : Marks nullable (if nullable then "" else "!").toList := by
  cases nullable with
  | true => exact blank_nil
  | false => exact ⟨[], [], blank_nil, blank_nil, rfl⟩

theorem spells_spelling {t : TypeExpr} (valid : t.Valid) : Spells t t.spelling.toList := by
  induction t with
  | named name nullable =>
    have written := Spells.named blank_nil (by simpa using valid.1) valid.2 (marks_mark nullable)
    rw [String.ofList_toList] at written
    simpa [spelling] using written
  | list item nullable ih =>
    have written := Spells.list blank_nil (ih valid) (marks_mark nullable)
    simpa [spelling] using written

end TypeExpr

end DataLayer.Schema
