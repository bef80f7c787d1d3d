import Mathlib.Data.List.DropRight
import DataLayer.Proofs.Schema.Spelling

/- Type expressions taken apart from the outside in. The last mark that is left belongs to the
   outermost type, its brackets are the outermost ones, and what stands between these is an
   expression again. That finds the expression which the reader finds from the inside out: of all
   ways to part a text into marks and brackets at most one comes out. -/
namespace DataLayer.Schema
open Text

namespace TypeExpr

def stripLast? (c : Char) (s : List Char) : Option (List Char) :=
  if s.getLast? = some c then some s.dropLast else none

def trimEnd (s : List Char) : List Char := s.rdropWhile isBlank

/-- The outermost type without its mark and the white space around it, and if it may be null. -/
def unmark (s : List Char) : List Char × Bool :=
  match stripLast? '!' (trimEnd (trimStart s)) with
  | some body => (trimEnd body, false)
  | none => (trimEnd (trimStart s), true)

theorem stripLast?_eq_some {c : Char} {s body : List Char} :
    stripLast? c s = some body ↔ s = body ++ [c] := by
  unfold stripLast?
  constructor
  · intro stripped
    split at stripped
    · rename_i last
      cases stripped
      exact (List.dropLast_append_getLast? c last).symm
    · contradiction
  · rintro rfl
    simp

theorem stripLast?_eq_none {c d : Char} (other : d ≠ c) (s : List Char) :
    stripLast? c (s ++ [d]) = none := by
  simp [stripLast?, other]

theorem trimEnd_append {blank : List Char} (isBlank : Blank blank) (s : List Char) :
    trimEnd (s ++ blank) = trimEnd s := by
  have reversed : ∀ c ∈ blank.reverse, Text.isBlank c = true := fun c mem =>
    isBlank c (List.mem_reverse.mp mem)
  rw [trimEnd, List.rdropWhile, List.reverse_append, List.dropWhile_append_of_pos reversed]
  rfl

theorem trimEnd_concat {c : Char} (solid : isBlank c = false) (s : List Char) :
    trimEnd (s ++ [c]) = s ++ [c] :=
  List.rdropWhile_concat_neg _ s c (by simp [solid])

theorem exists_blank_end (s : List Char) : ∃ blank, Blank blank ∧ s = trimEnd s ++ blank :=
  ⟨s.rtakeWhile isBlank, fun _ => List.mem_rtakeWhile_imp,
    List.rdropWhile_append_rtakeWhile.symm⟩

structure Bare (s : List Char) : Prop where
  first : ∃ c rest, s = c :: rest ∧ isBlank c = false
  last : ∃ front c, s = front ++ [c] ∧ isBlank c = false ∧ c ≠ '!'

theorem bare_name {name : List Char} (nonempty : name ≠ [])
    (ident : ∀ c ∈ name, Name.isIdentPart c = true) : Bare name where
  first := by
    obtain ⟨c, rest, rfl⟩ := List.exists_cons_of_ne_nil nonempty
    exact ⟨c, rest, rfl, isBlank_of_isIdentPart (ident c List.mem_cons_self)⟩
  last := by
    obtain ⟨front, c, rfl⟩ := List.eq_nil_or_concat name |>.resolve_left nonempty
    have part := ident c (by simp)
    refine ⟨front, c, by simp, isBlank_of_isIdentPart part, ?_⟩
    rintro rfl
    exact absurd part (by decide)

theorem bare_bracketed (inside : List Char) : Bare ('[' :: (inside ++ [']'])) where
  first := ⟨'[', inside ++ [']'], rfl, by decide⟩
  last := ⟨'[' :: inside, ']', rfl, by decide, by decide⟩

theorem unmark_of_marks {before body after : List Char} {nullable : Bool} (start : Blank before)
    (bare : Bare body) (marks : Marks nullable after) :
    unmark (before ++ (body ++ after)) = (body, nullable) := by
  obtain ⟨front, d, ends, solid, noMark⟩ := bare.last
  have started : trimStart (before ++ (body ++ after)) = body ++ after := by
    obtain ⟨c, rest, begins, solid⟩ := bare.first
    rw [trimStart_append start, begins]
    exact List.dropWhile_cons_of_neg (by simp [solid])
  have ended : trimEnd body = body := by rw [ends, trimEnd_concat solid]
  cases nullable with
  | true =>
    have whole : trimEnd (body ++ after) = body := (trimEnd_append marks body).trans ended
    have unmarked : stripLast? '!' body = none := ends ▸ stripLast?_eq_none noMark front
    rw [unmark, started, whole, unmarked]
  | false =>
    obtain ⟨gap, behind, first, second, rfl⟩ := marks
    have whole : trimEnd (body ++ (gap ++ '!' :: behind)) = (body ++ gap) ++ ['!'] := by
      have regrouped : body ++ (gap ++ '!' :: behind) = ((body ++ gap) ++ ['!']) ++ behind := by
        simp
      rw [regrouped, trimEnd_append second, trimEnd_concat (by decide)]
    rw [unmark, started, whole, stripLast?_eq_some.mpr rfl]
    simp only [trimEnd_append first, ended]

theorem exists_marks_around (s : List Char) : ∃ before after, Blank before ∧
    Marks (unmark s).2 after ∧ s = before ++ ((unmark s).1 ++ after) := by
  obtain ⟨before, start, parted⟩ := exists_blank s
  obtain ⟨behind, second, whole⟩ := exists_blank_end (trimStart s)
  unfold unmark
  split
  · rename_i body stripped
    obtain ⟨gap, first, trimmed⟩ := exists_blank_end body
    have marked := stripLast?_eq_some.mp stripped
    refine ⟨before, gap ++ '!' :: behind, start, ⟨gap, behind, first, second, rfl⟩, ?_⟩
    calc s = before ++ (body ++ ['!'] ++ behind) := by rw [← marked, ← whole, ← parted]
      _ = before ++ (trimEnd body ++ gap ++ ['!'] ++ behind) := by rw [← trimmed]
      _ = before ++ (trimEnd body ++ (gap ++ '!' :: behind)) := by simp
  · exact ⟨before, behind, start, second, by rw [← whole, ← parted]⟩

/-- What stands within the marks of a type: a name, or an expression in brackets. -/
inductive Within (nullable : Bool) : TypeExpr → List Char → Prop
  | named {name : List Char} (nonempty : name ≠ [])
      (ident : ∀ c ∈ name, Name.isIdentPart c = true) :
      Within nullable (.named (String.ofList name) nullable) name
  | list {inside : List Char} {item : TypeExpr} (inner : Spells item inside) :
      Within nullable (.list item nullable) ('[' :: (inside ++ [']']))

theorem Within.bare {nullable : Bool} {t : TypeExpr} {body : List Char}
    (within : Within nullable t body) : Bare body := by
  cases within with
  | named nonempty ident => exact bare_name nonempty ident
  | list _ => exact bare_bracketed _

theorem Within.spells {nullable : Bool} {t : TypeExpr} {before body after : List Char}
    (within : Within nullable t body) (start : Blank before) (marks : Marks nullable after) :
    Spells t (before ++ (body ++ after)) := by
  cases within with
  | named nonempty ident => exact .named start nonempty ident marks
  | list inner =>
    have around := Spells.list start inner marks
    simpa using around

theorem exists_within_of_spells {t : TypeExpr} {s : List Char} (spells : Spells t s) :
    ∃ before body after nullable, Blank before ∧ Within nullable t body ∧ Marks nullable after ∧
      s = before ++ (body ++ after) := by
  cases spells with
  | named start nonempty ident marks =>
    exact ⟨_, _, _, _, start, .named nonempty ident, marks, rfl⟩
  | list start inner marks =>
    exact ⟨_, _, _, _, start, .list inner, marks, by simp⟩

/-- Whatever way a text is spelt in, its outermost type is the one that unmarking leaves. -/
theorem spells_iff_within {t : TypeExpr} {s : List Char} :
    Spells t s ↔ Within (unmark s).2 t (unmark s).1 := by
  constructor
  · intro spells
    obtain ⟨before, body, after, nullable, start, within, marks, rfl⟩ :=
      exists_within_of_spells spells
    rw [unmark_of_marks start within.bare marks]
    exact within
  · intro within
    obtain ⟨before, after, start, marks, parted⟩ := exists_marks_around s
    rw [parted]
    exact within.spells start marks

theorem length_inside {s inner inside : List Char} (opened : (unmark s).1 = '[' :: inner)
    (closed : stripLast? ']' inner = some inside) : inside.length < s.length := by
  obtain ⟨before, after, _, _, parted⟩ := exists_marks_around s
  rw [parted, opened, stripLast?_eq_some.mp closed]
  simp only [List.length_append, List.length_cons]
  omega

def peel? (s : List Char) : Option TypeExpr :=
  match _opened : (unmark s).1 with
  | '[' :: inner =>
      match _closed : stripLast? ']' inner with
      | some inside => (peel? inside).map fun item => .list item (unmark s).2
      | none => none
  | name =>
      if name ≠ [] ∧ name.all Name.isIdentPart then
        some (.named (String.ofList name) (unmark s).2)
      else none
termination_by s.length
decreasing_by exact length_inside _opened _closed

theorem within_bracket {nullable : Bool} {t : TypeExpr} {inner : List Char} :
    Within nullable t ('[' :: inner) ↔
      ∃ inside item, inner = inside ++ [']'] ∧ Spells item inside ∧ t = .list item nullable := by
  constructor
  · intro within
    generalize whole : '[' :: inner = body at within
    cases within with
    | named _ ident => exact absurd (ident '[' (by rw [← whole]; simp)) (by decide)
    | list inner => exact ⟨_, _, by simpa using whole, inner, rfl⟩
  · rintro ⟨inside, item, rfl, inner, rfl⟩
    exact .list inner

theorem within_name {nullable : Bool} {t : TypeExpr} {name : List Char}
    (other : ∀ inner, name ≠ '[' :: inner) :
    Within nullable t name ↔
      (name ≠ [] ∧ name.all Name.isIdentPart) ∧ t = .named (String.ofList name) nullable := by
  constructor
  · intro within
    cases within with
    | named nonempty ident => exact ⟨⟨nonempty, List.all_eq_true.mpr ident⟩, rfl⟩
    | list _ => exact absurd rfl (other _)
  · rintro ⟨⟨nonempty, ident⟩, rfl⟩
    exact .named nonempty (List.all_eq_true.mp ident)

theorem peel?_eq_some_iff {s : List Char} {t : TypeExpr} : peel? s = some t ↔ Spells t s := by
  rw [spells_iff_within]
  fun_induction peel? s generalizing t with
  | case1 s inner opened inside closed ih =>
    rw [opened, within_bracket, stripLast?_eq_some.mp closed, Option.map_eq_some_iff]
    constructor
    · rintro ⟨item, read, rfl⟩
      exact ⟨inside, item, rfl, spells_iff_within.mpr (ih.mp read), rfl⟩
    · rintro ⟨same, item, ends, spells, rfl⟩
      obtain rfl : inside = same := List.append_cancel_right ends
      exact ⟨item, ih.mpr (spells_iff_within.mp spells), rfl⟩
  | case2 s inner opened closed =>
    rw [opened, within_bracket]
    constructor
    · intro read
      contradiction
    · rintro ⟨inside, item, rfl, _⟩
      rw [stripLast?_eq_some.mpr rfl] at closed
      contradiction
  | case3 s other named => rw [within_name other, Option.some_inj, eq_comm, and_iff_right named]
  | case4 s other unnamed => simp only [within_name other, unnamed, false_and, reduceCtorEq]

theorem valid_of_spells {t : TypeExpr} {s : List Char} (spells : Spells t s) : t.Valid := by
  induction spells with
  | named _ nonempty ident _ => exact ⟨by simpa using nonempty, by simpa using ident⟩
  | list _ _ _ ih => exact ih

theorem Spells.unique {t u : TypeExpr} {text : String} (spells : Spells t text.toList)
    (again : Spells u text.toList) : u = t := by
  have same : some u = some t := (ofText?_of_spells again).symm.trans (ofText?_of_spells spells)
  exact Option.some_inj.mp same

/-- A text is read as an expression exactly if it spells it, and then it spells no other. The
    canonical spelling of an expression is read back exactly if the names in it are names. Taking a
    text apart from the outside in gives the same as reading it, also where it spells nothing. -/
theorem reading_exact (t : TypeExpr) (text : String) :
    (ofText? text = some t ↔ Spells t text.toList) ∧
    (Spells t text.toList ↔ ∀ u, Spells u text.toList ↔ u = t) ∧
    (ofText? t.spelling = some t ↔ t.Valid) ∧
    ofText? text = peel? text.toList := by
  refine ⟨ofText?_eq_some_iff, ?_, ⟨fun read => ?_, fun valid => ?_⟩, ?_⟩
  · constructor
    · intro spells u
      exact ⟨spells.unique, fun same => same ▸ spells⟩
    · intro only
      exact (only t).mpr rfl
  · exact valid_of_spells (spells_of_ofText? read)
  · exact ofText?_of_spells (spells_spelling valid)
  · exact Option.ext fun u => ofText?_eq_some_iff.trans peel?_eq_some_iff.symm

example : ofText? "[ [\tInt ! ]!]" =
    some (.list (.list (.named "Int" false) false) true) := by decide

end TypeExpr

end DataLayer.Schema
