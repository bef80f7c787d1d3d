import DataLayer.Proofs.Xml.Locality

/- Content of an element as it is written: characters, references, comments, instructions and
   character data, none of which leaves an event, and elements that are closed by a tag of their
   name. -/
namespace DataLayer.Xml

inductive Silent : List Char → Prop
  | character {c : Char} (notReference : c ≠ '&') (notMarkup : c ≠ '<') : Silent [c]
  | reference {name : List Char} (plain : ∀ c ∈ name, c ≠ ';' ∧ c ≠ '&' ∧ c ≠ '<') :
      Silent ('&' :: (name ++ [';']))
  | comment {body : List Char} (free : ¬ "-->".toList <:+: body) :
      Silent ("<!--".toList ++ (body ++ "-->".toList))
  | instruction {body : List Char} (begins : body.head? ≠ some '>')
      (free : ¬ "?>".toList <:+: body) : Silent ("<?".toList ++ (body ++ "?>".toList))
  | characterData {body : List Char} (free : ¬ "]]>".toList <:+: body) :
      Silent ("<![CDATA[".toList ++ (body ++ "]]>".toList))
  | append {a b : List Char} (first : Silent a) (second : Silent b) : Silent (a ++ b)

inductive Content : List Char → Prop
  | nil : Content []
  | silent {s rest : List Char} (here : Silent s) (behind : Content rest) : Content (s ++ rest)
  | whole {name : String} {attributes tag rest : List Char}
      (isTag : IsTag (.whole name attributes) tag) (behind : Content rest) : Content (tag ++ rest)
  | element {name : String} {attributes start inside stop rest : List Char}
      (opens : IsTag (.opening name attributes) start) (content : Content inside)
      (closes : IsTag (.closing name) stop) (behind : Content rest) :
      Content (start ++ (inside ++ (stop ++ rest)))

/-- A text that is free of a mark does not begin with it either where it is followed by the mark, if
    the last character of the mark stands only there. -/
theorem not_prefix_of_not_infix {mark body : List Char} {last c : Char} (once : last ∉ mark)
    (free : ¬ (mark ++ [last]) <:+: c :: body) (t : List Char) :
    ¬ (mark ++ [last]) <+: (c :: body) ++ (mark ++ last :: t) := by
  intro here
  rcases List.prefix_or_prefix_of_prefix here (List.prefix_append (c :: body) _) with
    inside | ⟨left, around⟩
  · exact free inside.isInfix
  · rcases List.eq_nil_or_concat left with rfl | ⟨init, d, rfl⟩
    · rw [List.append_nil] at around
      exact free (around ▸ List.infix_rfl)
    · rw [List.concat_eq_append, ← List.append_assoc] at around
      obtain ⟨split, rfl⟩ := List.append_singleton_inj.mp around
      have begins : init ++ [d] <+: mark ++ d :: t := by
        rw [← split, List.append_assoc] at here
        exact split ▸ (List.prefix_append_right_inj _).mp here
      have fits : init ++ [d] <+: mark := by
        refine List.prefix_of_prefix_length_le begins (List.prefix_append mark _) ?_
        rw [← split]
        simp
      exact once (fits.mem (by simp))

theorem after?_of_free {mark body : List Char} {last : Char} (once : last ∉ mark)
    (free : ¬ (mark ++ [last]) <:+: body) (t : List Char) :
    after? (mark ++ [last]) (body ++ (mark ++ last :: t)) = some t := by
  induction body with
  | nil =>
    have shape : mark ++ last :: t = (mark ++ [last]) ++ t := by simp
    rw [List.nil_append, shape]
    exact after?_mark (by simp) t
  | cons c body ih =>
    have notHere : ¬ (mark ++ [last]).isPrefixOf (c :: (body ++ (mark ++ last :: t))) = true :=
      fun here => not_prefix_of_not_infix once free t (List.isPrefixOf_iff_prefix.mp here)
    rw [List.cons_append, after?, if_neg notHere]
    exact ih fun inside => free (inside.trans (List.suffix_cons c body).isInfix)

theorem after?_append {m : Char} {mark pre : List Char} (absent : m ∉ pre) (s : List Char) :
    after? (m :: mark) (pre ++ s) = after? (m :: mark) s := by
  induction pre with
  | nil => rfl
  | cons c pre ih =>
    obtain ⟨differs, absent⟩ := List.ne_and_not_mem_of_not_mem_cons absent
    have notHere : ¬ (m :: mark).isPrefixOf (c :: (pre ++ s)) = true := by
      intro here
      exact differs (List.cons_prefix_cons.mp (List.isPrefixOf_iff_prefix.mp here)).1
    rw [List.cons_append, after?, if_neg notHere]
    exact ih absent

theorem afterReference?_of_plain {name : List Char}
    (plain : ∀ c ∈ name, c ≠ ';' ∧ c ≠ '&' ∧ c ≠ '<') (rest : List Char) :
    afterReference? (name ++ ';' :: rest) = some rest := by
  induction name with
  | nil => rfl
  | cons c name ih =>
    obtain ⟨notEnd, notReference, notMarkup⟩ := plain c List.mem_cons_self
    rw [List.cons_append, afterReference?, if_neg notEnd,
      if_neg (not_or.mpr ⟨notReference, notMarkup⟩)]
    exact ih fun d mem => plain d (List.mem_cons_of_mem c mem)

theorem readMarkup_comment {body : List Char} (free : ¬ "-->".toList <:+: body)
    (rest : List Char) :
    readMarkup ("!--".toList ++ (body ++ ("-->".toList ++ rest))) = .ok (.silent, rest) := by
  have found : after? "-->".toList (body ++ ("-->".toList ++ rest)) = some rest :=
    @after?_of_free "--".toList body '>' (by decide) free rest
  change readDeclaration ('-' :: '-' :: (body ++ ("-->".toList ++ rest))) = _
  simp only [readDeclaration, found]

theorem readMarkup_instruction {body : List Char} (begins : body.head? ≠ some '>')
    (free : ¬ "?>".toList <:+: body) (rest : List Char) :
    readMarkup ('?' :: (body ++ ("?>".toList ++ rest))) = .ok (.silent, rest) := by
  have found : after? "?>".toList (body ++ ("?>".toList ++ rest)) = some rest :=
    @after?_of_free "?".toList body '>' (by decide) free rest
  change readInstruction (body ++ ("?>".toList ++ rest)) = _
  unfold readInstruction
  split
  · rename_i given
    cases body with
    | nil => cases given
    | cons c body =>
      cases given
      exact absurd rfl begins
  · rw [found]

theorem readMarkup_characterData {body : List Char} (free : ¬ "]]>".toList <:+: body)
    (rest : List Char) :
    readMarkup ("![CDATA[".toList ++ (body ++ ("]]>".toList ++ rest))) = .ok (.silent, rest) := by
  have found : after? "]]>".toList (body ++ ("]]>".toList ++ rest)) = some rest :=
    @after?_of_free "]]".toList body '>' (by decide) free rest
  -- The bracket that the mark begins with does not stand in the opening.
  have skipped := @after?_append ']' "]>".toList "[CDATA[".toList (by decide)
    (body ++ ("]]>".toList ++ rest))
  have begins : "[CDATA[".toList.isPrefixOf
      ("[CDATA[".toList ++ (body ++ ("]]>".toList ++ rest))) = true :=
    List.isPrefixOf_iff_prefix.mpr (List.prefix_append _ _)
  have closed : after? "]]>".toList ("[CDATA[".toList ++ (body ++ ("]]>".toList ++ rest))) =
      some rest := skipped.trans found
  change readDeclaration ('[' :: ("CDATA[".toList ++ (body ++ ("]]>".toList ++ rest)))) = _
  change "[CDATA[".toList.isPrefixOf ('[' :: ("CDATA[".toList ++ _)) = true at begins
  change after? _ ('[' :: ("CDATA[".toList ++ _)) = _ at closed
  simp only [readDeclaration, begins, closed]

theorem Silent.readEvents {s : List Char} (silent : Silent s) (within : List String)
    (rest : List Char) : readEvents within (s ++ rest) = readEvents within rest := by
  induction silent generalizing rest with
  | character notReference notMarkup => exact readEvents_character within notReference notMarkup
  | reference plain =>
    rw [List.cons_append, List.append_assoc]
    exact readEvents_reference within (afterReference?_of_plain plain rest)
  | comment free =>
    rw [List.append_assoc, List.append_assoc]
    exact readEvents_silent within (readMarkup_comment free rest)
  | instruction begins free =>
    rw [List.append_assoc, List.append_assoc]
    exact readEvents_silent within (readMarkup_instruction begins free rest)
  | characterData free =>
    rw [List.append_assoc, List.append_assoc]
    exact readEvents_silent within (readMarkup_characterData free rest)
  | append first second readFirst readSecond =>
    rw [List.append_assoc, readFirst, readSecond]

theorem closed_element (name : String) (attributes : List Char) {events : List Event}
    (inside : Closed events) :
    Closed (.opening name attributes :: (events ++ [.closing name])) := by
  have around := leftOpen?_of_closed inside [name]
  have ends : leftOpen? [name] [.closing name] = some [] := by simp [leftOpen?]
  rw [Closed, leftOpen?, leftOpen?_append, around]
  exact ends

section Tags
variable {name : String} {attributes tag : List Char} (within : List String) (rest : List Char)

theorem IsTag.readEvents_whole (isTag : IsTag (.whole name attributes) tag) :
    readEvents within (tag ++ rest) = .cons (.whole name attributes) (readEvents within rest) := by
  obtain ⟨inside, same, read⟩ := isTag.read rest
  rw [same]
  exact Xml.readEvents_whole within read

theorem IsTag.readEvents_opening (isTag : IsTag (.opening name attributes) tag) :
    readEvents within (tag ++ rest) =
      .cons (.opening name attributes) (readEvents (name :: within) rest) := by
  obtain ⟨inside, same, read⟩ := isTag.read rest
  rw [same]
  exact Xml.readEvents_opening within read

theorem IsTag.readEvents_closing (isTag : IsTag (.closing name) tag) :
    readEvents (name :: within) (tag ++ rest) =
      .cons (.closing name) (readEvents within rest) := by
  obtain ⟨inside, same, read⟩ := isTag.read rest
  rw [same]
  exact Xml.readEvents_closing within read

end Tags

/-- Content is read as events that are closed among themselves, wherever it stands. -/
theorem Content.readEvents {s : List Char} (content : Content s) : ∃ events, Closed events ∧
    ∀ within rest, readEvents within (s ++ rest) = (readEvents within rest).prepend events := by
  induction content with
  | nil => exact ⟨[], rfl, fun _ _ => rfl⟩
  | silent here behind ih =>
    obtain ⟨events, closed, reads⟩ := ih
    refine ⟨events, closed, fun within rest => ?_⟩
    rw [List.append_assoc, here.readEvents, reads]
  | @whole name attributes tag rest isTag behind ih =>
    obtain ⟨events, closed, reads⟩ := ih
    refine ⟨.whole name attributes :: events, closed, fun within t => ?_⟩
    rw [List.append_assoc, isTag.readEvents_whole, reads]
    rfl
  | @element name attributes start inside stop rest opens _ closes _ readInside readRest =>
    obtain ⟨events, closed, reads⟩ := readInside
    obtain ⟨more, moreClosed, readsMore⟩ := readRest
    refine ⟨.opening name attributes :: (events ++ [.closing name]) ++ more,
      (closed_element name attributes closed).append moreClosed, fun within t => ?_⟩
    rw [List.append_assoc, List.append_assoc, List.append_assoc, opens.readEvents_opening, reads,
      closes.readEvents_closing, readsMore]
    simp [Reading.prepend, Reading.cons]

section Written
variable {name : String} {attributes : List (String × String)} (plain : PlainName name)
include plain

theorem isTag_wholeTag (keys : ∀ a ∈ attributes, PlainName a.1) :
    IsTag (.whole name (writtenAttributes attributes)) (wholeTag name attributes) := by
  refine ⟨_, rfl, ?_⟩
  rw [List.append_assoc]
  exact readMarkup_wholeTag plain keys []

theorem isTag_openingTag (keys : ∀ a ∈ attributes, PlainName a.1) :
    IsTag (.opening name (writtenAttributes attributes)) (openingTag name attributes) := by
  refine ⟨_, rfl, ?_⟩
  rw [List.append_assoc]
  exact readMarkup_openingTag plain keys []

theorem isTag_closingTag : IsTag (.closing name) (closingTag name) := by
  refine ⟨_, rfl, ?_⟩
  rw [readMarkup, splitTag_of_passes (passes_name plain.2), Except.map, closingName_name plain]
  rfl

end Written

end DataLayer.Xml
