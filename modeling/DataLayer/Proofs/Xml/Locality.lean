import DataLayer.Proofs.Xml.Nesting
import DataLayer.Proofs.Xml.Writing

/- What a reader of markup takes from a text does not depend on what stands behind it. A text that
   is read without fault is therefore read in the same way at the beginning of any other. -/
namespace DataLayer.Xml

theorem isPrefixOf_append {mark q : List Char} {c : Char} (inText : c ∈ q) (notInMark : c ∉ mark)
    (t : List Char) : mark.isPrefixOf (q ++ t) = mark.isPrefixOf q := by
  refine Bool.eq_iff_iff.mpr ?_
  rw [List.isPrefixOf_iff_prefix, List.isPrefixOf_iff_prefix]
  constructor
  · intro here
    rcases List.prefix_or_prefix_of_prefix here (List.prefix_append q t) with inside | around
    · exact inside
    · exact absurd (around.mem inText) notInMark
  · intro here
    exact here.trans (List.prefix_append q t)

theorem after?_mark {mark : List Char} (nonempty : mark ≠ []) (t : List Char) :
    after? mark (mark ++ t) = some t := by
  obtain ⟨m, more, rfl⟩ := List.exists_cons_of_ne_nil nonempty
  have here : (m :: more).isPrefixOf (m :: more ++ t) = true :=
    List.isPrefixOf_iff_prefix.mpr (List.prefix_append _ t)
  rw [List.cons_append] at here ⊢
  rw [after?, if_pos here, ← List.cons_append, List.drop_left]

theorem after?_local {mark s rest : List Char} (nonempty : mark ≠ [])
    (found : after? mark s = some rest) :
    ∃ q, s = q ++ rest ∧ mark <:+ q ∧ ∀ t, after? mark (q ++ t) = some t := by
  induction s with
  | nil => contradiction
  | cons c s ih =>
    rw [after?] at found
    split at found
    · rename_i here
      obtain ⟨behind, same⟩ := List.isPrefixOf_iff_prefix.mp here
      rw [← same, List.drop_left] at found
      cases found
      exact ⟨mark, same.symm, List.suffix_refl mark, after?_mark nonempty⟩
    · rename_i notHere
      obtain ⟨q, rfl, ends, takes⟩ := ih found
      refine ⟨c :: q, rfl, ends.trans (List.suffix_cons c q), fun t => ?_⟩
      -- The mark at the end of `q` makes it long enough for the mark that is looked for.
      have stillNot : ¬ mark.isPrefixOf (c :: (q ++ t)) = true := by
        intro here
        have fits : mark <+: c :: q :=
          List.prefix_of_prefix_length_le (List.isPrefixOf_iff_prefix.mp here)
            (List.prefix_append (c :: q) t) (Nat.le_trans ends.length_le (by simp))
        have here : mark <+: c :: (q ++ rest) := fits.trans (List.prefix_append (c :: q) rest)
        exact notHere (List.isPrefixOf_iff_prefix.mpr here)
      rw [List.cons_append, after?, if_neg stillNot, takes t]

theorem afterReference?_local {s rest : List Char} (ended : afterReference? s = some rest) :
    ∃ q, s = q ++ rest ∧ ∀ t, afterReference? (q ++ t) = some t := by
  induction s with
  | nil => contradiction
  | cons c s ih =>
    rw [afterReference?] at ended
    split at ended
    · rename_i semicolon
      cases ended
      exact ⟨[c], rfl, fun t => by simp [afterReference?, semicolon]⟩
    · split at ended
      · contradiction
      · rename_i notEnd notMarkup
        obtain ⟨q, rfl, takes⟩ := ih ended
        refine ⟨c :: q, rfl, fun t => ?_⟩
        rw [List.cons_append, afterReference?, if_neg notEnd, if_neg notMarkup, takes t]

theorem splitTag_local {quote : Option Char} {s inside rest : List Char}
    (split : splitTag quote s = .ok (inside, rest)) :
    s = inside ++ '>' :: rest ∧ ∀ t, splitTag quote (inside ++ '>' :: t) = .ok (inside, t) := by
  induction s generalizing quote inside with
  | nil => cases quote <;> contradiction
  | cons c s ih =>
    have further : ∀ {q}, (splitTag q s).map (fun p => (c :: p.1, p.2)) = .ok (inside, rest) →
        ∃ inner, inside = c :: inner ∧ s = inner ++ '>' :: rest ∧
          ∀ t, splitTag q (inner ++ '>' :: t) = .ok (inner, t) := by
      intro q run
      obtain ⟨⟨inner, after⟩, tail, same⟩ := Outcome.map_eq_ok.mp run
      cases same
      obtain ⟨text, takes⟩ := ih tail
      exact ⟨inner, rfl, text, takes⟩
    cases quote with
    | some q =>
      obtain ⟨inner, rfl, rfl, takes⟩ := further split
      exact ⟨rfl, fun t => by simp [splitTag, takes t, Except.map]⟩
    | none =>
      rw [splitTag] at split
      dsimp only at split
      split at split
      · rename_i ends
        cases split
        exact ⟨by rw [ends]; rfl, fun t => rfl⟩
      · rename_i notEnd
        obtain ⟨inner, rfl, rfl, takes⟩ := further split
        exact ⟨rfl, fun t => by simp [splitTag, notEnd, takes t, Except.map]⟩

theorem subsetPlace_append {q : List Char} (ends : '>' ∈ q) (t : List Char) :
    subsetPlace (q ++ t) = subsetPlace q := by
  have declarations : quotingDeclarations.any (·.isPrefixOf (q ++ t)) =
      quotingDeclarations.any (·.isPrefixOf q) := by
    simp only [quotingDeclarations, List.any_cons, List.any_nil]
    rw [isPrefixOf_append ends (by decide), isPrefixOf_append ends (by decide),
      isPrefixOf_append ends (by decide)]
  rw [subsetPlace, subsetPlace, isPrefixOf_append ends (by decide),
    isPrefixOf_append ends (by decide), declarations]

/-- A character ends a document type declaration, or reading goes on at another place, which may be
    chosen by what comes next in the declaration. -/
theorem afterDoctype_cons (place : DoctypePlace) (last : Char × Char) (c : Char) :
    (c = '>' ∧ ∀ rest, afterDoctype place last (c :: rest) = some rest) ∨
    ∃ (next : List Char → DoctypePlace) (seen : Char × Char),
      (∀ q t, '>' ∈ q → next (q ++ t) = next q) ∧
      ∀ rest, afterDoctype place last (c :: rest) = afterDoctype (next rest) seen rest := by
  -- All places but one are chosen by the character alone.
  have goesOn : ∀ {place' seen}, (∀ rest, afterDoctype place last (c :: rest) =
      afterDoctype place' seen rest) → ∃ (next : List Char → DoctypePlace) (seen : Char × Char),
      (∀ q t, '>' ∈ q → next (q ++ t) = next q) ∧
      ∀ rest, afterDoctype place last (c :: rest) = afterDoctype (next rest) seen rest :=
    fun step => ⟨fun _ => _, _, fun _ _ _ => rfl, step⟩
  cases place with
  | before quote =>
    cases quote with
    | some q => exact .inr (goesOn fun _ => rfl)
    | none =>
      by_cases ends : c = '>'
      · exact .inl ⟨ends, fun rest => by simp [afterDoctype, ends]⟩
      · by_cases opens : c = '['
        · exact .inr (goesOn fun rest => by rw [afterDoctype, if_neg ends, if_pos opens])
        · exact .inr (goesOn fun rest => by rw [afterDoctype, if_neg ends, if_neg opens])
  | subset =>
    by_cases closes : c = ']'
    · exact .inr (goesOn fun rest => by rw [afterDoctype, if_pos closes])
    · by_cases opens : c = '<'
      · have chosen : ∀ q t, '>' ∈ q → subsetPlace (q ++ t) = subsetPlace q :=
          fun q t ends => subsetPlace_append ends t
        refine .inr ⟨subsetPlace, (' ', ' '), chosen, fun rest => ?_⟩
        rw [afterDoctype, if_neg closes, if_pos opens]
      · exact .inr (goesOn fun rest => by rw [afterDoctype, if_neg closes, if_neg opens])
  | comment count =>
    by_cases ends : c = '>' ∧ last = ('-', '-') ∧ 5 ≤ count
    · exact .inr (goesOn fun rest => by rw [afterDoctype, if_pos ends])
    · exact .inr (goesOn fun rest => by rw [afterDoctype, if_neg ends])
  | instruction count =>
    by_cases ends : c = '>' ∧ last.2 = '?' ∧ 2 ≤ count
    · exact .inr (goesOn fun rest => by rw [afterDoctype, if_pos ends])
    · exact .inr (goesOn fun rest => by rw [afterDoctype, if_neg ends])
  | declaration quote =>
    cases quote with
    | some q => exact .inr (goesOn fun _ => rfl)
    | none =>
      by_cases ends : c = '>'
      · exact .inr (goesOn fun rest => by rw [afterDoctype, if_pos ends])
      · exact .inr (goesOn fun rest => by rw [afterDoctype, if_neg ends])
  | piece =>
    by_cases ends : c = '>'
    · exact .inr (goesOn fun rest => by rw [afterDoctype, if_pos ends])
    · exact .inr (goesOn fun rest => by rw [afterDoctype, if_neg ends])
  | behind =>
    by_cases ends : c = '>'
    · exact .inl ⟨ends, fun rest => by rw [afterDoctype, if_pos ends]⟩
    · exact .inr (goesOn fun rest => by rw [afterDoctype, if_neg ends])

theorem afterDoctype_local {place : DoctypePlace} {last : Char × Char} {s rest : List Char}
    (ended : afterDoctype place last s = some rest) :
    ∃ q, s = q ++ rest ∧ '>' ∈ q ∧ ∀ t, afterDoctype place last (q ++ t) = some t := by
  induction s generalizing place last with
  | nil => simp [afterDoctype] at ended
  | cons c s ih =>
    rcases afterDoctype_cons place last c with ⟨isEnd, step⟩ | ⟨next, seen, chosen, step⟩
    · rw [step] at ended
      cases ended
      exact ⟨[c], rfl, by simp [isEnd], step⟩
    · rw [step] at ended
      obtain ⟨q, rfl, ends, takes⟩ := ih ended
      refine ⟨c :: q, rfl, List.mem_cons_of_mem c ends, fun t => ?_⟩
      rw [List.cons_append, step, chosen q t ends, ← chosen q rest ends]
      exact takes t

theorem readInstruction_local {s rest : List Char} {m : Markup}
    (read : readInstruction s = .ok (m, rest)) :
    ∃ q, s = q ++ rest ∧ ∀ t, readInstruction (q ++ t) = .ok (m, t) := by
  unfold readInstruction at read
  split at read
  · contradiction
  · rename_i notEnd
    split at read
    · rename_i found
      cases read
      obtain ⟨q, rfl, ends, takes⟩ := after?_local (by decide) found
      refine ⟨q, rfl, fun t => ?_⟩
      obtain ⟨c, q, rfl⟩ : ∃ c more, q = c :: more :=
        List.exists_cons_of_ne_nil fun none => by simp [none] at ends
      unfold readInstruction
      split
      · rename_i same
        cases same
        exact absurd rfl (notEnd (q ++ _))
      · rw [takes t]
    · contradiction

theorem take_written (q t : List Char) :
    (q ++ t).take ((q ++ t).length - t.length - 1) = q.take (q.length - 1) := by
  rw [List.length_append, Nat.add_sub_cancel, List.take_append_of_le_length (Nat.sub_le _ 1)]

theorem readDeclaration_doctype {c : Char} (letter : c = 'D' ∨ c = 'd') {q : List Char}
    (takes : ∀ t, afterDoctype (.before none) (' ', ' ') (c :: q ++ t) = some t) (t : List Char) :
    readDeclaration (c :: q ++ t) =
      if sameLetters (((c :: q).take ((c :: q).length - 1)).take 7) "DOCTYPE".toList then
        if (((c :: q).take ((c :: q).length - 1)).drop 7).all isSpace then .error .namelessDoctype
        else .ok (.silent, t)
      else .error .openDoctype := by
  have ended := takes t
  have written := take_written (c :: q) t
  rw [List.cons_append] at ended written ⊢
  rcases letter with rfl | rfl
  all_goals
    simp only [readDeclaration, ended, written]
    rfl

theorem readDeclaration_local {s rest : List Char} {m : Markup}
    (read : readDeclaration s = .ok (m, rest)) :
    ∃ q, s = q ++ rest ∧ ∀ t, readDeclaration (q ++ t) = .ok (m, t) := by
  unfold readDeclaration at read
  split at read
  · rename_i tail
    split at read
    · rename_i begins found
      cases read
      obtain ⟨q, same, ends, takes⟩ := after?_local (by decide) found
      have closes : '>' ∈ q := ends.mem (by decide)
      obtain ⟨q, rfl⟩ : ∃ more, q = '[' :: more := by
        cases q with
        | nil => simp at closes
        | cons c q =>
          cases same
          exact ⟨q, rfl⟩
      refine ⟨'[' :: q, same, fun t => ?_⟩
      rw [same, isPrefixOf_append closes (by decide), ← isPrefixOf_append closes (by decide) t]
        at begins
      simp only [List.cons_append] at begins takes ⊢
      simp only [readDeclaration, begins, takes t]
    · contradiction
  · rename_i body
    split at read
    · rename_i inner
      split at read
      · rename_i found
        cases read
        obtain ⟨q, rfl, ends, takes⟩ := after?_local (by decide) found
        refine ⟨'-' :: '-' :: q, rfl, fun t => ?_⟩
        simp only [List.cons_append, readDeclaration, takes t]
      · contradiction
    · contradiction
  · rename_i c tail notBracket notDash
    split at read
    · rename_i doctype
      split at read
      · contradiction
      · rename_i after ended
        obtain ⟨q, same, ends, takes⟩ := afterDoctype_local ended
        obtain ⟨q, rfl⟩ : ∃ more, q = c :: more := by
          cases q with
          | nil => simp at ends
          | cons d q =>
            cases same
            exact ⟨q, rfl⟩
        have judged := readDeclaration_doctype doctype takes
        rw [same, take_written] at read
        dsimp only at read
        split at read
        · rename_i named
          split at read
          · contradiction
          · rename_i notBlank
            cases read
            exact ⟨c :: q, same, fun t => by rw [judged t, if_pos named, if_neg notBlank]⟩
        · contradiction
    · contradiction
  · contradiction

theorem readMarkup_local {s rest : List Char} {m : Markup}
    (read : readMarkup s = .ok (m, rest)) :
    ∃ q, s = q ++ rest ∧ ∀ t, readMarkup (q ++ t) = .ok (m, t) := by
  unfold readMarkup at read
  split at read
  · contradiction
  · obtain ⟨q, rfl, takes⟩ := readDeclaration_local read
    exact ⟨'!' :: q, rfl, takes⟩
  · obtain ⟨q, rfl, takes⟩ := readInstruction_local read
    exact ⟨'?' :: q, rfl, takes⟩
  · obtain ⟨⟨inside, after⟩, split, same⟩ := Outcome.map_eq_ok.mp read
    cases same
    obtain ⟨rfl, takes⟩ := splitTag_local split
    refine ⟨'/' :: (inside ++ ['>']), by simp, fun t => ?_⟩
    rw [List.cons_append, List.append_assoc, readMarkup, List.singleton_append, takes t]
    rfl
  · rename_i notEnd notDeclaration notInstruction notClosing
    obtain ⟨⟨inside, after⟩, split, same⟩ := Outcome.map_eq_ok.mp read
    cases same
    obtain ⟨rfl, takes⟩ := splitTag_local split
    refine ⟨inside ++ ['>'], by simp, fun t => ?_⟩
    rw [List.append_assoc, List.singleton_append]
    have sameHead : ∀ {d more}, inside ++ '>' :: t = d :: more →
        ∃ further, inside ++ '>' :: after = d :: further := by
      intro d more given
      cases inside with
      | nil =>
        cases given
        exact ⟨after, rfl⟩
      | cons c inside =>
        cases given
        exact ⟨inside ++ '>' :: after, rfl⟩
    unfold readMarkup
    split
    · rename_i given
      simp at given
    · rename_i given
      obtain ⟨further, given⟩ := sameHead given
      exact absurd given (notDeclaration further)
    · rename_i given
      obtain ⟨further, given⟩ := sameHead given
      exact absurd given (notInstruction further)
    · rename_i given
      obtain ⟨further, given⟩ := sameHead given
      exact absurd given (notClosing further)
    · rw [takes t]
      rfl

theorem readMarkup_append {s rest : List Char} {m : Markup} (read : readMarkup s = .ok (m, rest))
    (t : List Char) : readMarkup (s ++ t) = .ok (m, rest ++ t) := by
  obtain ⟨q, rfl, takes⟩ := readMarkup_local read
  rw [List.append_assoc]
  exact takes (rest ++ t)

theorem afterReference?_append {s rest : List Char} (ended : afterReference? s = some rest)
    (t : List Char) : afterReference? (s ++ t) = some (rest ++ t) := by
  obtain ⟨q, rfl, takes⟩ := afterReference?_local ended
  rw [List.append_assoc]
  exact takes (rest ++ t)

def Reading.prepend (events : List Event) (r : Reading) : Reading := ⟨events ++ r.events, r.fault⟩

section Events
variable {s rest : List Char} (within : List String)

theorem readEvents_character {c : Char} (notReference : c ≠ '&') (notMarkup : c ≠ '<') :
    readEvents within (c :: rest) = readEvents within rest := by
  rw [readEvents]
  · exact notReference
  · exact notMarkup

theorem readEvents_reference (ended : afterReference? s = some rest) :
    readEvents within ('&' :: s) = readEvents within rest := by
  rw [readEvents]
  split <;> rename_i given <;> rw [ended] at given <;> cases given
  rfl

theorem readEvents_silent (read : readMarkup s = .ok (.silent, rest)) :
    readEvents within ('<' :: s) = readEvents within rest := by
  rw [readEvents]
  split <;> rename_i given <;> rw [read] at given <;> cases given
  rfl

end Events

/-- A text without fault is read first, and then the rest inside the elements that it leaves
    open. -/
theorem readEvents_append {within left : List String} {p : List Char}
    (clean : (readEvents within p).fault = none)
    (nested : leftOpen? within (readEvents within p).events = some left) (t : List Char) :
    readEvents within (p ++ t) = (readEvents left t).prepend (readEvents within p).events := by
  fun_induction readEvents within p with
  | case1 within =>
    cases nested
    rfl
  | case2 => contradiction
  | case3 within rest after ended ih =>
    rw [List.cons_append, readEvents_reference within (afterReference?_append ended t)]
    exact ih clean nested
  | case4 => contradiction
  | case5 within rest after read ih =>
    rw [List.cons_append, readEvents_silent within (readMarkup_append read t)]
    exact ih clean nested
  | case6 within rest name text after read ih =>
    rw [List.cons_append, readEvents_whole within (readMarkup_append read t), ih clean nested]
    rfl
  | case7 within rest name text after read ih =>
    rw [List.cons_append, readEvents_opening within (readMarkup_append read t), ih clean nested]
    rfl
  | case8 => contradiction
  | case9 rest after name outer read ih =>
    have nested : leftOpen? outer (readEvents outer after).events = some left := by
      simpa [leftOpen?, Reading.cons] using nested
    rw [List.cons_append, readEvents_closing outer (readMarkup_append read t), ih clean nested]
    rfl
  | case10 => contradiction
  | case11 within c rest notReference notMarkup ih =>
    rw [List.cons_append, readEvents_character within notReference notMarkup]
    exact ih clean nested

def Event.markup : Event → Markup
  | .opening name attributes => .opening name attributes
  | .whole name attributes => .whole name attributes
  | .closing name => .closing name

def IsTag (event : Event) (s : List Char) : Prop :=
  ∃ inside, s = '<' :: inside ∧ readMarkup inside = .ok (event.markup, [])

theorem IsTag.read {event : Event} {s : List Char} (isTag : IsTag event s) (rest : List Char) :
    ∃ inside, s ++ rest = '<' :: inside ∧ readMarkup inside = .ok (event.markup, rest) := by
  obtain ⟨inside, rfl, read⟩ := isTag
  exact ⟨inside ++ rest, rfl, readMarkup_append read rest⟩

/-- A tag stands at a place of a text. What is before it is read without fault, as these events, and
    so is the tag. -/
def TagAt (within : List String) (s : List Char) (before : List Event) (event : Event) : Prop :=
  ∃ pre tag rest, s = pre ++ (tag ++ rest) ∧ IsTag event tag ∧
    readEvents within pre = ⟨before, none⟩ ∧
    readEvents within (pre ++ tag) = ⟨before ++ [event], none⟩

theorem TagAt.behind {within inner : List String} (piece : List Char) (events : List Event)
    {s : List Char} {before : List Event} {event : Event} (tagAt : TagAt inner s before event)
    (first : ∀ t, readEvents within (piece ++ t) = (readEvents inner t).prepend events) :
    TagAt within (piece ++ s) (events ++ before) event := by
  obtain ⟨pre, tag, rest, rfl, isTag, position, passed⟩ := tagAt
  refine ⟨piece ++ pre, tag, rest, by rw [List.append_assoc], isTag, ?_, ?_⟩
  · rw [first, position]
    rfl
  · rw [List.append_assoc, first, passed, Reading.prepend, List.append_assoc]

theorem tagAt_cons {within inner : List String} {s rest : List Char} (e : Event) {event : Event}
    {before after : List Event} (read : readMarkup s = .ok (e.markup, rest))
    (first : ∀ {s rest}, readMarkup s = .ok (e.markup, rest) →
      readEvents within ('<' :: s) = .cons e (readEvents inner rest))
    (split : (Reading.cons e (readEvents inner rest)).events = before ++ event :: after)
    (others : ∀ {before}, (readEvents inner rest).events = before ++ event :: after →
      TagAt inner rest before event) : TagAt within ('<' :: s) before event := by
  obtain ⟨q, rfl, takes⟩ := readMarkup_local read
  cases before with
  | nil =>
    cases split
    have alone := takes []
    rw [List.append_nil] at alone
    have ends : ∀ within, readEvents within [] = .done := fun within => by rw [readEvents]
    exact ⟨[], '<' :: q, rest, rfl, ⟨q, rfl, alone⟩, ends within, by
      rw [List.nil_append, first alone, ends]; rfl⟩
  | cons b before =>
    simp only [Reading.cons, List.cons_append, List.cons.injEq] at split
    obtain ⟨rfl, split⟩ := split
    exact (others split).behind ('<' :: q) [e] fun t => first (takes t)

theorem exists_tagAt {within : List String} {s : List Char} {before after : List Event}
    {event : Event} (split : (readEvents within s).events = before ++ event :: after) :
    TagAt within s before event := by
  have none : ∀ {before after : List Event} {event}, [] ≠ before ++ event :: after := by simp
  fun_induction readEvents within s generalizing before with
  | case1 => exact absurd split none
  | case2 => exact absurd split none
  | case3 within rest behind ended ih =>
    obtain ⟨q, rfl, takes⟩ := afterReference?_local ended
    exact (ih split).behind ('&' :: q) [] fun t => readEvents_reference within (takes t)
  | case4 => exact absurd split none
  | case5 within rest behind read ih =>
    obtain ⟨q, rfl, takes⟩ := readMarkup_local read
    exact (ih split).behind ('<' :: q) [] fun t => readEvents_silent within (takes t)
  | case6 within rest name text behind read ih =>
    exact tagAt_cons (.whole name text) read (readEvents_whole within) split fun others => ih others
  | case7 within rest name text behind read ih =>
    have first := @readEvents_opening
    exact tagAt_cons (.opening name text) read (first within) split fun others => ih others
  | case8 => exact absurd split none
  | case9 rest behind name outer read ih =>
    exact tagAt_cons (.closing name) read (readEvents_closing outer) split fun others => ih others
  | case10 => exact absurd split none
  | case11 within c rest notReference notMarkup ih =>
    exact (ih split).behind [c] [] fun t => readEvents_character within notReference notMarkup

end DataLayer.Xml
