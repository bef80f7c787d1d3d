import DataLayer.Xml.Event

/- Which elements events leave open. A reader of markup lets a closing tag pass only where it names
   the innermost open element, but at the end of a document it lets elements stay open. -/
namespace DataLayer.Xml

/-- The elements open after events, innermost first, where those of `within` are open before. There
    are none if a closing tag does not name the innermost. -/
def leftOpen? (within : List String) : List Event → Option (List String)
  | [] => some within
  | .whole _ _ :: rest => leftOpen? within rest
  | .opening name _ :: rest => leftOpen? (name :: within) rest
  | .closing name :: rest =>
      match within with
      | [] => none
      | innermost :: outer => if innermost = name then leftOpen? outer rest else none

/-- Every element that is opened is closed by a tag of its name, and nothing else is closed. -/
def Closed (events : List Event) : Prop := leftOpen? [] events = some []

instance (events : List Event) : Decidable (Closed events) :=
  inferInstanceAs (Decidable (leftOpen? [] events = some []))

theorem leftOpen?_append (within : List String) (a b : List Event) :
    leftOpen? within (a ++ b) = (leftOpen? within a).bind fun open' => leftOpen? open' b := by
  induction a generalizing within with
  | nil => rfl
  | cons event rest ih =>
    cases event with
    | whole name text => exact ih within
    | opening name text => exact ih (name :: within)
    | closing name =>
      cases within with
      | nil => rfl
      | cons innermost outer =>
        by_cases same : innermost = name
        · simpa [leftOpen?, same] using ih outer
        · simp [leftOpen?, same]

theorem leftOpen?_closing {within left : List String} {name : String} {rest : List Event}
    (nested : leftOpen? within (.closing name :: rest) = some left) :
    ∃ outer, within = name :: outer ∧ leftOpen? outer rest = some left := by
  cases within with
  | nil => simp [leftOpen?] at nested
  | cons innermost outer =>
    by_cases same : innermost = name
    · rw [leftOpen?, if_pos same] at nested
      exact ⟨outer, by rw [same], nested⟩
    · simp [leftOpen?, same] at nested

theorem Closed.append {a b : List Event} (first : Closed a) (second : Closed b) :
    Closed (a ++ b) := by
  unfold Closed at first second ⊢
  rw [leftOpen?_append, first]
  exact second

theorem leftOpen?_of_closed {events : List Event} (closed : Closed events) (within : List String) :
    leftOpen? within events = some within := by
  suffices general : ∀ own left, leftOpen? own events = some left →
      leftOpen? (own ++ within) events = some (left ++ within) by
    simpa using general [] [] closed
  clear closed
  induction events with
  | nil =>
    intro own left nested
    cases nested
    rfl
  | cons event rest ih =>
    intro own left nested
    cases event with
    | whole name text => exact ih own left nested
    | opening name text => exact ih (name :: own) left nested
    | closing name =>
      obtain ⟨outer, rfl, after⟩ := leftOpen?_closing nested
      simpa [leftOpen?] using ih outer left after

theorem readEvents_leftOpen? (within : List String) (s : List Char) :
    ∃ left, leftOpen? within (readEvents within s).events = some left := by
  fun_induction readEvents within s with
  | case1 within => exact ⟨within, rfl⟩
  | case2 within => exact ⟨within, rfl⟩
  | case3 within rest after ended ih => exact ih
  | case4 within => exact ⟨within, rfl⟩
  | case5 within rest after read ih => exact ih
  | case6 within rest name text after read ih => exact ih
  | case7 within rest name text after read ih => exact ih
  | case8 => exact ⟨[], rfl⟩
  | case9 rest name after outer read ih =>
    obtain ⟨left, nested⟩ := ih
    exact ⟨left, by simpa [leftOpen?, Reading.cons] using nested⟩
  | case10 => exact ⟨_, rfl⟩
  | case11 within c rest notReference notMarkup ih => exact ih

end DataLayer.Xml
