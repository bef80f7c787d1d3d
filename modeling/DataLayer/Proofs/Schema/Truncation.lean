import DataLayer.Proofs.Schema.Loading
import DataLayer.Proofs.Xml.Nesting

/- Documents that end early. An item is read up to its end tag, so that no document ends inside one,
   but the end of the document ends the schema element as its tag would. What is left open by a
   document that loads is therefore nothing or the schema element alone. -/
namespace DataLayer.Schema
open Xml Outcome

/-- Events that close the elements `inner` come first, and what is after them leaves `left` open
    where those of `outer` are open before. -/
def ClosesFirst (inner outer left : List String) (events rest : List Event) : Prop :=
  ∃ consumed, events = consumed ++ rest ∧ leftOpen? inner consumed = some [] ∧
    leftOpen? outer rest = some left

theorem ClosesFirst.cons {inner inner' outer left : List String} {event : Event}
    {events rest : List Event} (run : ClosesFirst inner' outer left events rest)
    (step : ∀ more, leftOpen? inner (event :: more) = leftOpen? inner' more) :
    ClosesFirst inner outer left (event :: events) rest := by
  obtain ⟨consumed, all, closed, around⟩ := run
  exact ⟨event :: consumed, congrArg _ all, (step consumed).trans closed, around⟩

theorem readChildren_closesFirst {fault : Option Xml.Fault} {parent child : String} {depth : Nat}
    {events rest : List Event} {found : List Attributes} {inner outer left : List String}
    (read : readChildren fault parent child depth events = .ok (found, rest))
    (nested : leftOpen? (inner ++ outer) events = some left) (deep : inner.length = depth + 1) :
    ClosesFirst inner outer left events rest := by
  induction events generalizing depth found inner with
  | nil => simp [readChildren] at read
  | cons event events ih =>
    cases event with
    | closing name =>
      obtain ⟨innermost, further, rfl⟩ := List.exists_cons_of_length_eq_add_one deep
      obtain ⟨around, same, nested⟩ := leftOpen?_closing nested
      obtain ⟨rfl, rfl⟩ := List.cons.inj same
      have deep : further.length = depth := by simpa using deep
      cases depth with
      | zero =>
        cases List.length_eq_zero_iff.mp deep
        simp only [readChildren, Except.ok.injEq, Prod.mk.injEq] at read
        obtain ⟨-, rfl⟩ := read
        exact ⟨[.closing innermost], rfl, by simp [leftOpen?], nested⟩
      | succ below => exact (ih read nested deep).cons (fun more => by simp [leftOpen?])
    | whole name text =>
      cases depth with
      | succ below => exact (ih read nested deep).cons (fun more => rfl)
      | zero =>
        obtain ⟨-, a, more, -, tail, -⟩ := readChild_eq_ok read
        exact (ih tail nested deep).cons (fun more => rfl)
    | opening name text =>
      have deep : (name :: inner).length = depth + 1 + 1 := by simp [deep]
      cases depth with
      | succ below => exact (ih read nested deep).cons (fun more => rfl)
      | zero =>
        obtain ⟨-, a, more, -, tail, -⟩ := readChild_eq_ok read
        exact (ih tail nested deep).cons (fun more => rfl)

theorem Leads.closesFirst {fault : Option Xml.Fault} {events after : List Event} {e : Element}
    {outer left : List String} (leads : Leads fault events e after)
    (nested : leftOpen? outer events = some left) : ClosesFirst [] outer left events after := by
  cases leads with
  | whole name attributes rest => exact ⟨[.whole name attributes], rfl, rfl, nested⟩
  | @opening name _ rest _ _ attributes body =>
    have closes : ClosesFirst [name] outer left rest after :=
      readChildren_closesFirst body nested rfl
    exact closes.cons (fun more => rfl)

theorem readDeclarations_behind_closed {fault : Option Xml.Fault} {known t : Table Declaration}
    {events : List Event} {left : List String}
    (read : readDeclarations fault .behind known events = .ok t)
    (nested : leftOpen? [] events = some left) : events = [] := by
  cases events with
  | nil => rfl
  | cons event events =>
    cases event with
    | closing name => simp [leftOpen?] at nested
    | whole name text => simp [readDeclarations, DocumentPlace.role] at read
    | opening name text => simp [readDeclarations, DocumentPlace.role] at read

theorem readDeclarations_inside_closed {fault : Option Xml.Fault} {known t : Table Declaration}
    {events : List Event} {left : List String}
    (read : readDeclarations fault .inside known events = .ok t)
    (nested : leftOpen? ["schema"] events = some left) :
    ∃ inner, Closed inner ∧ (events = inner ∨ events = inner ++ [.closing "schema"]) := by
  induction bound : events.length using Nat.strongRecOn generalizing events known with
  | ind length ih =>
    cases events with
    | nil => exact ⟨[], rfl, .inl rfl⟩
    | cons event rest =>
      rcases readDeclarations_inside_cons read with ⟨name, rfl, behind⟩ |
        ⟨e, name, d, more, after, leads, -, -, tail⟩
      · obtain ⟨outer, same, nested⟩ := leftOpen?_closing nested
        obtain ⟨rfl, rfl⟩ := List.cons.inj same
        cases readDeclarations_behind_closed behind nested
        exact ⟨[], rfl, .inr rfl⟩
      · obtain ⟨item, all, itemClosed, nested⟩ := leads.closesFirst nested
        have shorter := leads.length_lt
        obtain ⟨inner, innerClosed, ends⟩ := ih after.length (by omega) tail nested rfl
        have closed : Closed (item ++ inner) := Closed.append itemClosed innerClosed
        rw [all]
        rcases ends with rfl | rfl
        · exact ⟨item ++ after, closed, .inl rfl⟩
        · exact ⟨item ++ inner, closed, .inr (List.append_assoc ..).symm⟩

/-- The events of a document that is read: the schema element without a body, with a body and its
    end tag, or with a body that the end of the document ends. -/
theorem declarationsOf_events {text : String} {t : Table Declaration}
    (read : declarationsOf text = .ok t) :
    ∃ attributes inner, Closed inner ∧
      ((Reading.ofText text).events = [.whole "schema" attributes] ∨
        (Reading.ofText text).events = .opening "schema" attributes :: inner ∨
        (Reading.ofText text).events =
          .opening "schema" attributes :: (inner ++ [.closing "schema"])) := by
  obtain ⟨left, nested⟩ := readEvents_leftOpen? [] text.toList
  change leftOpen? [] (Reading.ofText text).events = some left at nested
  obtain ⟨attributes, rest, ⟨whole, read⟩ | ⟨opened, read⟩⟩ := declarationsOf_begins read
  · rw [whole] at nested ⊢
    cases readDeclarations_behind_closed read nested
    exact ⟨attributes, [], rfl, .inl rfl⟩
  · rw [opened] at nested ⊢
    obtain ⟨inner, closed, ends⟩ := readDeclarations_inside_closed read nested
    rcases ends with rfl | rfl
    · exact ⟨attributes, rest, closed, .inr (.inl rfl)⟩
    · exact ⟨attributes, inner, closed, .inr (.inr rfl)⟩

/-- The elements of a document that loads are all closed, but where its schema element is opened and
    the document ends with the items. -/
theorem ofText_closed_iff {text : String} {m : Model} (loaded : Model.ofText text = .ok m) :
    Closed (Reading.ofText text).events ↔
      ¬ ∃ attributes inner, Closed inner ∧
        (Reading.ofText text).events = .opening "schema" attributes :: inner := by
  obtain ⟨declared, read, -⟩ := bind_eq_ok.mp loaded
  obtain ⟨attributes, inner, innerClosed, shape⟩ := declarationsOf_events read
  have unclosed : ∀ {attributes inner}, Closed inner →
      leftOpen? [] (.opening "schema" attributes :: inner) = some ["schema"] := by
    intro attributes inner closed
    exact leftOpen?_of_closed closed ["schema"]
  constructor
  · rintro closed ⟨attributes, inner, innerClosed, events⟩
    rw [events, Closed, unclosed innerClosed] at closed
    contradiction
  · intro ended
    rcases shape with whole | early | closed
    · rw [whole]
      rfl
    · exact absurd ⟨attributes, inner, innerClosed, early⟩ ended
    · rw [closed, Closed, ← List.cons_append, leftOpen?_append, unclosed innerClosed]
      simp [leftOpen?]

def nestedText : String :=
  "<schema><entity name=\"A\"><property name=\"p\" type=\"E\"><b></b></property></entity>" ++
  "<enum name=\"E\"/></schema>"

theorem nestedText_closed_iff :
    ∃ m, Model.ofText nestedText = .ok m ∧
      (Closed (Reading.ofText nestedText).events ↔
        ¬ ∃ attributes inner, Closed inner ∧
          (Reading.ofText nestedText).events = .opening "schema" attributes :: inner) := by
  have loaded : Model.ofText nestedText = .ok ⟨{ entries :=
      [("A", .entity ⟨none, { entries :=
         [("id", ⟨.scalar "ID", false, none⟩),
          ("p", ⟨.enumeration "E", true, none⟩)] }⟩),
       ("E", .enumeration ⟨none, { names := [] }⟩)] }⟩ :=
    eq_ok_of_toOption (by decide +kernel)
  exact ⟨_, loaded, ofText_closed_iff loaded⟩

def openText : String := "<schema><entity name=\"A\"/>"

theorem openText_loads :
    ∃ m, Model.ofText (openText ++ "</schema>") = .ok m ∧
      Closed (Reading.ofText (openText ++ "</schema>")).events ∧
      Model.ofText openText = .ok m ∧ ¬ Closed (Reading.ofText openText).events := by
  refine ⟨⟨{ entries :=
      [("A", .entity ⟨none, { entries := [("id", ⟨.scalar "ID", false, none⟩)] }⟩)] }⟩,
    eq_ok_of_toOption (by decide +kernel), by decide +kernel,
    eq_ok_of_toOption (by decide +kernel), by decide +kernel⟩

end DataLayer.Schema
