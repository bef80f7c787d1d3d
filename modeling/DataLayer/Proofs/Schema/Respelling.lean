import Mathlib.Logic.Relation
import DataLayer.Proofs.Schema.Loading
import DataLayer.Proofs.Xml.Content

/- Documents that say the same in other words. An element without content may be one tag or two, the
   elements inside an item may hold any content, and comments, instructions and text may stand
   between elements. What is read does not depend on any of this, neither where a document loads
   nor where it is refused. -/
namespace DataLayer.Schema
open Xml Outcome

def childElements : List String := ["property", "variant", "value"]

/-- Events of a document before and after some elements of one tag are written as two. -/
inductive EventsRespelled : List Event → List Event → Prop
  | nil : EventsRespelled [] []
  | cons {events others : List Event} (e : Event) (behind : EventsRespelled events others) :
      EventsRespelled (e :: events) (e :: others)
  | element {name : String} {text other : List Char} {inside events others : List Event}
      (same : readAttributes [] other = readAttributes [] text) (closed : Closed inside)
      (content : inside = [] ∨ name ∈ childElements) (behind : EventsRespelled events others) :
      EventsRespelled (.whole name text :: events)
        (.opening name other :: (inside ++ .closing name :: others))

/-- Children are refused for the same reason, or they are the same and events that are spelled in
    another way come behind. -/
inductive ReadAlike : Except LoadFault (List Attributes × List Event) →
    Except LoadFault (List Attributes × List Event) → Prop
  | error (e : LoadFault) : ReadAlike (.error e) (.error e)
  | ok (found : List Attributes) {rest others : List Event} (behind : EventsRespelled rest others) :
      ReadAlike (.ok (found, rest)) (.ok (found, others))

theorem EventsRespelled.refl (events : List Event) : EventsRespelled events events := by
  induction events with
  | nil => exact .nil
  | cons e events ih => exact .cons e ih

theorem EventsRespelled.append (events : List Event) {rest others : List Event}
    (behind : EventsRespelled rest others) :
    EventsRespelled (events ++ rest) (events ++ others) := by
  induction events with
  | nil => exact behind
  | cons e events ih => exact .cons e ih

theorem attributesOf_congr {text other : List Char}
    (same : readAttributes [] other = readAttributes [] text) (element : String) :
    attributesOf element other = attributesOf element text := by
  rw [attributesOf, same, attributesOf]

section Children
variable {fault : Option Xml.Fault} {parent child : String}

theorem ReadAlike.cons {x y : Except LoadFault (List Attributes × List Event)}
    (alike : ReadAlike x y) (a : Except LoadFault Attributes) :
    ReadAlike (do let attributes ← a; let (more, rest) ← x; return (attributes :: more, rest))
      (do let attributes ← a; let (more, rest) ← y; return (attributes :: more, rest)) := by
  cases a with
  | error e => exact .error e
  | ok attributes =>
    cases alike with
    | error e => exact .error e
    | ok found behind => exact .ok (attributes :: found) behind

theorem ReadAlike.bind_eq {β : Type} {x y : Except LoadFault (List Attributes × List Event)}
    (alike : ReadAlike x y) {f : List Attributes × List Event → Except LoadFault β}
    (same : ∀ found rest others, x = .ok (found, rest) → EventsRespelled rest others →
      f (found, rest) = f (found, others)) : x >>= f = y >>= f := by
  cases alike with
  | error e => rfl
  | ok found behind => exact same found _ _ rfl behind

theorem readChildren_closed {inside : List Event} (closed : Closed inside) (depth : Nat)
    (rest : List Event) : readChildren fault parent child (depth + 1) (inside ++ rest) =
      readChildren fault parent child (depth + 1) rest := by
  -- Every element that is open inside the child counts for the depth.
  suffices general : ∀ own left, leftOpen? own inside = some left →
      readChildren fault parent child (depth + own.length + 1) (inside ++ rest) =
        readChildren fault parent child (depth + left.length + 1) rest from general [] [] closed
  clear closed
  induction inside with
  | nil =>
    intro own left nested
    cases nested
    rfl
  | cons e inside ih =>
    intro own left nested
    cases e with
    | whole name text => exact ih own left nested
    | opening name text => exact ih (name :: own) left nested
    | closing name =>
      obtain ⟨outer, rfl, further⟩ := leftOpen?_closing nested
      exact ih outer left further

theorem readChildren_respelled {depth : Nat} {events others : List Event}
    (respelled : EventsRespelled events others) :
    ReadAlike (readChildren fault parent child depth events)
      (readChildren fault parent child depth others) := by
  induction respelled generalizing depth with
  | nil => exact .error _
  | cons e behind ih =>
    cases depth with
    | succ inner =>
      cases e with
      | closing name => exact ih
      | whole name text => exact ih
      | opening name text => exact ih
    | zero =>
      cases e with
      | closing name => exact .ok [] behind
      | whole name text | opening name text =>
        simp only [readChildren]
        split
        · exact ih.cons _
        · exact .error _
  | @element name text other inside events others same closed content behind ih =>
    have skipped : ∀ depth, readChildren fault parent child (depth + 1)
        (inside ++ .closing name :: others) = readChildren fault parent child depth others :=
      fun depth => readChildren_closed closed depth (.closing name :: others)
    cases depth with
    | succ inner =>
      simp only [readChildren]
      rw [skipped]
      exact ih
    | zero =>
      simp only [readChildren]
      rw [skipped, attributesOf_congr same]
      split
      · exact ih.cons _
      · exact .error _

end Children

section Items
variable {fault : Option Xml.Fault} {place : DocumentPlace} {known : Table Declaration}
  {element : String} {text : List Char} {events : List Event} {kind : ItemKind}

theorem readDeclarations_wholeItem (role : place.role element = .item kind) :
    readDeclarations fault place known (.whole element text :: events) = (do
      let attributes ← attributesOf element text
      let name ← required attributes element "name"
      let declared ← declarationOf kind name (attributes.get? "description") []
      readDeclarations fault place (← addDeclaration known name declared) events) := by
  rw [readDeclarations, role]

theorem readDeclarations_item (role : place.role element = .item kind) :
    readDeclarations fault place known (.opening element text :: events) = (do
      let attributes ← attributesOf element text
      let name ← required attributes element "name"
      let (children, rest) ← readChildren fault element kind.child 0 events
      let declared ← declarationOf kind name (attributes.get? "description") children
      readDeclarations fault place (← addDeclaration known name declared) rest) := by
  rw [readDeclarations, role]
  refine bind_congr fun attributes _ => bind_congr fun name _ => ?_
  split <;> rename_i given <;> rw [given] <;> rfl

theorem role_childElement (place : DocumentPlace) (isChild : element ∈ childElements) :
    place.role element = .unknown := by
  simp only [childElements, List.mem_cons, List.not_mem_nil, or_false] at isChild
  rcases isChild with rfl | rfl | rfl <;> cases place <;> rfl

end Items

theorem readDeclarations_respelled {fault : Option Xml.Fault} {place : DocumentPlace}
    {known : Table Declaration} {events others : List Event}
    (respelled : EventsRespelled events others) :
    readDeclarations fault place known events = readDeclarations fault place known others := by
  -- By the number of events, because reading goes on behind the children of an item.
  induction bound : events.length using Nat.strongRecOn generalizing events others place known with
  | ind length ih =>
    cases respelled with
    | nil => rfl
    | @cons events others e behind =>
      have further : ∀ {place known}, readDeclarations fault place known events =
          readDeclarations fault place known others := by
        intro place known
        exact ih events.length (by simp [← bound]) behind rfl
      cases e with
      | closing name =>
        rw [readDeclarations, readDeclarations]
        exact further
      | whole element text =>
        cases role : place.role element with
        | schema =>
          rw [readDeclarations, readDeclarations, role]
          exact further
        | unknown => rw [readDeclarations, readDeclarations, role]
        | item kind =>
          rw [readDeclarations_wholeItem role, readDeclarations_wholeItem role]
          simp only [further]
      | opening element text =>
        cases role : place.role element with
        | schema =>
          rw [readDeclarations, readDeclarations, role]
          exact further
        | unknown => rw [readDeclarations, readDeclarations, role]
        | item kind =>
          rw [readDeclarations_item role, readDeclarations_item role]
          refine bind_congr fun attributes _ => bind_congr fun name _ => ?_
          refine (readChildren_respelled behind).bind_eq fun found rest others' read similar => ?_
          have shorter := readChildren_length_lt read
          refine bind_congr fun declared _ => bind_congr fun more _ => ?_
          exact ih rest.length (by simp only [← bound, List.length_cons]; omega) similar rfl
    | @element name text other inside events others same closed content behind =>
      have further : ∀ {place known}, readDeclarations fault place known events =
          readDeclarations fault place known others := by
        intro place known
        exact ih events.length (by simp [← bound]) behind rfl
      -- Only what is refused here may have content.
      have empty : place.role name ≠ .unknown → inside = [] := fun means =>
        content.resolve_right fun isChild => means (role_childElement place isChild)
      cases role : place.role name with
      | unknown => rw [readDeclarations, readDeclarations, role]
      | schema =>
        cases empty (by simp [role])
        rw [readDeclarations, readDeclarations, role]
        change _ = readDeclarations fault .inside known (.closing name :: others)
        rw [readDeclarations]
        exact further
      | item kind =>
        cases empty (by simp [role])
        rw [readDeclarations_wholeItem role, readDeclarations_item role, attributesOf_congr same]
        refine bind_congr fun attributes _ => bind_congr fun name _ => ?_
        change _ = (do
          let declared ← declarationOf kind name (attributes.get? "description") []
          readDeclarations fault place (← addDeclaration known name declared) others)
        simp only [further]

/-- Here a text is between tags and other markup, or behind a fault that stays whatever follows. -/
def Position (pre : List Char) : Prop :=
  (readEvents [] pre).fault = none ∨ ∀ rest, readEvents [] (pre ++ rest) = readEvents [] pre

/-- One element is written as two tags instead of one, or something silent is put in. -/
inductive TextRespelled : List Char → List Char → Prop
  | element {pre tag start stop rest text other : List Char} {name : String}
      (position : Position pre) (isTag : IsTag (.whole name text) tag)
      (opens : IsTag (.opening name other) start) (closes : IsTag (.closing name) stop)
      (same : readAttributes [] other = readAttributes [] text) :
      TextRespelled (pre ++ (tag ++ rest)) (pre ++ (start ++ (stop ++ rest)))
  | child {pre tag start inside stop rest text other : List Char} {name : String}
      (position : Position pre) (isTag : IsTag (.whole name text) tag)
      (isChild : name ∈ childElements) (opens : IsTag (.opening name other) start)
      (content : Content inside) (closes : IsTag (.closing name) stop)
      (same : readAttributes [] other = readAttributes [] text) :
      TextRespelled (pre ++ (tag ++ rest)) (pre ++ (start ++ (inside ++ (stop ++ rest))))
  | inserted {pre s rest : List Char} (position : Position pre) (silent : Silent s) :
      TextRespelled (pre ++ rest) (pre ++ (s ++ rest))

def Respelled (text other : String) : Prop := TextRespelled text.toList other.toList

def ReadingsAlike (r other : Reading) : Prop :=
  r.fault = other.fault ∧ EventsRespelled r.events other.events

theorem readingsAlike_refl (r : Reading) : ReadingsAlike r r := ⟨rfl, .refl r.events⟩

theorem Position.readingsAlike {pre a b : List Char} (position : Position pre)
    (alike : ∀ within, ReadingsAlike (readEvents within a) (readEvents within b)) :
    ReadingsAlike (readEvents [] (pre ++ a)) (readEvents [] (pre ++ b)) := by
  rcases position with clean | stopped
  · obtain ⟨left, nested⟩ := readEvents_leftOpen? [] pre
    obtain ⟨fault, events⟩ := alike left
    rw [readEvents_append clean nested, readEvents_append clean nested]
    exact ⟨fault, events.append _⟩
  · rw [stopped, stopped]
    exact readingsAlike_refl _

theorem TextRespelled.readingsAlike {a b : List Char} (respelled : TextRespelled a b) :
    ReadingsAlike (readEvents [] a) (readEvents [] b) := by
  cases respelled with
  | element position isTag opens closes same =>
    refine position.readingsAlike fun within => ?_
    rw [isTag.readEvents_whole, opens.readEvents_opening, closes.readEvents_closing]
    have nothing : Closed [] := rfl
    exact ⟨rfl, .element same nothing (.inl rfl) (.refl _)⟩
  | child position isTag isChild opens content closes same =>
    refine position.readingsAlike fun within => ?_
    obtain ⟨events, closed, reads⟩ := content.readEvents
    rw [isTag.readEvents_whole, opens.readEvents_opening, reads, closes.readEvents_closing]
    exact ⟨rfl, .element same closed (.inr isChild) (.refl _)⟩
  | inserted position silent =>
    refine position.readingsAlike fun within => ?_
    rw [silent.readEvents]
    exact readingsAlike_refl _

theorem ofText_respelled {text other : String} (respelled : Respelled text other) :
    Model.ofText text = Model.ofText other := by
  obtain ⟨fault, events⟩ := TextRespelled.readingsAlike respelled
  have declared : declarationsOf text = declarationsOf other := by
    unfold declarationsOf Reading.ofText
    dsimp only
    rw [fault]
    exact readDeclarations_respelled events
  rw [Model.ofText, declared, Model.ofText]

/-- However often and wherever a document is spelled in another way, it is read alike. And there is
    a position before each tag that is read, and one behind it. -/
theorem spellings_agree :
    (∀ text other, Relation.ReflTransGen Respelled text other →
      Model.ofText text = Model.ofText other) ∧
    ∀ text before event after, (Reading.ofText text).events = before ++ event :: after →
      ∃ pre tag rest, text.toList = pre ++ (tag ++ rest) ∧ IsTag event tag ∧
        Position pre ∧ (readEvents [] pre).events = before ∧
        Position (pre ++ tag) ∧ (readEvents [] (pre ++ tag)).events = before ++ [event] := by
  constructor
  · intro text other respelled
    induction respelled with
    | refl => rfl
    | tail _ step ih => exact ih.trans (ofText_respelled step)
  · intro text before event after split
    obtain ⟨pre, tag, rest, shape, isTag, position, passed⟩ := exists_tagAt split
    exact ⟨pre, tag, rest, shape, isTag, .inl (by rw [position]), by rw [position],
      .inl (by rw [passed]), by rw [passed]⟩

def terseText : String :=
  "<schema><entity name=\"A\"><property name=\"p\" type=\"Int\"/></entity></schema>"

def notedText : String :=
  "<schema><entity name=\"A\"><property name=\"p\" type=\"Int\"><note/>?</property></entity>" ++
  "<!-- one > entity --></schema>"

theorem terseText_respelled : Relation.ReflTransGen Respelled terseText notedText ∧
    Model.ofText terseText = Model.ofText notedText := by
  let begins : List Char := "<schema><entity name=\"A\">".toList
  let attributes := [("name", "p"), ("type", "Int")]
  let note : List Char := wholeTag "note" [] ++ (['?'] ++ [])
  let remark : List Char := "<!--".toList ++ (" one > entity ".toList ++ "-->".toList)
  let item : List Char := begins ++ (openingTag "property" attributes ++ (note ++
    (closingTag "property" ++ "</entity>".toList)))
  have property : PlainName "property" := by decide
  have keys : ∀ a ∈ attributes, PlainName a.1 := by decide
  have mark : Silent ['?'] := .character (by decide) (by decide)
  have content : Content note := .whole (isTag_wholeTag (by decide) (by simp)) (.silent mark .nil)
  have silent : Silent remark := .comment (by decide +kernel)
  have position : Position begins := .inl (by decide +kernel)
  have behind : Position item := .inl (by decide +kernel)
  have twoTags : Respelled terseText (String.ofList (item ++ "</schema>".toList)) := by
    have before : terseText.toList = begins ++ (wholeTag "property" attributes ++
        "</entity></schema>".toList) := by decide +kernel
    have after : item ++ "</schema>".toList = begins ++ (openingTag "property" attributes ++
        (note ++ (closingTag "property" ++ "</entity></schema>".toList))) := by decide +kernel
    rw [Respelled, String.toList_ofList, before, after]
    exact .child position (isTag_wholeTag property keys) (by decide)
      (isTag_openingTag property keys) content (isTag_closingTag property) rfl
  have comment : Respelled (String.ofList (item ++ "</schema>".toList)) notedText := by
    have after : notedText.toList = item ++ (remark ++ "</schema>".toList) := by decide +kernel
    rw [Respelled, String.toList_ofList, after]
    exact .inserted behind silent
  have both : Relation.ReflTransGen Respelled terseText notedText :=
    .tail (.single twoTags) comment
  exact ⟨both, spellings_agree.1 _ _ both⟩

end DataLayer.Schema
