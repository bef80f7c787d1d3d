import DataLayer.Schema.Resolution
import DataLayer.Proofs.Outcome
import DataLayer.Proofs.Tables
import DataLayer.Proofs.Xml.Element

/- What is read from a document. The elements directly inside the schema element declare the items,
   one each and in their order, and the elements directly inside those declare what the items
   consist of. -/
namespace DataLayer.Schema
open Xml Outcome

def Declares (e : Element) (name : String) (d : Declaration) : Prop :=
  ∃ kind attributes children,
    ItemKind.ofWord? e.name = some kind ∧
    attributesOf e.name e.attributes = .ok attributes ∧
    required attributes e.name "name" = .ok name ∧
    List.Forall₂ (fun c a => c.name = kind.child ∧ attributesOf c.name c.attributes = .ok a)
      e.children children ∧
    declarationOf kind name (attributes.get? "description") children = .ok d

theorem readChild_eq_ok {name child parent : String} {text : List Char}
    {next : Except LoadFault (List Attributes × List Event)} {found : List Attributes}
    {rest : List Event}
    (read : (if name = child then do
        let attributes ← attributesOf child text
        let (more, rest) ← next
        return (attributes :: more, rest)
      else .error (.unknownElement name parent)) = .ok (found, rest)) :
    name = child ∧ ∃ a more, attributesOf child text = .ok a ∧ next = .ok (more, rest) ∧
      found = a :: more := by
  split at read
  · rename_i isChild
    obtain ⟨a, attributes, run⟩ := bind_eq_ok.mp read
    obtain ⟨⟨more, after⟩, tail, same⟩ := bind_eq_ok.mp run
    cases pure_eq_ok.mp same
    exact ⟨isChild, a, more, attributes, tail, rfl⟩
  · contradiction

/-- Reading the children of an element takes all events up to its end, on every level around. -/
theorem readChildren_elements {fault : Option Xml.Fault} {parent child : String} {depth : Nat}
    {events rest : List Event} {found : List Attributes}
    (read : readChildren fault parent child depth events = .ok (found, rest)) :
    List.Forall₂ (fun c a => c.name = child ∧ attributesOf c.name c.attributes = .ok a)
      (elementsAt depth events) found ∧
    ∀ outer, elementsAt (outer + depth + 1) events = elementsAt outer rest := by
  induction events generalizing depth found with
  | nil => simp [readChildren] at read
  | cons event events ih =>
    cases depth with
    | succ inner =>
      cases event with
      | closing name =>
        obtain ⟨below, around⟩ := ih read
        exact ⟨below, fun outer => around outer⟩
      | whole name text =>
        obtain ⟨below, around⟩ := ih read
        exact ⟨below, fun outer => around outer⟩
      | opening name text =>
        obtain ⟨below, around⟩ := ih read
        exact ⟨below, fun outer => around outer⟩
    | zero =>
      cases event with
      | closing name =>
        simp only [readChildren, Except.ok.injEq, Prod.mk.injEq] at read
        obtain ⟨rfl, rfl⟩ := read
        exact ⟨.nil, fun outer => rfl⟩
      | whole name text =>
        obtain ⟨isChild, a, more, attributes, tail, rfl⟩ := readChild_eq_ok read
        obtain ⟨below, around⟩ := ih tail
        exact ⟨.cons ⟨isChild, isChild ▸ attributes⟩ below, fun outer => around outer⟩
      | opening name text =>
        obtain ⟨isChild, a, more, attributes, tail, rfl⟩ := readChild_eq_ok read
        obtain ⟨below, around⟩ := ih tail
        exact ⟨.cons ⟨isChild, isChild ▸ attributes⟩ below, fun outer => around outer⟩

theorem addDeclaration_eq_ok {known more : Table Declaration} {name : String} {d : Declaration}
    (added : addDeclaration known name d = .ok more) :
    more.entries = known.entries ++ [(name, d)] := by
  unfold addDeclaration at added
  cases new : known.insertNew? name d with
  | none => simp [new] at added
  | some u =>
    simp only [new, Option.elim_some, Except.ok.injEq] at added
    exact added ▸ (Table.entries_insertNew? new).2

theorem readDeclarations_behind {fault : Option Xml.Fault} {known t : Table Declaration}
    {events : List Event} (read : readDeclarations fault .behind known events = .ok t) :
    t = known ∧ elementsAt 0 events = [] := by
  induction events with
  | nil =>
    unfold readDeclarations at read
    cases fault with
    | some f => contradiction
    | none =>
      cases read
      exact ⟨rfl, rfl⟩
  | cons event events ih =>
    cases event with
    | closing name =>
      rw [readDeclarations] at read
      exact ⟨(ih read).1, rfl⟩
    | whole name text => simp [readDeclarations, DocumentPlace.role] at read
    | opening name text => simp [readDeclarations, DocumentPlace.role] at read

theorem role_inside {element : String} {kind : ItemKind}
    (role : DocumentPlace.role .inside element = .item kind) :
    ItemKind.ofWord? element = some kind := by
  unfold DocumentPlace.role at role
  split at role
  · rename_i word
    cases role
    exact word
  · split at role <;> contradiction
  · contradiction

theorem role_inside_ne_schema (element : String) :
    DocumentPlace.role .inside element ≠ .schema := by
  unfold DocumentPlace.role
  split <;> simp_all

/-- An element stands first among events, and the events after it. If it has a body, this is read up
    to its end. -/
inductive Leads (fault : Option Xml.Fault) : List Event → Element → List Event → Prop
  | whole (name : String) (attributes : List Char) (rest : List Event) :
      Leads fault (.whole name attributes :: rest) ⟨name, attributes, []⟩ rest
  | opening {name child : String} {rest after : List Event} {children : List Attributes}
      (attributes : List Char)
      (body : readChildren fault name child 0 rest = .ok (children, after)) :
      Leads fault (.opening name attributes :: rest) ⟨name, attributes, rest⟩ after

namespace Leads
variable {fault : Option Xml.Fault} {events after : List Event} {e : Element}

theorem length_lt (leads : Leads fault events e after) : after.length < events.length := by
  cases leads with
  | whole name attributes rest => simp
  | opening attributes body =>
    have := readChildren_length_lt body
    simp only [List.length_cons]
    omega

theorem elementsAt_zero (leads : Leads fault events e after) :
    elementsAt 0 events = e :: elementsAt 0 after := by
  cases leads with
  | whole name attributes rest => rfl
  | opening attributes body => exact congrArg _ ((readChildren_elements body).2 0)

theorem elementsAt_one (leads : Leads fault events e after) :
    elementsAt 1 events = elementsAt 1 after := by
  cases leads with
  | whole name attributes rest => rfl
  | opening attributes body => exact (readChildren_elements body).2 1

end Leads

theorem readDeclarations_inside_cons {fault : Option Xml.Fault} {known t : Table Declaration}
    {event : Event} {rest : List Event}
    (read : readDeclarations fault .inside known (event :: rest) = .ok t) :
    (∃ name, event = .closing name ∧ readDeclarations fault .behind known rest = .ok t) ∨
      ∃ e name d more after, Leads fault (event :: rest) e after ∧ Declares e name d ∧
        addDeclaration known name d = .ok more ∧
        readDeclarations fault .inside more after = .ok t := by
  cases event with
  | closing name =>
    rw [readDeclarations] at read
    exact .inl ⟨name, rfl, read⟩
  | whole element text =>
    rw [readDeclarations] at read
    cases role : DocumentPlace.role .inside element with
    | schema => exact absurd role (role_inside_ne_schema element)
    | unknown => simp [role] at read
    | item kind =>
      simp only [role] at read
      obtain ⟨attributes, own, read⟩ := bind_eq_ok.mp read
      obtain ⟨name, named, read⟩ := bind_eq_ok.mp read
      obtain ⟨d, declared, read⟩ := bind_eq_ok.mp read
      obtain ⟨more, added, read⟩ := bind_eq_ok.mp read
      have declares : Declares ⟨element, text, []⟩ name d :=
        ⟨kind, attributes, [], role_inside role, own, named, .nil, declared⟩
      exact .inr ⟨_, name, d, more, rest, .whole element text rest, declares, added, read⟩
  | opening element text =>
    rw [readDeclarations] at read
    cases role : DocumentPlace.role .inside element with
    | schema => exact absurd role (role_inside_ne_schema element)
    | unknown => simp [role] at read
    | item kind =>
      simp only [role] at read
      obtain ⟨attributes, own, read⟩ := bind_eq_ok.mp read
      obtain ⟨name, named, read⟩ := bind_eq_ok.mp read
      split at read
      · exact absurd read throw_ne_ok
      · rename_i children after inner
        obtain ⟨d, declared, read⟩ := bind_eq_ok.mp read
        obtain ⟨more, added, read⟩ := bind_eq_ok.mp read
        have declares : Declares ⟨element, text, rest⟩ name d :=
          ⟨kind, attributes, children, role_inside role, own, named,
            (readChildren_elements inner).1, declared⟩
        exact .inr ⟨_, name, d, more, after, .opening text inner, declares, added, read⟩

theorem readDeclarations_inside {fault : Option Xml.Fault} {known t : Table Declaration}
    {events : List Event} (read : readDeclarations fault .inside known events = .ok t) :
    ∃ added, t.entries = known.entries ++ added ∧
      List.Forall₂ (fun e d => Declares e d.1 d.2) (elementsAt 0 events) added ∧
      elementsAt 1 events = [] := by
  induction bound : events.length using Nat.strongRecOn generalizing events known with
  | ind length ih =>
    cases events with
    | nil =>
      unfold readDeclarations at read
      cases fault with
      | some f => contradiction
      | none =>
        cases read
        exact ⟨[], by simp, .nil, rfl⟩
    | cons event rest =>
      rcases readDeclarations_inside_cons read with ⟨name, rfl, behind⟩ |
        ⟨e, name, d, more, after, leads, declares, added, tail⟩
      · obtain ⟨rfl, none⟩ := readDeclarations_behind behind
        exact ⟨[], by simp, .nil, none⟩
      · have shorter := leads.length_lt
        obtain ⟨further, entries, each, none⟩ := ih after.length (by omega) tail rfl
        refine ⟨(name, d) :: further, ?_, ?_, leads.elementsAt_one.trans none⟩
        · rw [entries, addDeclaration_eq_ok added]
          simp
        · rw [leads.elementsAt_zero]
          exact .cons declares each

theorem declarationsOf_begins {text : String} {t : Table Declaration}
    (read : declarationsOf text = .ok t) :
    ∃ attributes rest,
      (Reading.ofText text).events = .whole "schema" attributes :: rest ∧
        readDeclarations (Reading.ofText text).fault .behind .empty rest = .ok t ∨
      (Reading.ofText text).events = .opening "schema" attributes :: rest ∧
        readDeclarations (Reading.ofText text).fault .inside .empty rest = .ok t := by
  have opens := @readEvents_ne_closing text.toList
  unfold declarationsOf at read
  unfold Reading.ofText at read ⊢
  generalize readEvents [] text.toList = reading at opens read ⊢
  obtain ⟨events, fault⟩ := reading
  cases events with
  | nil =>
    unfold readDeclarations at read
    cases fault <;> simp at read
  | cons event rest =>
    cases event with
    | closing name => exact absurd rfl opens
    | whole element attributes =>
      rw [readDeclarations] at read
      by_cases isSchema : element = "schema"
      · simp only [isSchema, DocumentPlace.role, if_true] at read
        exact ⟨attributes, rest, .inl ⟨by rw [isSchema], read⟩⟩
      · simp [isSchema, DocumentPlace.role] at read
    | opening element attributes =>
      rw [readDeclarations] at read
      by_cases isSchema : element = "schema"
      · simp only [isSchema, DocumentPlace.role, if_true] at read
        exact ⟨attributes, rest, .inr ⟨by rw [isSchema], read⟩⟩
      · simp [isSchema, DocumentPlace.role] at read

/-- A document that is read has one outermost element, and the elements directly inside it declare
    the items, one each. -/
theorem declarationsOf_eq_ok {text : String} {t : Table Declaration}
    (read : declarationsOf text = .ok t) :
    ∃ schema, (Reading.ofText text).roots = [schema] ∧ schema.name = "schema" ∧
      List.Forall₂ (fun e d => Declares e d.1 d.2) schema.children t.entries := by
  obtain ⟨attributes, rest, ⟨whole, read⟩ | ⟨opened, read⟩⟩ := declarationsOf_begins read
  · obtain ⟨rfl, none⟩ := readDeclarations_behind read
    exact ⟨⟨"schema", attributes, []⟩, by simp [Reading.roots, whole, elementsAt, none], rfl, .nil⟩
  · obtain ⟨added, entries, each, none⟩ := readDeclarations_inside read
    have entries : t.entries = added := by simpa [Table.empty] using entries
    have roots : (Reading.ofText text).roots = [⟨"schema", attributes, rest⟩] := by
      simp [Reading.roots, opened, elementsAt, none]
    exact ⟨⟨"schema", attributes, rest⟩, roots, rfl, entries ▸ each⟩

end DataLayer.Schema
