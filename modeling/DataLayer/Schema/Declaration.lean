import DataLayer.Xml.Event
import DataLayer.Xml.Attribute
import DataLayer.Xml.Reference
import DataLayer.Schema.TypeExpr
import DataLayer.Schema.Fault

/- Items as a schema document declares them, with type expressions that are not yet resolved. The
   document holds one `schema` element with item elements in it, and an item element holds the
   properties, variants or values of the item. What stands inside those is not looked at. -/
namespace DataLayer.Schema
open Xml

structure PropertyDeclaration where
  name : String
  type : TypeExpr
  derivedFrom : Option String
  description : Option String
  deriving DecidableEq, Repr

inductive Declaration
  | entity (description : Option String) (properties : List PropertyDeclaration)
  | object (description : Option String) (properties : List PropertyDeclaration)
  | union (u : Union)
  | enumeration (e : Enumeration)

def Declaration.kind : Declaration → ItemKind
  | .entity _ _ => .entity
  | .object _ _ => .object
  | .union _ => .union
  | .enumeration _ => .enumeration

def ItemKind.child : ItemKind → String
  | .entity | .object => "property"
  | .union => "variant"
  | .enumeration => "value"

abbrev Attributes := Table String

def attributesOf (element : String) (text : List Char) : Except LoadFault Attributes :=
  (readAttributes [] text).foldlM
    (fun known a =>
      match resolve? a.value with
      | some value => .ok (known.insert a.key value)
      | none => .error (.invalidAttribute element a.key a.value))
    .empty

def required (attributes : Attributes) (element key : String) : Except LoadFault String :=
  match attributes.get? key with
  | some value => if value.isEmpty then .error (.missingAttribute element key) else .ok value
  | none => .error (.missingAttribute element key)

def endFault (fault : Option Xml.Fault) (otherwise : LoadFault) : LoadFault :=
  fault.elim otherwise .markup

/-- The attributes of the children of an item element, up to its end tag. At depth zero an event
    belongs to the item itself, deeper to the content of a child. -/
def readChildren (fault : Option Xml.Fault) (parent child : String) (depth : Nat) :
    List Event → Except LoadFault (List Attributes × List Event)
  | [] => .error (endFault fault (.endInside parent))
  | event :: rest =>
      match depth, event with
      | 0, .closing _ => .ok ([], rest)
      | 0, .whole name text =>
          if name = child then do
            let attributes ← attributesOf child text
            let (more, rest) ← readChildren fault parent child 0 rest
            return (attributes :: more, rest)
          else .error (.unknownElement name parent)
      | 0, .opening name text =>
          if name = child then do
            let attributes ← attributesOf child text
            let (more, rest) ← readChildren fault parent child 1 rest
            return (attributes :: more, rest)
          else .error (.unknownElement name parent)
      | inner + 1, .closing _ => readChildren fault parent child inner rest
      | inner + 1, .whole _ _ => readChildren fault parent child (inner + 1) rest
      | inner + 1, .opening _ _ => readChildren fault parent child (inner + 2) rest

theorem readChildren_length_lt {fault : Option Xml.Fault} {parent child : String} {depth : Nat}
    {events rest : List Event} {found : List Attributes}
    (read : readChildren fault parent child depth events = .ok (found, rest)) :
    rest.length < events.length := by
  induction events generalizing depth found with
  | nil => simp [readChildren] at read
  | cons event events ih =>
    have step : ∀ {d attributes},
        (do
          let a ← attributes
          let (more, rest) ← readChildren fault parent child d events
          return (a :: more, rest) : Except LoadFault (List Attributes × List Event)) =
            .ok (found, rest) → rest.length < (event :: events).length := by
      intro d attributes run
      cases attributes with
      | error e => simp [bind, Except.bind] at run
      | ok a =>
        cases tail : readChildren fault parent child d events with
        | error e => simp [bind, Except.bind, tail] at run
        | ok p =>
          simp only [bind, Except.bind, tail, pure, Except.pure, Except.ok.injEq,
            Prod.mk.injEq] at run
          obtain ⟨_, rfl⟩ := run
          have := ih tail
          simp only [List.length_cons]
          omega
    cases depth with
    | zero =>
      cases event with
      | closing name =>
        simp only [readChildren, Except.ok.injEq, Prod.mk.injEq] at read
        obtain ⟨_, rfl⟩ := read
        simp
      | whole name text | opening name text =>
        simp only [readChildren] at read
        split at read
        · exact step read
        · contradiction
    | succ inner =>
      cases event <;>
      · have := ih read
        simp only [List.length_cons]
        omega

def propertyOf (attributes : Attributes) : Except LoadFault PropertyDeclaration := do
  let name ← required attributes "property" "name"
  let text ← required attributes "property" "type"
  match TypeExpr.ofText? text with
  | some type =>
      return ⟨name, type, attributes.get? "derivedFrom", attributes.get? "description"⟩
  | none => throw (.invalidAttribute "property" "type" text)

def namesOf (item element duplicated : String) (children : List Attributes) :
    Except LoadFault NameSet :=
  children.foldlM
    (fun known attributes => do
      let name ← required attributes element "name"
      match known.insertNew? name with
      | some more => return more
      | none => throw (.duplicate duplicated (item ++ "." ++ name)))
    .empty

def declarationOf (kind : ItemKind) (name : String) (description : Option String)
    (children : List Attributes) : Except LoadFault Declaration :=
  match kind with
  | .entity => return .entity description (← children.mapM propertyOf)
  | .object => return .object description (← children.mapM propertyOf)
  | .union => return .union ⟨description, (← namesOf name "variant" "variant" children).names⟩
  | .enumeration =>
      return .enumeration ⟨description, ← namesOf name "value" "enum value" children⟩

def addDeclaration (known : Table Declaration) (name : String) (d : Declaration) :
    Except LoadFault (Table Declaration) :=
  (known.insertNew? name d).elim (.error (.duplicate "item" name)) .ok

inductive DocumentPlace
  | before
  | inside
  | behind
  deriving DecidableEq, Repr

namespace DocumentPlace

def context : DocumentPlace → String
  | .inside => "schema"
  | _ => "document"

/-- The place after an end tag. One that comes before any schema leaves all as it was. -/
def close : DocumentPlace → DocumentPlace
  | .before => .before
  | _ => .behind

end DocumentPlace

inductive ElementRole
  | schema
  | item (kind : ItemKind)
  | unknown
  deriving DecidableEq, Repr

def DocumentPlace.role (place : DocumentPlace) (element : String) : ElementRole :=
  match place, ItemKind.ofWord? element with
  | .inside, some kind => .item kind
  | .before, _ => if element = "schema" then .schema else .unknown
  | _, _ => .unknown

/-- Reads the declarations of a document from its events. The end of the document ends the schema
    too. -/
def readDeclarations (fault : Option Xml.Fault) (place : DocumentPlace)
    (known : Table Declaration) (events : List Event) :
    Except LoadFault (Table Declaration) :=
  match events with
  | [] =>
      match fault with
      | some f => .error (.markup f)
      | none => if place = .before then .error .noSchema else .ok known
  | .closing _ :: rest => readDeclarations fault place.close known rest
  | .whole element text :: rest =>
      match place.role element with
      | .schema => readDeclarations fault .behind known rest
      | .unknown => .error (.unknownElement element place.context)
      | .item kind => do
          let attributes ← attributesOf element text
          let name ← required attributes element "name"
          let declared ← declarationOf kind name (attributes.get? "description") []
          readDeclarations fault place (← addDeclaration known name declared) rest
  | .opening element text :: rest =>
      match place.role element with
      | .schema => readDeclarations fault .inside known rest
      | .unknown => .error (.unknownElement element place.context)
      | .item kind => do
          let attributes ← attributesOf element text
          let name ← required attributes element "name"
          match _h : readChildren fault element kind.child 0 rest with
          | .error e => throw e
          | .ok (children, rest) =>
              let declared ← declarationOf kind name (attributes.get? "description") children
              readDeclarations fault place (← addDeclaration known name declared) rest
termination_by events.length
decreasing_by
  all_goals simp_wf
  · have := readChildren_length_lt _h
    omega

def declarationsOf (text : String) : Except LoadFault (Table Declaration) :=
  let reading := Reading.ofText text
  readDeclarations reading.fault .before .empty reading.events

end DataLayer.Schema
