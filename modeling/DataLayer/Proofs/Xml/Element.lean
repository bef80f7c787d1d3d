import DataLayer.Xml.Event

/- The elements of a document, seen level by level. An element is its tag together with all that
   comes after the tag; what is directly inside it is found by counting tags, so that a document
   that ends early has elements like any other. -/
namespace DataLayer.Xml

structure Element where
  name : String
  attributes : List Char
  content : List Event
  deriving DecidableEq, Repr

/-- The elements of one level, read from where `depth` elements are open below that level. The
    level ends where the element around it is closed. -/
def elementsAt : Nat → List Event → List Element
  | _, [] => []
  | 0, .closing _ :: _ => []
  | 0, .whole name attributes :: rest => ⟨name, attributes, []⟩ :: elementsAt 0 rest
  | 0, .opening name attributes :: rest => ⟨name, attributes, rest⟩ :: elementsAt 1 rest
  | depth + 1, .closing _ :: rest => elementsAt depth rest
  | depth + 1, .whole _ _ :: rest => elementsAt (depth + 1) rest
  | depth + 1, .opening _ _ :: rest => elementsAt (depth + 2) rest

def Element.children (e : Element) : List Element := elementsAt 0 e.content

def Reading.roots (r : Reading) : List Element := elementsAt 0 r.events

theorem readEvents_ne_closing {s : List Char} {name : String} {rest : List Event} :
    (readEvents [] s).events ≠ .closing name :: rest := by
  generalize outermost : ([] : List String) = within
  fun_induction readEvents within s with
  | case1 => simp [Reading.done]
  | case2 => simp [Reading.stopped]
  | case3 within rest after ended ih => exact ih outermost
  | case4 => simp [Reading.stopped]
  | case5 within rest after read ih => exact ih outermost
  | case6 => simp [Reading.cons]
  | case7 => simp [Reading.cons]
  | case8 => simp [Reading.stopped]
  | case9 => contradiction
  | case10 => simp [Reading.stopped]
  | case11 within c rest notReference notMarkup ih => exact ih outermost

end DataLayer.Xml
