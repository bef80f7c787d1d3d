import DataLayer.Xml.Markup

/- A document as the elements it opens and closes. Text, comments and other silent markup leave no
   event. A document with a fault still has the events before the fault, so that its reader can
   find something else wrong first. -/
namespace DataLayer.Xml

inductive Event
  | opening (name : String) (attributes : List Char)
  | whole (name : String) (attributes : List Char)
  | closing (name : String)
  deriving DecidableEq, Repr

structure Reading where
  events : List Event
  fault : Option Fault
  deriving DecidableEq, Repr

namespace Reading

def done : Reading := ⟨[], none⟩

def stopped (f : Fault) : Reading := ⟨[], some f⟩

def cons (e : Event) (r : Reading) : Reading := ⟨e :: r.events, r.fault⟩

end Reading

def afterReference? : List Char → Option (List Char)
  | [] => none
  | c :: rest =>
      if c = ';' then some rest
      else if c = '&' ∨ c = '<' then none
      else afterReference? rest

theorem afterReference?_suffix {s rest : List Char} (ended : afterReference? s = some rest) :
    rest <:+ s := by
  induction s with
  | nil => simp [afterReference?] at ended
  | cons c s ih =>
    simp only [afterReference?] at ended
    split at ended
    · exact Option.some.inj ended ▸ List.suffix_cons c s
    · split at ended
      · contradiction
      · exact (ih ended).trans (List.suffix_cons c s)

/-- Reads the rest of a document inside the elements `within`, innermost first. Each closing tag
    must name the innermost of them. Elements may stay open at the end. -/
def readEvents (within : List String) (s : List Char) : Reading :=
  match s with
  | [] => .done
  | '&' :: rest =>
      match _h : afterReference? rest with
      | none => .stopped .openReference
      | some rest => readEvents within rest
  | '<' :: rest =>
      match _h : readMarkup rest with
      | .error f => .stopped f
      | .ok (.silent, rest) => readEvents within rest
      | .ok (.whole name attributes, rest) =>
          .cons (.whole name attributes) (readEvents within rest)
      | .ok (.opening name attributes, rest) =>
          .cons (.opening name attributes) (readEvents (name :: within) rest)
      | .ok (.closing name, rest) =>
          match within with
          | [] => .stopped (.unmatchedClose name)
          | expected :: outer =>
              if expected = name then .cons (.closing name) (readEvents outer rest)
              else .stopped (.mismatchedClose expected name)
  | _ :: rest => readEvents within rest
termination_by s.length
decreasing_by
  all_goals simp_wf
  · have := (afterReference?_suffix _h).length_le; omega
  all_goals (try have := readMarkup_length_lt _h); omega

def Reading.ofText (text : String) : Reading := readEvents [] text.toList

end DataLayer.Xml
