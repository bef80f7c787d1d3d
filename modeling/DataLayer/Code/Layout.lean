import DataLayer.Text.Lines

/- Source text as steps that emit indented lines. A step is run at a level of indentation and says
   which lines it adds and at which level the next step runs. -/
namespace DataLayer.Code
open Text

def indentUnit : String := "    "

inductive Step
  | line (text : String)
  | blank
  | indent
  | dedent
  | block (header : String) (body : List Step)
  | doc (description : Option String)
  deriving Repr, Inhabited

def indentation : Nat → String
  | 0 => ""
  | level + 1 => indentUnit ++ indentation level

def indented (level : Nat) (text : String) : String :=
  if text.isEmpty then "" else indentation level ++ text

/-- The comment lines of a description. A carriage return at the end of a line is dropped and an
    empty line has no space behind its slashes. -/
def docLines (description : String) : List String :=
  (splitLines description.toList).map fun line =>
    match dropReturn line with
    | [] => "///"
    | text => "/// " ++ String.ofList text

mutual

def Step.emit (level : Nat) : Step → List String × Nat
  | .line text => ([indented level text], level)
  | .blank => ([""], level)
  | .indent => ([], level + 1)
  | .dedent => ([], level - 1)
  | .block header body =>
      let inner := emitAll (level + 1) body
      let outer := inner.2 - 1
      (indented level (header ++ " \x7b") :: (inner.1 ++ [indented outer "\x7d"]), outer)
  | .doc description => ((description.elim [] docLines).map (indented level), level)

def emitAll (level : Nat) : List Step → List String × Nat
  | [] => ([], level)
  | step :: rest =>
      let first := step.emit level
      let others := emitAll first.2 rest
      (first.1 ++ others.1, others.2)

end

def emitted (steps : List Step) : List String := (emitAll 0 steps).1

theorem emitAll_append (level : Nat) (a b : List Step) :
    emitAll level (a ++ b) =
      ((emitAll level a).1 ++ (emitAll (emitAll level a).2 b).1,
        (emitAll (emitAll level a).2 b).2) := by
  induction a generalizing level with
  | nil => simp [emitAll]
  | cons step rest ih => simp [emitAll, ih]

def unlines (lines : List String) : String := String.join (lines.map (· ++ "\n"))

def renderText (header body : List String) : String :=
  unlines header ++ (if header.isEmpty || body.isEmpty then "" else "\n") ++ unlines body

end DataLayer.Code
