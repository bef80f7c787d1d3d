import DataLayer.Code.Tree
import DataLayer.Settings.Locations
import DataLayer.Storage.Action

/- A run of the generator: the schema is read and checked, the whole tree is generated, and only
   then is anything written. What is known of a failure is reported as its context and its
   causes. -/
namespace DataLayer
open Schema Code Storage Settings

def Schema.Model.ofFile (text : Except Storage.Fault String) : Except LoadFault Model :=
  match text with
  | .ok text => Model.ofText text
  | .error f => .error (.storage f)

def Schema.Model.load (text : Except Storage.Fault String) : Except ModelFault Model := do
  match Model.ofFile text with
  | .error f => throw (.load f)
  | .ok m =>
      m.validate
      return m

def Code.generateFile (text : Except Storage.Fault String) : Except Code.Fault Tree :=
  match text with
  | .ok text => generateText text
  | .error f => .error (.storage f)

def Code.Tree.actions (t : Tree) (root : String) : List Action :=
  .reset root :: t.writtenFiles.map fun f => .write (Path.join root f.1) f.2

namespace Command

def treeOf (text : Except Storage.Fault String) : Except Code.Fault Tree := do
  generate (← ofModel (Model.load text))

def run (l : Locations) (d : Disk) : Except Code.Fault Tree × Disk :=
  match treeOf (d.readText l.schema) with
  | .error f => (.error f, d)
  | .ok tree =>
      match d.performAll (tree.actions l.output) with
      | (.error f, d) => (.error (.storage f), d)
      | (.ok _, d) => (.ok tree, d)

def indented (indentation : String) (text : String) : String :=
  ("\n" ++ indentation).intercalate (text.splitOn "\n")

def causeLines (causes : List String) : List String :=
  match causes with
  | [cause] => ["    " ++ indented "    " cause]
  | _ => causes.mapIdx fun n cause => "    " ++ toString n ++ ": " ++ indented "       " cause

def report (l : Locations) (f : Code.Fault) : String :=
  "Error: failed to generate " ++ l.output ++ " from " ++ l.schema ++ "\n\nCaused by:\n" ++
    String.join ((causeLines f.chain).map (· ++ "\n"))

end Command

end DataLayer
