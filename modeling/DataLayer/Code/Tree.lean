import DataLayer.Code.Item
import DataLayer.Schema.Resolution
import DataLayer.Schema.Validation
import DataLayer.Support.Resource

/- A generated tree: one file for every item of the model in the order of declaration, and the
   support modules that the files rely on. Beside the files stand the module that exports all of
   them and the module at the root. -/
namespace DataLayer.Code
open Schema Support

def modelModule : String := "model"

structure Tree where
  files : List ItemFile
  resources : List Resource
  deriving DecidableEq, Repr

namespace Tree

def sources (t : Tree) : List SourceFile := t.files.map ItemFile.source

def file? (t : Tree) (item : String) : Option SourceFile := t.sources.find? (·.item = item)

def hasResource (t : Tree) (module : String) : Bool :=
  t.resources.any (·.module = module)

def barrel (t : Tree) : String :=
  renderText [banner] (t.sources.flatMap SourceFile.exportLines)

def rootModules (t : Tree) : List String :=
  (t.resources.map Resource.module ++ [modelModule]).mergeSort (· ≤ ·)

def rootModule (t : Tree) : String :=
  renderText [banner] (t.rootModules.map fun m => "pub mod " ++ m ++ ";")

def writtenFiles (t : Tree) : List (String × String) :=
  t.resources.map (fun r => (r.fileName, r.content)) ++
    t.sources.map (fun f => (f.path, f.content)) ++
    [(modelModule ++ ".rs", t.barrel), ("mod.rs", t.rootModule)]

end Tree

def itemFiles (m : Model) (variants : List String) (modules : Scope) :
    List (String × Item) → Except Fault (List ItemFile)
  | [] => .ok []
  | (name, item) :: rest => do
      let file ← itemFileOf m variants name item
      let modules ← modules.claim file.source.module name
      return file :: (← itemFiles m variants modules rest)

/-- Helpers for JSON records come with the first item that reads them. -/
def supportOf (files : List ItemFile) : List Resource :=
  [.orm, .dbConfig] ++ if files.any (·.code.readsRecords) then [.marshal] else []

def generate (m : Model) : Except Fault Tree := do
  let files ← itemFiles m m.variantNames (.new modelModule) m.items.entries
  return ⟨files, supportOf files⟩

def generateText (text : String) : Except Fault Tree := do
  let m ← match Model.ofText text with
    | .ok m => .ok m
    | .error f => .error (.load f)
  ofModel m.validate
  generate m

end DataLayer.Code
