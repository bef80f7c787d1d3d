import DataLayer.Code.Layout
import DataLayer.Name

/- A generated file: the item it is for, the `use` lines at its head and the lines of its body. Its
   module, its place in the tree and its text follow from these. -/
namespace DataLayer.Code

def banner : String := "// Generated by modelgen. Do not edit."

structure SourceFile where
  item : String
  uses : List String
  body : List String
  deriving DecidableEq, Repr

namespace SourceFile

def module (f : SourceFile) : String := Name.moduleName f.item

def path (f : SourceFile) : String := "model/" ++ Name.fileStem f.module ++ ".rs"

def header (f : SourceFile) : List String :=
  banner :: if f.uses.isEmpty then [] else "" :: f.uses

def content (f : SourceFile) : String := renderText f.header f.body

def exportLines (f : SourceFile) : List String :=
  ["mod " ++ f.module ++ ";", "pub use " ++ f.module ++ "::*;"]

end SourceFile

end DataLayer.Code
