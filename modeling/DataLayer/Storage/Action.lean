import DataLayer.Storage.Disk

/- What is done to a disk in order to write a tree of files: one directory is emptied, then files
   are written one after another. Nothing is done after the first action that fails. -/
namespace DataLayer.Storage

inductive Action
  | reset (root : String)
  | write (path text : String)
  deriving DecidableEq, Repr

namespace Disk

/-- A directory that is not there need not be removed before it is made. -/
def reset (d : Disk) (root : String) : Except Fault Unit × Disk :=
  match d.removeTree root with
  | (.ok _, d) | (.error .notFound, d) => d.makeDirectories root
  | failed => failed

def perform (d : Disk) : Action → Except Fault Unit × Disk
  | .reset root => d.reset root
  | .write path text => d.writeFile path text.toUTF8

def performAll (d : Disk) : List Action → Except Fault Unit × Disk
  | [] => (.ok (), d)
  | action :: rest =>
      match d.perform action with
      | (.ok _, d) => d.performAll rest
      | failed => failed

end Disk

end DataLayer.Storage
