import DataLayer.Command

/- The program: a run of the generator on the files of the system. -/
namespace DataLayer.Main
open Storage

def faultOf : IO.Error → Storage.Fault
  | .noFileOrDirectory .. => .notFound
  | .alreadyExists .. => .alreadyExists
  | .inappropriateType _ code _ => if code = 21 then .isADirectory else .notADirectory
  | .invalidArgument _ 22 _ => .invalidArgument
  | .invalidArgument _ 36 _ => .invalidName
  | e => .other (toString e)

def attempt {α : Type} (action : IO α) : IO (Except Storage.Fault α) := do
  match ← action.toBaseIO with
  | .ok a => return .ok a
  | .error e => return .error (faultOf e)

def readText (path : String) : IO (Except Storage.Fault String) := do
  match ← attempt (IO.FS.readBinFile path) with
  | .error f => return .error f
  | .ok content =>
      match String.fromUTF8? content with
      | some text => return .ok text
      | none => return .error .notText

def makeDirectory (path : String) : IO (Except Storage.Fault Unit) := do
  match ← attempt (IO.FS.createDir path) with
  | .error .alreadyExists => attempt (IO.FS.createDirAll path)
  | result => return result

/-- Tries the path as a whole, and what is above it only if that is missing. -/
partial def makeDirectories (path : String) : IO (Except Storage.Fault Unit) := do
  if path.isEmpty then return .ok ()
  match ← makeDirectory path with
  | .error .notFound =>
      match ← makeDirectories (Path.parent path) with
      | .ok _ => makeDirectory path
      | failed => return failed
  | result => return result

def perform : Action → IO (Except Storage.Fault Unit)
  | .reset root => do
      match ← attempt (IO.FS.removeDirAll root) with
      | .ok _ | .error .notFound => makeDirectories root
      | failed => return failed
  | .write path text => do
      match ← makeDirectories (Path.parent path) with
      | .ok _ => attempt (IO.FS.writeFile path text)
      | failed => return failed

def performAll : List Action → IO (Except Storage.Fault Unit)
  | [] => return .ok ()
  | action :: rest => do
      match ← perform action with
      | .ok _ => performAll rest
      | failed => return failed

def run (l : Settings.Locations) : IO (Except Code.Fault Unit) := do
  match Command.treeOf (← readText l.schema) with
  | .error f => return .error f
  | .ok tree =>
      match ← performAll (tree.actions l.output) with
      | .ok _ => return .ok ()
      | .error f => return .error (.storage f)

def locations : IO Settings.Locations := do
  let schema ← IO.getEnv Settings.Locations.schemaVariable
  let output ← IO.getEnv Settings.Locations.outputVariable
  return .ofEnvironment fun key =>
    if key = Settings.Locations.schemaVariable then schema
    else if key = Settings.Locations.outputVariable then output
    else none

def start : IO UInt32 := do
  let l ← locations
  match ← run l with
  | .ok _ => return 0
  | .error f =>
      (← IO.getStderr).putStr (Command.report l f)
      return 1

end DataLayer.Main

def main : IO UInt32 := DataLayer.Main.start
