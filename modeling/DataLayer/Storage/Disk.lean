import DataLayer.Storage.Directory
import DataLayer.Storage.Path

/- A disk without links: a tree of directories and files, and the working directory, from which
   paths lead. A directory that is removed while it is above the working directory, or is it, stays
   there for paths that begin inside: it is empty, nothing can be put into it, and `..` leads out of
   it to where it was. Whatever fails leaves behind what was done before it failed. -/
namespace DataLayer.Storage

/-- Where a path has come to. The last directories on the way there may be gone, and `lost` is how
    many of them are. -/
structure Position where
  place : List String
  lost : Nat
  deriving DecidableEq, Repr

def Position.follow (p : Position) : Part → Position
  | .root => ⟨[], 0⟩
  | .here => p
  | .up => ⟨p.place.dropLast, p.lost - 1⟩
  | .name text => ⟨p.place ++ [text], p.lost⟩

structure Disk where
  root : Directory
  working : List String
  lost : Nat := 0
  deriving DecidableEq

namespace Disk

def empty : Disk := { root := .withDirectory "work" .empty .empty, working := ["work"] }

def start (d : Disk) : Position := ⟨d.working, d.lost⟩

def entry? (d : Disk) (place : List String) : Option Entry := d.root.find? place

def at? (d : Disk) (p : Position) : Option Entry :=
  if p.lost = 0 then d.entry? p.place else some (.directory .empty)

def alter (d : Disk) (place : List String) (change : Directory → Directory) : Disk :=
  { d with root := d.root.alter change place }

def put (d : Disk) (place : List String) (e : Entry) : Disk :=
  match place.getLast? with
  | some name => d.alter place.dropLast (·.put name e)
  | none => d

/-- If the way to the working directory leads through a place, only so many of its directories are
    left. -/
def cut (d : Disk) (place : List String) (left : Nat) : Disk :=
  if place <+: d.working then { d with lost := max d.lost (d.working.length - left) } else d

def clear (d : Disk) (p : Position) : Disk :=
  if p.lost = 0 then (d.alter p.place fun _ => .empty).cut p.place p.place.length else d

def erase (d : Disk) (place : List String) : Disk :=
  match place.getLast? with
  | some name => (d.alter place.dropLast (·.erase name)).cut place place.dropLast.length
  | none => d

def step (d : Disk) (p : Position) (part : Part) : Except Fault Position :=
  match part, d.at? p with
  | .root, _ => .ok (p.follow .root)
  | _, none => .error .notFound
  | _, some (.file _) => .error .notADirectory
  | .here, some (.directory _) => .ok (p.follow .here)
  | .up, some (.directory _) =>
      -- fails only on a disk that lacks a directory above its working directory
      match d.at? (p.follow .up) with
      | some (.directory _) => .ok (p.follow .up)
      | _ => .error .notFound
  | .name text, some (.directory _) =>
      if p.lost ≠ 0 then .error .notFound
      else if text.utf8ByteSize > 255 then .error .invalidName
      else .ok (p.follow (.name text))

def walk (d : Disk) (parts : List Part) : Except Fault Position :=
  parts.foldlM d.step d.start

def locate (d : Disk) (path : String) : Except Fault Position := do
  Path.check path
  match Path.parts path with
  | [] => throw .notFound
  | parts => d.walk parts

def readText (d : Disk) (path : String) : Except Fault String := do
  match d.at? (← d.locate path) with
  | none => throw .notFound
  | some (.directory _) => throw .isADirectory
  | some (.file content) =>
      if Path.saysDirectory path then throw .notADirectory
      match String.fromUTF8? content with
      | some text => return text
      | none => throw .notText

def stays (parts : List Part) : Bool := !parts.isEmpty && parts.all (· == .here)

/-- Makes every directory on the way that is missing, but for one that a path only stays in: that
    has to be there already. `made` tells whether anything had to be made so far. If so, each part
    of the way is made by its own path, where a file stands in the way; if not, the whole path is
    made at once, and a file before its end is no directory to go through. -/
def makeFrom (d : Disk) (p : Position) (made : Bool) : List Part → Except Fault Unit × Disk
  | [] => (.ok (), d)
  | part :: rest =>
      match d.step p part with
      | .error f => (.error f, d)
      | .ok next =>
          match d.at? next with
          | some (.directory _) => makeFrom d next made rest
          | some (.file _) =>
              if rest.isEmpty || made && !stays rest then (.error .alreadyExists, d)
              else (.error .notADirectory, d)
          | none =>
              if stays rest then (.error .notFound, d)
              else makeFrom (d.put next.place (.directory .empty)) next true rest

def makeDirectories (d : Disk) (path : String) : Except Fault Unit × Disk :=
  match Path.check path with
  | .error f => (.error f, d)
  | .ok _ => d.makeFrom d.start false (Path.parts path)

def putFile (d : Disk) (path : String) (content : ByteArray) : Except Fault Disk := do
  Path.check path
  let parts := Path.parts path
  match parts.getLast? with
  | none => throw .notFound
  | some last =>
      let base ← d.walk parts.dropLast
      let _ ← d.step base .here
      if Path.saysDirectory path then throw .isADirectory
      let p ← d.step base last
      match d.at? p with
      | some (.directory _) => throw .isADirectory
      | _ => return d.put p.place (.file content)

def writeFile (d : Disk) (path : String) (content : ByteArray) : Except Fault Unit × Disk :=
  match d.makeDirectories (Path.parent path) with
  | (.error f, d) => (.error f, d)
  | (.ok _, d) =>
      match d.putFile path content with
      | .error f => (.error f, d)
      | .ok d => (.ok (), d)

/-- What becomes of removing an empty directory by a path that does not end with its name. -/
def refusal : Option Part → Fault
  | some .root => .other "Device or resource busy (os error 16)"
  | some .up => .other "Directory not empty (os error 39)"
  | _ => .invalidArgument

/-- Removes a directory and everything in it. It is emptied first, and then removed by its path,
    which may lead nowhere now if it led through something inside. A path that ends without a name
    leaves the directory empty. -/
def removeTree (d : Disk) (path : String) : Except Fault Unit × Disk :=
  match d.locate path with
  | .error f => (.error f, d)
  | .ok p =>
      match d.at? p with
      | none => (.error .notFound, d)
      | some (.file _) => (.error .notADirectory, d)
      | some (.directory _) =>
          let d := d.clear p
          match d.locate path, (Path.parts path).getLast? with
          | .error f, _ => (.error f, d)
          | .ok p, some (.name _) => (.ok (), d.erase p.place)
          | .ok _, last => (.error (refusal last), d)

end Disk

end DataLayer.Storage
