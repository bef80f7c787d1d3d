import DataLayer.Storage.Fault

/- Paths by their parts. Slashes separate parts, and several of them are as good as one. -/
namespace DataLayer.Storage

inductive Part
  | root
  | here
  | up
  | name (text : String)
  deriving DecidableEq, Repr

namespace Path

def split : List Char → List (List Char)
  | [] => [[]]
  | c :: rest =>
      if c = '/' then [] :: split rest
      else match split rest with
        | first :: more => (c :: first) :: more
        | [] => [[c]]

def partOf (name : List Char) : Part :=
  if name = ['.'] then .here
  else if name = ['.', '.'] then .up
  else .name (String.ofList name)

def parts (path : String) : List Part :=
  let steps := ((split path.toList).filter (!·.isEmpty)).map partOf
  if path.toList.head? = some '/' then .root :: steps else steps

def plainParts (path : String) : List Part :=
  match parts path with
  | [] => []
  | first :: rest => first :: rest.filter (· ≠ .here)

def same (a b : String) : Bool := plainParts a == plainParts b

def isAbsolute (path : String) : Bool := path.toList.head? == some '/'

def saysDirectory (path : String) : Bool := path.toList.getLast? == some '/'

/-- The path of what is found at the second path below the first. -/
def join (base path : String) : String :=
  if isAbsolute path || base.isEmpty then path
  else if saysDirectory base then base ++ path
  else base ++ "/" ++ path

def idle (name : List Char) : Bool := name.isEmpty || name == ['.']

def unsplit (names : List (List Char)) : String := "/".intercalate (names.map String.ofList)

/-- The path of the directory that holds what the path leads to, as far as it is written. A single
    name is held by nothing that would have to be named. -/
def parent (path : String) : String :=
  match split path.toList with
  | [] => ""
  | first :: rest =>
      match rest.reverse.dropWhile idle with
      | [] => ""
      | _ :: above => unsplit (first :: (above.dropWhile idle).reverse)

def sizeLimit : Nat := 4096

def check (path : String) : Except Fault Unit :=
  if path.toList.contains '\x00' then .error .nullInPath
  else if path.utf8ByteSize ≥ sizeLimit then .error .invalidName
  else .ok ()

end Path

end DataLayer.Storage
