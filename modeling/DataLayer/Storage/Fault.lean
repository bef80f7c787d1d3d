/- What can go wrong with a file or a directory, with the texts that the system gives. -/
namespace DataLayer.Storage

inductive Fault
  | notFound
  | isADirectory
  | notADirectory
  | alreadyExists
  | invalidName
  | nullInPath
  | invalidArgument
  | notText
  | other (text : String)
  deriving DecidableEq, Repr

def Fault.message : Fault → String
  | .notFound => "No such file or directory (os error 2)"
  | .isADirectory => "Is a directory (os error 21)"
  | .notADirectory => "Not a directory (os error 20)"
  | .alreadyExists => "File exists (os error 17)"
  | .invalidName => "File name too long (os error 36)"
  | .nullInPath => "file name contained an unexpected NUL byte"
  | .invalidArgument => "Invalid argument (os error 22)"
  | .notText => "stream did not contain valid UTF-8"
  | .other text => text

end DataLayer.Storage
