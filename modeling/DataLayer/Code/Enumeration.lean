import DataLayer.Code.Fault
import DataLayer.Code.Layout
import DataLayer.Name

/- The code of an enumeration: one member for every declared value, written as the value itself. -/
namespace DataLayer.Code
open Schema

structure Member where
  value : String
  ident : String
  deriving DecidableEq, Repr

structure EnumerationCode where
  name : String
  description : Option String
  members : List Member
  deriving DecidableEq, Repr

/-- A value must be an identifier, and a lone underscore is none. -/
def memberOf (owner value : String) : Except Fault Member :=
  if Name.isAsciiIdent value ∧ value ≠ "_" then .ok ⟨value, Name.escape value⟩
  else .error
    (.clash ("enum " ++ owner ++ " member '" ++ value ++ "' is not a valid identifier"))

def enumerationCodeOf (name : String) (e : Enumeration) : Except Fault EnumerationCode :=
  return ⟨name, e.description, ← e.values.names.mapM (memberOf name)⟩

namespace EnumerationCode

def enumSteps (c : EnumerationCode) : List Step :=
  [.doc c.description,
   .line "#[derive(Debug, Clone, Copy, PartialEq, Eq, Hash)]",
   .line "#[allow(non_camel_case_types)]",
   .block ("pub enum " ++ c.name) (c.members.map fun m => .line (m.ident ++ ","))]

def methodSteps (c : EnumerationCode) : List Step :=
  [.block ("impl " ++ c.name)
    [.line "/// Members in declaration order.",
     .line ("pub const VALUES: &'static [Self] = &[" ++
       ", ".intercalate (c.members.map fun m => "Self::" ++ m.ident) ++ "];"),
     .blank,
     .line "/// Returns the member name.",
     .line "#[must_use]",
     .block "pub const fn as_str(&self) -> &'static str"
       [.block "match self"
         (c.members.map fun m => .line ("Self::" ++ m.ident ++ " => \"" ++ m.value ++ "\","))]]]

def displaySteps (c : EnumerationCode) : List Step :=
  [.block ("impl std::fmt::Display for " ++ c.name)
    [.block "fn fmt(&self, f: &mut std::fmt::Formatter<'_>) -> std::fmt::Result"
      [.line "f.write_str(self.as_str())"]]]

def parserSteps (c : EnumerationCode) : List Step :=
  [.block ("impl std::str::FromStr for " ++ c.name)
    [.line "type Err = String;",
     .blank,
     .block "fn from_str(s: &str) -> Result<Self, Self::Err>"
       [.block "match s"
         ((c.members.map fun m =>
             .line ("\"" ++ m.value ++ "\" => Ok(Self::" ++ m.ident ++ "),")) ++
          [.line ("other => Err(format!(\"unknown " ++ c.name ++ " member '\x7bother\x7d'\")),")])]]]

def body (c : EnumerationCode) : List Step :=
  c.enumSteps ++ [.blank] ++ c.methodSteps ++ [.blank] ++ c.displaySteps ++ [.blank] ++
    c.parserSteps

end EnumerationCode

end DataLayer.Code
