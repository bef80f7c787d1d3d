/- What can be wrong with the markup of a document, whatever the document is about. A fault of
   syntax is markup that does not end; a fault of form is markup that ends but does not fit. -/
namespace DataLayer.Xml

inductive Fault
  | unknownMarkup
  | openInstruction
  | openDeclaration
  | openComment
  | openDoctype
  | openCData
  | openTag
  | openValue (quote : Char)
  | namelessDoctype
  | unmatchedClose (name : String)
  | mismatchedClose (expected found : String)
  | openReference
  deriving DecidableEq, Repr

namespace Fault

def isSyntactic : Fault → Bool
  | .namelessDoctype | .unmatchedClose _ | .mismatchedClose _ _ | .openReference => false
  | _ => true

def detail : Fault → String
  | .unknownMarkup => "unknown or missed symbol in markup"
  | .openInstruction => "processing instruction not closed: `?>` not found before end of input"
  | .openDeclaration => "XML declaration not closed: `?>` not found before end of input"
  | .openComment => "comment not closed: `-->` not found before end of input"
  | .openDoctype => "DOCTYPE not closed: `>` not found before end of input"
  | .openCData => "CDATA not closed: `]]>` not found before end of input"
  | .openTag => "tag not closed: `>` not found before end of input"
  | .openValue quote =>
      "attribute value not closed: `" ++ quote.toString ++ "` not found before end of input"
  | .namelessDoctype => "`<!DOCTYPE>` declaration does not contain a name of a document type"
  | .unmatchedClose name => "close tag `</" ++ name ++ ">` does not match any open tag"
  | .mismatchedClose expected found =>
      "expected `</" ++ expected ++ ">`, but `</" ++ found ++ ">` was found"
  | .openReference =>
      "entity or character reference not closed: `;` not found before end of input"

def message (f : Fault) : String :=
  (if f.isSyntactic then "syntax error: " else "ill-formed document: ") ++ f.detail

end Fault

end DataLayer.Xml
