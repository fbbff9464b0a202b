import PdfAssembly.Failure
import PdfAssembly.Pdf.Document

/-! Documents as input: the pages and objects that loading finds in the content of a file. -/
namespace PdfAssembly.Pdf

/-- A loaded document. Pages come with the dictionaries that their identifiers stand for. -/
structure Source where
  /-- The file's name, for messages. -/
  name : String
  table : Table
  pages : List Page

namespace Source

def isPage (source : Source) (id : ObjectId) : Bool := source.pages.any fun page => page.id == id

def fromFirst? (start : Bytes) : Bytes → Option Bytes
  | [] => none
  | byte :: rest =>
    if start.isPrefixOf (byte :: rest) then some (byte :: rest) else fromFirst? start rest

def isLineEnd (byte : UInt8) : Bool := byte == 10 || byte == 13

/-- The version that a header names: the text between the format's mark and a line end. -/
def version? (data : Bytes) : Option String := do
  let header ← fromFirst? (bytes "%PDF-") data
  if header.any isLineEnd then
    String.fromUTF8? ⟨((header.drop 5).takeWhile fun byte => !isLineEnd byte).toArray⟩
  else none

/-- An encrypted document is refused when the object that is to tell how is a dictionary;
otherwise nothing in it can be read. -/
def ofDocument (name : String) (document : Document) : Except Failure Source :=
  match document.encrypt with
  | none => .ok ⟨name, document.table, document.pages⟩
  | some encrypt =>
    match encrypt.asReference?.bind document.table.get? with
    | some (.dictionary _) => .error (.protectedDocument name)
    | _ => .ok ⟨name, ∅, []⟩

def load (name : String) : Content → Except Failure Source
  | .document document => ofDocument name document
  | .saved file => ofDocument name file.document
  | .raw data =>
    .error (.pdf (.unloadable name
      (if (version? data).isSome then .noCrossReferences else .invalidHeader)))

end Source

end PdfAssembly.Pdf
