import PdfAssembly.Pdf.PageTree

/-! Documents as a whole, and what a file may hold. -/
namespace PdfAssembly.Pdf

structure Document where
  version : String
  /-- The entries `Root`, `Info` and `Encrypt` of the trailer. -/
  root : Option Object
  info : Option Object
  encrypt : Option Object
  table : Table

def Document.pages (document : Document) : List Page := PageTree.pages document.table document.root

/-- A document as it is written to a file. The number belongs to the stream of cross
references, which is not among the objects. -/
structure SavedFile where
  version : String
  table : Table
  root : ObjectId
  info : ObjectId
  streamNumber : Nat

def SavedFile.document (file : SavedFile) : Document where
  version := file.version
  root := some (.reference file.root)
  info := some (.reference file.info)
  encrypt := none
  table := file.table

/-- The content of a file: a document, as found or as just written, or any other bytes. -/
inductive Content
  | document (document : Document)
  | saved (file : SavedFile)
  | raw (data : Bytes)

end PdfAssembly.Pdf
