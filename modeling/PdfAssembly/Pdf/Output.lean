import PdfAssembly.Pdf.Copy
import PdfAssembly.Pdf.Deflate
import PdfAssembly.Pdf.Moment
import PdfAssembly.Settings
import PdfAssembly.Spec.Turn

/-! The document being assembled. It starts with an empty page tree and a catalog; pages are
appended as copies, turned in place, and listed in the page tree when the document is saved. -/
namespace PdfAssembly.Pdf

structure Output where
  settings : Settings
  table : Table
  /-- The document's information dictionary, once it has been saved. -/
  info : Option ObjectId := none
  /-- The number of the next new object. -/
  next : Nat
  /-- The pages in order. -/
  pages : List ObjectId := []

namespace Output

def pagesNode : ObjectId := ⟨1, 0⟩
def catalog : ObjectId := ⟨2, 0⟩

def treeEntries (pages : List ObjectId) : Dictionary :=
  [(Name.type, .name Name.pages), (Name.kids, .array (pages.map .reference)),
    (Name.count, .integer pages.length)]

def empty (settings : Settings) : Output where
  settings
  table := OrderedMap.ofList
    [(pagesNode, .dictionary (treeEntries [])),
      (catalog, .dictionary [(Name.type, .name Name.catalog), (Name.pages, .reference pagesNode)])]
  next := 3

structure Appended where
  id : ObjectId
  output : Output
  /-- The copies that later pages of the same document share. -/
  shared : ObjectMap

/-- Appends a copy of a loaded page. The page's number comes before those of its objects. -/
def appendPage (output : Output) (source : Source) (page : Page) (shared : ObjectMap) : Appended :=
  let id : ObjectId := ⟨output.next, 0⟩
  let scope : CopyScope := ⟨source, page, id⟩
  let start : Copies := { shared, next := output.next + 1 }
  let copies := scope.discover start
    (Object.entryReferences (Page.flattened source.table page.entries))
  let table := (output.table.insertAll (scope.objectCopies copies)).insert id
    (scope.pageCopy copies pagesNode)
  { id, shared := copies.shared,
    output := { output with table, next := copies.next, pages := output.pages ++ [id] } }

def append (output : Output) (source : Source) (position : Nat) (shared : ObjectMap) :
    Except Failure Appended :=
  match source.pages[position]? with
  | some page => .ok (output.appendPage source page shared)
  | none => .error (.pdf (.pageNotFound position source.name source.pages.length))

/-- The rotation that a page states itself; one that is no integer does not count. -/
def statedRotation (page : Dictionary) : Int :=
  ((page.get? Name.rotate).bind Object.asInteger?).getD 0

def turnedPage (page : Dictionary) (turn : Turn) : Dictionary :=
  Dictionary.set Name.rotate (.integer ((statedRotation page + turn.degrees) % 360)) page

def turnPage (output : Output) (position : Nat) (turn : Turn) : Except Failure Output :=
  match output.pages[position]? with
  | none => .error (.pdf (.outputPageNotFound position output.pages.length))
  | some id =>
    match output.table.get? id with
    | some (.dictionary page) =>
      .ok { output with table := output.table.insert id (.dictionary (turnedPage page turn)) }
    | _ => .error (.pdf (.outputPageUnreadable position))

def listPages (output : Output) : Output :=
  match output.table.get? pagesNode with
  | some (.dictionary tree) =>
    let tree := Dictionary.set Name.kids (.array (output.pages.map .reference)) tree
    let tree := Dictionary.set Name.count (.integer output.pages.length) tree
    { output with table := output.table.insert pagesNode (.dictionary tree) }
  | _ => output

def producer : String := "pdfpipe 0.3.0"

def encoded (text : String) : Object := .literal text.toUTF8.toList

def infoEntries (settings : Settings) (moment : Moment) : Dictionary :=
  [(Name.title, encoded settings.title), (Name.author, encoded settings.author),
    (Name.producer, encoded producer)] ++
  if settings.stampDates then
    [(Name.creationDate, encoded moment.text), (Name.modDate, encoded moment.text)]
  else []

/-- The output with its information dictionary, which keeps its number once it has one. -/
def writeInfo (output : Output) (moment : Moment) : ObjectId × Output :=
  let entries := Object.dictionary (infoEntries output.settings moment)
  match output.info with
  | some id => (id, { output with table := output.table.insert id entries })
  | none =>
    let id : ObjectId := ⟨output.next, 0⟩
    (id, { output with table := output.table.insert id entries, info := some id,
                       next := output.next + 1 })

def filterCost : Nat := 19

/-- A stream without a filter is deflated if that makes the file shorter. -/
def deflated : Object → Object
  | .stream entries data =>
    let result := Deflate.deflate data.plain
    if Dictionary.contains entries Name.filter = false ∧
        result.length + filterCost < data.plain.length then
      let entries := Dictionary.set Name.filter (.name Name.flateDecode) entries
      .stream (Dictionary.set Name.length (.integer result.length) entries) ⟨data.plain, true⟩
    else .stream entries data
  | object => object

def deflateStreams (output : Output) : Output :=
  if output.settings.compress then { output with table := output.table.mapValues deflated }
  else output

/-- Completes the document and writes it; one number is used up by the cross references. -/
def save (output : Output) (moment : Moment) : SavedFile × Output :=
  let (info, output) := output.listPages.writeInfo moment
  let output := output.deflateStreams
  (⟨output.settings.version, output.table, catalog, info, output.next⟩,
    { output with next := output.next + 1 })

/-- The output as it stands. A reader finds the pages that were there when it was saved. -/
def document (output : Output) : Document where
  version := output.settings.version
  root := some (.reference catalog)
  info := output.info.map .reference
  encrypt := none
  table := output.table

end Output

end PdfAssembly.Pdf
