/-! Settings for assembling and writing the output document, their defaults, and the versions
of the file format that they may ask for. -/
namespace PdfAssembly

structure Settings where
  title : String := ""
  author : String := ""
  /-- Replace an existing output file without being told to. -/
  overwrite : Bool := false
  /-- Record when the document was made. -/
  stampDates : Bool := true
  version : String := "1.7"
  compress : Bool := false
deriving DecidableEq, Repr, Inhabited

namespace Settings

def supportedVersions : List String :=
  ["1.0", "1.1", "1.2", "1.3", "1.4", "1.5", "1.6", "1.7", "2.0"]

def Supported (settings : Settings) : Prop := settings.version ∈ supportedVersions

instance (settings : Settings) : Decidable settings.Supported :=
  inferInstanceAs (Decidable (_ ∈ supportedVersions))

inductive Field
  | title
  | author
  | overwrite
  | stampDates
  | version
  | compress
deriving DecidableEq, Repr

namespace Field

def all : List Field := [title, author, overwrite, stampDates, version, compress]

def key : Field → String
  | title => "title"
  | author => "author"
  | overwrite => "overwrite"
  | stampDates => "stamp_dates"
  | version => "pdf_version"
  | compress => "compress"

def ofKey? (key : String) : Option Field := all.find? fun field => field.key == key

@[simp] theorem ofKey?_key (field : Field) : ofKey? field.key = some field := by
  cases field <;> rfl

end Field

end Settings

end PdfAssembly
