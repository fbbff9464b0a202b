import PdfAssembly.Json.Fault
import PdfAssembly.Spec.Error

/-! Everything that can stop an assembly, each cause with what its message names. -/
namespace PdfAssembly

inductive IoKind
  | notFound
  | permissionDenied
  | other
deriving DecidableEq, Repr

/-- A failed operation on a file, in the operating system's words. -/
structure IoError where
  kind : IoKind
  text : String
deriving DecidableEq, Repr

namespace IoError

def noSuchFile : IoError := ⟨.notFound, "No such file or directory (os error 2)"⟩
def notADirectory : IoError := ⟨.other, "Not a directory (os error 20)"⟩
def isADirectory : IoError := ⟨.other, "Is a directory (os error 21)"⟩
def nameTooLong : IoError := ⟨.other, "File name too long (os error 36)"⟩
def nulInName : IoError := ⟨.other, "file name contained an unexpected NUL byte"⟩
def notText : IoError := ⟨.other, "stream did not contain valid UTF-8"⟩

end IoError

inductive LoadFault
  | invalidHeader
  | noCrossReferences
  | unreadable (error : IoError)
deriving DecidableEq, Repr

def LoadFault.message : LoadFault → String
  | invalidHeader => "couldn't parse input: invalid file header"
  | noCrossReferences => "failed parsing cross reference table: invalid start value"
  | unreadable error => s!"IO error: {error.text}"

inductive PdfFault
  /-- Pages count from 0 here and from 1 in messages. -/
  | pageNotFound (page : Nat) (name : String) (count : Nat)
  | outputPageNotFound (page count : Nat)
  | outputPageUnreadable (page : Nat)
  | unloadable (name : String) (fault : LoadFault)
  /-- A fault that a sink reports in its own words. -/
  | reported (detail : String)
deriving DecidableEq, Repr

def PdfFault.message : PdfFault → String
  | pageNotFound page name count =>
    s!"page {Numeral.write (page + 1)} not found in {name} ({Numeral.write count} pages)"
  | outputPageNotFound page count =>
    s!"output page {Numeral.write (page + 1)} not found (output has {Numeral.write count} pages)"
  | outputPageUnreadable page => s!"cannot rotate page {Numeral.write (page + 1)}"
  | unloadable name fault => s!"cannot load {name}: {fault.message}"
  | reported detail => detail

inductive SettingsFault
  | unreadable (path : String) (error : IoError)
  | unsupportedVersion (version : String)
  | reported (detail : String)
deriving DecidableEq, Repr

def SettingsFault.message : SettingsFault → String
  | unreadable path error => s!"cannot read {path}: {error.text}"
  | unsupportedVersion version => s!"unsupported pdf_version {Text.quote version}"
  | reported detail => detail

inductive Failure
  | spec (error : SpecError)
  | pdf (fault : PdfFault)
  | protectedDocument (name : String)
  /-- Documents count from 0. -/
  | documentOutOfRange (index available : Nat)
  | invalidInput (path : String)
  | outputExists (path : String)
  | outputIsDirectory (path : String)
  | settings (fault : SettingsFault)
  | io (error : IoError)
  | json (fault : Json.Fault)
deriving DecidableEq, Repr

def Failure.message : Failure → String
  | spec error => error.message
  | pdf fault => s!"PDF operation failed: {fault.message}"
  | protectedDocument name => s!"cannot load {name}: protected files are unsupported"
  | documentOutOfRange index available =>
    s!"document index {Numeral.write index} out of range " ++
      s!"({Numeral.write available} documents loaded)"
  | invalidInput path => s!"Invalid input file: {path}"
  | outputExists path => s!"{path} already exists. Use -f to force writing file."
  | outputIsDirectory path => s!"{path} is a directory, must be a file."
  | settings fault => s!"configuration error: {fault.message}"
  | io error => s!"file I/O error: {error.text}"
  | json fault => s!"serialization error: {fault.message}"

end PdfAssembly
