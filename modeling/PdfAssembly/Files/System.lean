import PdfAssembly.Files.Path
import PdfAssembly.Pdf.Source

/-! The files that a program sees: a tree of directories with a working directory in it. Paths
are resolved name by name, so that every name but the last has to be a directory that exists. -/
namespace PdfAssembly

open Pdf

inductive Node
  | directory
  | file (content : Content)

structure FileSystem where
  /-- The working directory as an absolute path. -/
  here : String
  /-- All that there is, by the names that lead to it from the root. -/
  nodes : List (List String × Node)

namespace FileSystem

def nameLimit : Nat := 255

def pathLimit : Nat := 4095

def checkPath (path : String) : Except IoError Unit :=
  if '\x00' ∈ path.toList then .error .nulInName
  else if path = "" then .error .noSuchFile
  else if pathLimit < path.utf8ByteSize then .error .nameTooLong
  else .ok ()

def node? (files : FileSystem) : List String → Option Node
  | [] => some .directory
  | names => Entries.find? names files.nodes

def child (directory : List String) (name : String) : Except IoError (List String) :=
  if nameLimit < name.utf8ByteSize then .error .nameTooLong else .ok (directory ++ [name])

def enter (files : FileSystem) (place : List String) (name : String) :
    Except IoError (List String) :=
  match files.node? place with
  | none => .error .noSuchFile
  | some (.file _) => .error .notADirectory
  | some .directory =>
    if name = "" ∨ name = "." then .ok place
    else if name = ".." then .ok place.dropLast
    else do
      let place ← child place name
      if (files.node? place).isSome then return place else .error .noSuchFile

def start (files : FileSystem) (path : String) : List String :=
  if Path.isAbsolute path then [] else Path.names files.here

def resolve (files : FileSystem) (path : String) : Except IoError (List String) := do
  checkPath path
  (Text.split '/' path).foldlM files.enter (files.start path)

def at? (files : FileSystem) (path : String) : Option Node :=
  match files.resolve path with
  | .ok place => files.node? place
  | .error _ => none

def isFile (files : FileSystem) (path : String) : Bool :=
  match files.at? path with
  | some (.file _) => true
  | _ => false

def isDirectory (files : FileSystem) (path : String) : Bool :=
  match files.at? path with
  | some .directory => true
  | _ => false

def exists? (files : FileSystem) (path : String) : Bool := (files.at? path).isSome

def read (files : FileSystem) (path : String) : Except IoError Content := do
  match files.node? (← files.resolve path) with
  | some (.file content) => return content
  | some .directory => .error .isADirectory
  | none => .error .noSuchFile

/-- The place for a file of this name in a directory. No slash may follow the name. -/
def place (files : FileSystem) (directory : List String) (name : String) (slash : Bool) :
    Except IoError (List String) := do
  match files.node? directory with
  | none => .error .noSuchFile
  | some (.file _) => .error .notADirectory
  | some .directory =>
    if slash ∨ name = "" ∨ name = "." ∨ name = ".." then .error .isADirectory
    else
      let place ← child directory name
      match files.node? place with
      | some .directory => .error .isADirectory
      | _ => return place

def target (files : FileSystem) (path : String) : Except IoError (List String) := do
  checkPath path
  let names := (Text.split '/' path).reverse
  let last := names.dropWhile (· = "")
  let directory ← last.tail.reverse.foldlM files.enter (files.start path)
  files.place directory (last.headD "") (last.length < names.length)

def put (files : FileSystem) (place : List String) (content : Content) : FileSystem :=
  { files with nodes := Entries.put place (.file content) files.nodes }

def write (files : FileSystem) (path : String) (content : Content) :
    Except IoError FileSystem := do
  return files.put (← files.target path) content

end FileSystem

/-- The text of a file, if it is one. Documents carry bytes that no text has. -/
def Pdf.Content.text? : Content → Option String
  | .raw data => String.fromUTF8? (ByteArray.mk data.toArray)
  | .document _ | .saved _ => none

end PdfAssembly
