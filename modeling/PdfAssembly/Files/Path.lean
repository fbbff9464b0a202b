import PdfAssembly.Text.Pieces

/-! Paths as texts: the names in them, the name of the file, and the absolute form. -/
namespace PdfAssembly.Path

/-- The names in a path without those that lead nowhere. -/
def names (path : String) : List String :=
  (Text.split '/' path).filter fun name => name ≠ "" ∧ name ≠ "."

def startsWith (start text : String) : Bool := start.toList.isPrefixOf text.toList

def endsWith (suffix text : String) : Bool :=
  suffix.toList.reverse.isPrefixOf text.toList.reverse

def isAbsolute (path : String) : Bool := startsWith "/" path

def fileName? (path : String) : Option String :=
  match (names path).getLast? with
  | some ".." => none
  | name => name

def append (path name : String) : String :=
  if endsWith "/" path then path ++ name else path ++ "/" ++ name

/-- What relative names in a path start from. Two slashes at its start are not the same as one,
three or more are. -/
def base (here path : String) : String :=
  if ¬ isAbsolute path then here
  else if startsWith "//" path ∧ ¬ startsWith "///" path then "//"
  else "/"

/-- The path from the root on. Names that go up and a slash at the end stay. -/
def absolute (here path : String) : String :=
  if path = "" then path
  else
    let joined := (names path).foldl append (base here path)
    if endsWith "/" path then append joined "" else joined

end PdfAssembly.Path
