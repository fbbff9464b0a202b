import PdfAssembly.Files.System

/-! Which paths may be read from or written to. -/
namespace PdfAssembly.FileSystem

/-- An input is an existing file with a name that ends in `.pdf`. -/
def checkInput (files : FileSystem) (path : String) : Except Failure Unit :=
  if files.isFile path ∧ (Path.fileName? path).any (Path.endsWith ".pdf") then .ok ()
  else .error (.invalidInput path)

/-- An output is no directory and, unless it may be replaced, nothing that exists. -/
def checkOutput (files : FileSystem) (path : String) (overwrite : Bool) : Except Failure Unit :=
  if files.isDirectory path then .error (.outputIsDirectory (Path.absolute files.here path))
  else if files.exists? path ∧ ¬ overwrite then
    .error (.outputExists (Path.absolute files.here path))
  else .ok ()

end PdfAssembly.FileSystem
