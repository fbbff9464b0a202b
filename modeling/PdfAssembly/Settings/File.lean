import PdfAssembly.Files.System
import PdfAssembly.Settings.Json

/-! Settings kept in a file. -/
namespace PdfAssembly.Settings

def check (settings : Settings) : Except Failure Settings :=
  if settings.Supported then .ok settings
  else .error (.settings (.unsupportedVersion settings.version))

/-- The settings in a file; the version they ask for is looked at last. -/
def load (files : FileSystem) (path : String) : Except Failure Settings :=
  match files.read path with
  | .error error => .error (.settings (.unreadable path error))
  | .ok content =>
    match content.text? with
    | none => .error (.settings (.unreadable path .notText))
    | some text =>
      match ofJson text with
      | .error fault => .error (.json fault)
      | .ok settings => check settings

end PdfAssembly.Settings
