import PdfAssembly.Advice
import PdfAssembly.Cli.Arguments
import PdfAssembly.Cli.PlanText
import PdfAssembly.Files.Access
import PdfAssembly.Settings.File
import PdfAssembly.Store

/-! The whole program: from arguments, files and the time to what is printed and the files
afterwards. Files change in one place only, after every other step has succeeded. -/
namespace PdfAssembly

open Pdf

inductive Outcome
  | saved (path : String) (pages : Nat)
  | planned (plan : Plan)

namespace Program

def settings (arguments : Arguments) (files : FileSystem) : Except Failure Settings := do
  let settings ← match arguments.settingsFile with
    | some path => Settings.load files path
    | none => .ok {}
  return arguments.applyTo settings

/-- The output is looked at first, and not at all when nothing is to be written. -/
def checkPaths (arguments : Arguments) (settings : Settings) (files : FileSystem) :
    Except Failure Unit := do
  if ¬ arguments.dryRun then files.checkOutput arguments.output settings.overwrite
  arguments.inputs.forM files.checkInput

def openInput (files : FileSystem) (path : String) : Except Failure Source :=
  let name := (Path.fileName? path).getD path
  match files.read path with
  | .ok content => Source.load name content
  | .error error => .error (.pdf (.unloadable name (.unreadable error)))

def prepare (arguments : Arguments) (files : FileSystem) : Except Failure Store := do
  let settings ← settings arguments files
  checkPaths arguments settings files
  let sources ← arguments.inputs.mapM (openInput files)
  return Store.ofSources sources settings

def run (arguments : Arguments) (now : Moment) (files : FileSystem) :
    Except Failure Outcome × FileSystem :=
  match prepare arguments files with
  | .error failure => (.error failure, files)
  | .ok store =>
    if arguments.dryRun then
      ((Pipeline.plan arguments.selection arguments.rotation store).map .planned, files)
    else
      match Pipeline.run arguments.selection arguments.rotation store with
      | (.error failure, _) => (.error failure, files)
      | (.ok summary, store) =>
        match files.write arguments.output (.saved (store.save now).1) with
        | .error error => (.error (.io error), files)
        | .ok files =>
          (.ok (.saved (Path.absolute files.here arguments.output) summary.outputPages), files)

structure Response where
  exitCode : Nat
  output : String
  errors : String
deriving DecidableEq, Repr

def version : String := "pdfpipe 0.3.0\n"

def usage : String :=
  "Usage: pdfpipe [OPTIONS] --input <FILES>... --output <PATH>\n"

def Response.ofFailure (failure : Failure) : Response :=
  let advice := Advice.ofFailure failure
  ⟨1, "", s!"{advice.message}\n  {advice.suggestion}\n"⟩

def respondTo (arguments : Arguments) : Except Failure Outcome → Response
  | .ok (.saved path _) => ⟨0, s!"Saved output file to: {path}\n", ""⟩
  | .ok (.planned plan) => ⟨0, if arguments.json then plan.json.pretty 0 ++ "\n" else plan.text, ""⟩
  | .error failure => .ofFailure failure

/-- Arguments that cannot be read end the program before any file is looked at. -/
def execute (arguments : List String) (now : Moment) (files : FileSystem) : Response × FileSystem :=
  match Arguments.parse arguments with
  | .error .helpWanted => (⟨0, usage, ""⟩, files)
  | .error .versionWanted => (⟨0, version, ""⟩, files)
  | .error _ => (⟨2, "", usage⟩, files)
  | .ok arguments =>
    let (result, files) := run arguments now files
    (respondTo arguments result, files)

end Program

end PdfAssembly
