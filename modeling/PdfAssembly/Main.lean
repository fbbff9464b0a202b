import PdfAssembly.Cli.Program
import PdfAssembly.Cli.TimeZone
import PdfAssembly.Pdf.Decoding
import PdfAssembly.Pdf.Encoding
import Std.Time.DateTime.PlainDateTime
import Std.Time.DateTime.Timestamp

/-! The command. It looks at the files that its arguments name, runs the program on what it has
seen, writes the document that results, and prints the response. -/
namespace PdfAssembly.Command

open Pdf

def pathOf (place : List String) : String := "/" ++ "/".intercalate place

def look (place : List String) : IO (Option Node) := do
  try
    return some (.file (Content.ofFile (← IO.FS.readBinFile (pathOf place)).toList))
  catch
    | .noFileOrDirectory .. => return none
    | .inappropriateType .. => return some .directory
    | error => throw error

def explore (nodes : List (List String × Node)) (place : List String) :
    List String → IO (List (List String × Node))
  | [] => return nodes
  | ".." :: names => explore nodes place.dropLast names
  | name :: names => do
    if FileSystem.nameLimit < name.utf8ByteSize then return nodes
    let place := place ++ [name]
    match ← look place with
    | none => return nodes
    | some (.file content) => return Entries.put place (.file content) nodes
    | some .directory => explore (Entries.put place .directory nodes) place names

/-- The part of the file system that these paths lead through. -/
def filesAlong (paths : List String) : IO FileSystem := do
  let here := (← IO.currentDir).toString
  let home ← explore [] [] (Path.names here)
  let nodes ← paths.foldlM
    (fun nodes path => explore nodes (FileSystem.start ⟨here, []⟩ path) (Path.names path)) home
  return ⟨here, nodes⟩

def paths (arguments : List String) : List String :=
  match Arguments.parse arguments with
  | .error _ => []
  | .ok read => read.inputs ++ [read.output] ++ read.settingsFile.toList

def now : IO Moment := do
  let instant := (← Std.Time.Timestamp.now).toSecondsSinceUnixEpoch
  let offset := (TimeZone.ofSetting (← IO.getEnv "TZ")).offsetAt instant.val
  let clock := Std.Time.PlainDateTime.ofWallTime
    (.ofSeconds (Std.Time.Second.Offset.ofInt (instant.val + offset)))
  return {
    year := clock.year.toInt.toNat
    month := clock.month.val.toNat
    day := clock.day.val.toNat
    hour := clock.hour.val.toNat
    minute := clock.minute.val.toNat
    second := clock.second.val.toNat
    offset }

def store (files : FileSystem) : IO Unit :=
  files.nodes.forM fun (place, node) =>
    match node with
    | .file (.saved file) => IO.FS.writeBinFile (pathOf place) ⟨file.encode.toArray⟩
    | _ => return ()

def failureOf (error : IO.Error) : Failure :=
  let kind : IoKind := match error with
    | .noFileOrDirectory .. => .notFound
    | .permissionDenied .. => .permissionDenied
    | _ => .other
  .io ⟨kind, toString error⟩

def run (arguments : List String) : IO Program.Response := do
  try
    let (response, files) := Program.execute arguments (← now) (← filesAlong (paths arguments))
    store files
    return response
  catch error => return .ofFailure (failureOf error)

end PdfAssembly.Command

def main (arguments : List String) : IO UInt32 := do
  let response ← PdfAssembly.Command.run arguments
  IO.print response.output
  IO.eprint response.errors
  return response.exitCode.toUInt32
