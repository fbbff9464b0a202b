import PdfAssembly.Settings

/-! The arguments of the command line. Options that take many values take all that follow up to
the next argument that starts with a hyphen, and may come again; everything else comes once. -/
namespace PdfAssembly

structure Arguments where
  inputs : List String
  selection : List String := []
  rotation : List String := []
  output : String
  title : Option String := none
  author : Option String := none
  settingsFile : Option String := none
  force : Bool := false
  dryRun : Bool := false
  json : Bool := false
  verbosity : Nat := 0
deriving DecidableEq, Repr

/-- Why arguments were not accepted; asking for help or the version also ends the reading. -/
inductive ArgumentFault
  | helpWanted
  | versionWanted
  | unknownArgument
  | invalidValue
  | tooManyValues
  | conflict
  | missingRequired
deriving DecidableEq, Repr

namespace Arguments

inductive ListOption
  | inputs
  | selection
  | rotation
deriving DecidableEq, Repr

inductive ValueOption
  | output
  | title
  | author
  | settingsFile
deriving DecidableEq, Repr

inductive Flag
  | force
  | dryRun
  | json
deriving DecidableEq, Repr

inductive Switch
  | many (option : ListOption)
  | one (option : ValueOption)
  | flag (flag : Flag)
  | verbose
  | help
  | version
deriving DecidableEq, Repr

namespace Switch

def all : List (Switch × String × Option Char) :=
  [(many .inputs, "input", some 'i'), (many .selection, "structure", some 's'),
    (many .rotation, "rotate", some 'r'), (one .output, "output", some 'o'),
    (flag .force, "force", some 'f'), (one .title, "title", some 't'),
    (one .author, "author", some 'a'), (one .settingsFile, "config", none),
    (flag .dryRun, "dry-run", none), (flag .json, "json", none), (verbose, "verbose", some 'v'),
    (help, "help", some 'h'), (version, "version", some 'V')]

def ofName? (name : String) : Option Switch := (all.find? fun entry => entry.2.1 = name).map (·.1)

def ofLetter? (letter : Char) : Option Switch :=
  (all.find? fun entry => entry.2.2 = some letter).map (·.1)

def takesValues : Switch → Bool
  | many _ | one _ => true
  | _ => false

end Switch

/-- What one argument says, taken by itself. -/
inductive Word
  | value (text : String)
  /-- An option, perhaps with a value attached to it. -/
  | switch (switch : Switch) (attached : Option String)
  /-- An option that takes no value, with one. -/
  | unneededValue
  | unknown
  /-- Two hyphens alone, behind which there are no options. -/
  | separator
deriving DecidableEq, Repr

namespace Word

/-- The letters behind one hyphen. The rest behind a letter that takes values is its value, of
which a leading equals sign is no part. -/
def ofLetters : List Char → List Word
  | [] => []
  | letter :: rest =>
    match Switch.ofLetter? letter with
    | none => [unknown]
    | some option =>
      if option.takesValues then
        match rest with
        | [] => [switch option none]
        | '=' :: text => [switch option (some (String.ofList text))]
        | text => [switch option (some (String.ofList text))]
      else switch option none :: ofLetters rest

def ofLong (text : List Char) : Word :=
  let name := String.ofList (text.takeWhile (· ≠ '='))
  let attached := match text.dropWhile (· ≠ '=') with
    | [] => none
    | _ :: behind => some (String.ofList behind)
  match Switch.ofName? name with
  | none => unknown
  | some option =>
    if ¬ option.takesValues ∧ attached.isSome then unneededValue else switch option attached

def ofArgument (argument : String) : List Word :=
  match argument.toList with
  | ['-'] => [value argument]
  | ['-', '-'] => [separator]
  | '-' :: '-' :: text => [ofLong text]
  | '-' :: letters => ofLetters letters
  | _ => [value argument]

end Word

structure Partial where
  inputs : List String := []
  selection : List String := []
  rotation : List String := []
  output : Option String := none
  title : Option String := none
  author : Option String := none
  settingsFile : Option String := none
  flags : List Flag := []
  verbosity : Nat := 0
deriving DecidableEq, Repr

def verbosityLimit : Nat := 255

namespace Partial

/-- Adds the values of an option. Empty paths are not accepted. -/
def addMany (read : Partial) (option : ListOption) (values : List String) :
    Except ArgumentFault Partial :=
  if values = [] then .error .invalidValue
  else match option with
    | .inputs =>
      if "" ∈ values then .error .invalidValue
      else .ok { read with inputs := read.inputs ++ values }
    | .selection => .ok { read with selection := read.selection ++ values }
    | .rotation => .ok { read with rotation := read.rotation ++ values }

def setOne (read : Partial) (option : ValueOption) (value : String) :
    Except ArgumentFault Partial :=
  match option with
  | .output =>
    if read.output.isSome then .error .conflict
    else if value = "" then .error .invalidValue
    else .ok { read with output := some value }
  | .title =>
    if read.title.isSome then .error .conflict else .ok { read with title := some value }
  | .author =>
    if read.author.isSome then .error .conflict else .ok { read with author := some value }
  | .settingsFile =>
    if read.settingsFile.isSome then .error .conflict
    else if value = "" then .error .invalidValue
    else .ok { read with settingsFile := some value }

def add (read : Partial) (option : Switch) (values : List String) :
    Except ArgumentFault Partial :=
  match option with
  | .many option => read.addMany option values
  | .one option =>
    match values with
    | [] => .error .invalidValue
    | value :: _ => read.setOne option value
  | .flag flag =>
    if flag ∈ read.flags then .error .conflict
    else .ok { read with flags := flag :: read.flags }
  | .verbose => .ok { read with verbosity := min verbosityLimit (read.verbosity + 1) }
  | .help => .error .helpWanted
  | .version => .error .versionWanted

/-- Adds the values of the option that was still open, if there is one. -/
def settle (read : Partial) : Option (Switch × List String) → Except ArgumentFault Partial
  | none => .ok read
  | some (option, values) => read.add option values

def complete (read : Partial) : Except ArgumentFault Arguments :=
  match read.output with
  | none => .error .missingRequired
  | some output =>
    if read.inputs = [] ∨ (.json ∈ read.flags ∧ .dryRun ∉ read.flags) then
      .error .missingRequired
    else .ok
      { inputs := read.inputs
        selection := read.selection
        rotation := read.rotation
        output
        title := read.title
        author := read.author
        settingsFile := read.settingsFile
        force := .force ∈ read.flags
        dryRun := .dryRun ∈ read.flags
        json := .json ∈ read.flags
        verbosity := read.verbosity }

end Partial

def acceptsMore : Switch → List String → Bool
  | .many _, _ => true
  | .one _, values => values.isEmpty
  | _, _ => false

/-- Reads words one after the other. An option stays open while its values follow; what nobody
takes is unknown, even if the values of the open option are not acceptable. -/
def readWords (read : Partial) (pending : Option (Switch × List String)) :
    List Word → Except ArgumentFault Partial
  | [] => read.settle pending
  | .value text :: rest =>
    match pending with
    | some (option, values) =>
      if acceptsMore option values then readWords read (some (option, values ++ [text])) rest
      else .error .unknownArgument
    | none => .error .unknownArgument
  | .switch option attached :: rest => do
    let read ← read.settle pending
    match attached with
    | some value => readWords (← read.add option [value]) none rest
    | none =>
      if option.takesValues then readWords read (some (option, [])) rest
      else readWords (← read.add option []) none rest
  | .unneededValue :: _ => .error .tooManyValues
  | .unknown :: _ => .error .unknownArgument
  | .separator :: rest => if rest = [] then read.settle pending else .error .unknownArgument

def parse (arguments : List String) : Except ArgumentFault Arguments := do
  (← readWords {} none (arguments.flatMap Word.ofArgument)).complete

def applyTo (arguments : Arguments) (settings : Settings) : Settings :=
  { settings with
    title := arguments.title.getD settings.title
    author := arguments.author.getD settings.author
    overwrite := settings.overwrite || arguments.force }

def logLevel (arguments : Arguments) : String :=
  match arguments.verbosity with
  | 0 => "warn"
  | 1 => "info"
  | _ => "debug"

end Arguments

end PdfAssembly
