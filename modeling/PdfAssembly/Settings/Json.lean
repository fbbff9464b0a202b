import PdfAssembly.Json.Mismatch
import PdfAssembly.Settings

/-! Settings as JSON: an object that names the fields it changes, or a list of fields in their
order. Names that mean nothing are passed over with their values, a field may stand only once,
and the first fault in the order of the text is the one that is reported. -/
namespace PdfAssembly.Settings

open Json

def readText (text : List Char) : Except Fault (String × Tail text) :=
  match shape : dropBlank text with
  | [] => .error .endInValue
  | '"' :: rest => do
    let (chars, after) ← Json.text .strict rest
    return (String.ofList chars, after.behindBlank shape)
  | other => .error (mismatch "a string" other)

def readFlag (text : List Char) : Except Fault (Bool × Tail text) :=
  match shape : dropBlank text with
  | [] => .error .endInValue
  | c :: rest =>
    let named (letters : String) (value : Bool) : Except Fault (Bool × Tail text) := do
      let after ← word letters.toList rest
      return (value, ⟨after.1, by
        have := length_dropBlank_le text
        have := after.2
        simp only [shape, List.length_cons] at *
        omega⟩)
    match c with
    | 't' => named "rue" true
    | 'f' => named "alse" false
    | _ => .error (mismatch "a boolean" (c :: rest))

def readField (settings : Settings) (text : List Char) :
    Field → Except Fault (Settings × Tail text)
  | .title => do
    let (value, after) ← readText text
    return ({ settings with title := value }, after)
  | .author => do
    let (value, after) ← readText text
    return ({ settings with author := value }, after)
  | .overwrite => do
    let (value, after) ← readFlag text
    return ({ settings with overwrite := value }, after)
  | .stampDates => do
    let (value, after) ← readFlag text
    return ({ settings with stampDates := value }, after)
  | .version => do
    let (value, after) ← readText text
    return ({ settings with version := value }, after)
  | .compress => do
    let (value, after) ← readFlag text
    return ({ settings with compress := value }, after)

def memberStart (first : Bool) (text : List Char) :
    Except Fault { rest : List Char // rest.length ≤ text.length } :=
  have blank := length_dropBlank_le text
  match shape : dropBlank text with
  | [] => .error (.endIn .object)
  | c :: rest =>
    if first then .ok ⟨c :: rest, by rw [← shape]; exact blank⟩
    else if c = '}' then .ok ⟨c :: rest, by rw [← shape]; exact blank⟩
    else if c = ',' then
      match dropBlank rest with
      | [] => .error .endInValue
      | '}' :: _ => .error .trailingComma
      | _ => .ok ⟨rest, by simp only [shape, List.length_cons] at blank; omega⟩
    else .error (.expectedCommaOrEnd .object)

def readKey (first : Bool) (text : List Char) : Except Fault (Option String × Tail text) := do
  let start ← memberStart first text
  match shape : dropBlank start.1 with
  | '"' :: rest => do
    let (chars, after) ← Json.text .strict rest
    return (some (String.ofList chars), ⟨after.1, by
      have := length_dropBlank_le start.1
      have := start.2
      have := after.2
      simp only [shape, List.length_cons] at *
      omega⟩)
  | '}' :: rest =>
    return (none, ⟨rest, by
      have := length_dropBlank_le start.1
      have := start.2
      simp only [shape, List.length_cons] at *
      omega⟩)
  | _ => .error .keyNotText

def readColon (text : List Char) : Except Fault (Tail text) :=
  match shape : dropBlank text with
  | [] => .error (.endIn .object)
  | ':' :: rest => .ok ⟨rest, by
      have := length_dropBlank_le text
      simp only [shape, List.length_cons] at this
      omega⟩
  | _ => .error .expectedColon

def readMembers (settings : Settings) (seen : List Field) (first : Bool) (text : List Char) :
    Except Fault (Settings × List Char) := do
  let (key, behindKey) ← readKey first text
  match key with
  | none => return (settings, behindKey.1)
  | some key =>
    match Field.ofKey? key with
    | some field =>
      if field ∈ seen then .error (.duplicateField key)
      else
        let value ← readColon behindKey.1
        let (settings, after) ← readField settings value.1 field
        readMembers settings (field :: seen) false after.1
    | none =>
      let value ← readColon behindKey.1
      let after ← skipValue [] value.1
      readMembers settings seen false after.1
termination_by text.length
decreasing_by
  · exact Nat.lt_trans after.2 (Nat.lt_trans value.2 behindKey.2)
  · exact Nat.lt_trans after.2 (Nat.lt_trans value.2 behindKey.2)

/-- The end of a list in which every field has had its value. -/
def readListEnd (text : List Char) : Except Fault (List Char) :=
  match dropBlank text with
  | [] => .error (.endIn .list)
  | ']' :: rest => .ok rest
  | ',' :: rest =>
    match dropBlank rest with
    | ']' :: _ => .error .trailingComma
    | _ => .error .trailingCharacters
  | _ => .error .trailingCharacters

/-- The elements of a list up to its closing bracket, as the values of these fields. -/
def readElements (settings : Settings) (first : Bool) (text : List Char) :
    List Field → Except Fault (Settings × List Char)
  | [] => do return (settings, ← readListEnd text)
  | field :: fields =>
    let value (start : List Char) : Except Fault (Settings × List Char) := do
      let (settings, after) ← readField settings start field
      readElements settings false after.1 fields
    match dropBlank text with
    | [] => .error (.endIn .list)
    | ']' :: rest => .ok (settings, rest)
    | c :: rest =>
      if first then value (c :: rest)
      else if c = ',' then
        match dropBlank rest with
        | [] => .error .endInValue
        | ']' :: _ => .error .trailingComma
        | start => value start
      else .error (.expectedCommaOrEnd .list)

/-- The settings that a JSON text describes, whatever version they ask for. -/
def ofJson (text : String) : Except Fault Settings := do
  let (settings, rest) ← match dropBlank text.toList with
    | [] => .error .endInValue
    | '{' :: rest => readMembers {} [] true rest
    | '[' :: rest => readElements {} true rest Field.all
    | other => .error (mismatch "struct PipeConfig" other)
  if dropBlank rest = [] then return settings else .error .trailingCharacters

end PdfAssembly.Settings
