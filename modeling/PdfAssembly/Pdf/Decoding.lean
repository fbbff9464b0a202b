import PdfAssembly.Number.Numeral
import PdfAssembly.Pdf.Source

/-! Finding a document in the bytes of a file. Objects are read wherever one begins with its
identifier, later ones in the place of earlier ones; objects packed into streams are passed over.
Every reader gives back what is left, or nothing when the bytes have another form. -/
namespace PdfAssembly.Pdf.Decoding

def isBlank (byte : UInt8) : Bool := [0, 9, 10, 12, 13, 32].contains byte

def isRegular (byte : UInt8) : Bool :=
  !isBlank byte && !(bytes "()<>[]\x7b\x7d/%").contains byte

def isDigit (byte : UInt8) : Bool := 48 ≤ byte && byte ≤ 57

def text (data : Bytes) : String := String.ofList (data.map fun byte => Char.ofNat byte.toNat)

def skipBlank (inComment : Bool) : Bytes → Bytes
  | [] => []
  | byte :: rest =>
    if inComment then skipBlank (!Source.isLineEnd byte) rest
    else if byte = 37 then skipBlank true rest
    else if isBlank byte then skipBlank false rest
    else byte :: rest

def expect? (word : String) (input : Bytes) : Option Bytes :=
  let input := skipBlank false input
  if (bytes word).isPrefixOf input then some (input.drop word.length) else none

def natural? (input : Bytes) : Option (Nat × Bytes) :=
  let input := skipBlank false input
  match input.takeWhile isDigit with
  | [] => none
  | digits => some (Numeral.value (text digits), input.dropWhile isDigit)

def hexDigit? (byte : UInt8) : Option UInt8 :=
  if isDigit byte then some (byte - 48)
  else if 65 ≤ byte ∧ byte ≤ 70 then some (byte - 55)
  else if 97 ≤ byte ∧ byte ≤ 102 then some (byte - 87)
  else none

def decodeName : Bytes → Bytes
  | mark :: high :: low :: rest =>
    match hexDigit? high, hexDigit? low with
    | some x, some y =>
      if mark = 35 then (16 * x + y) :: decodeName rest
      else mark :: decodeName (high :: low :: rest)
    | _, _ => mark :: decodeName (high :: low :: rest)
  | name => name

/-- Pairs of digits as bytes; a last digit without a second one counts as if zero followed. -/
def decodeHex : List UInt8 → Bytes
  | high :: low :: rest => (16 * high + low) :: decodeHex rest
  | [high] => [16 * high]
  | [] => []

/-- What a backslash and the bytes behind it stand for, and how many bytes that takes. -/
def unescape : Bytes → Bytes × Nat
  | [] => ([], 0)
  | byte :: rest =>
    let octal := ((byte :: rest).take 3).takeWhile fun digit => 48 ≤ digit && digit ≤ 55
    let value := octal.foldl (fun (value : Nat) (digit : UInt8) => 8 * value + (digit.toNat - 48)) 0
    if octal ≠ [] then ([value.toUInt8], octal.length)
    else if byte = 110 then ([10], 1)
    else if byte = 114 then ([13], 1)
    else if byte = 116 then ([9], 1)
    else if byte = 98 then ([8], 1)
    else if byte = 102 then ([12], 1)
    else if byte = 10 then ([], 1)
    else if byte = 13 then ([], if rest.head? = some 10 then 2 else 1)
    else ([byte], 1)

def literal? (depth : Nat) (input : Bytes) : Option (Bytes × Bytes) :=
  match input with
  | [] => none
  | byte :: rest =>
    if byte = 92 then do
      let (meaning, taken) := unescape rest
      let (others, rest) ← literal? depth (rest.drop taken)
      return (meaning ++ others, rest)
    else if byte = 41 ∧ depth = 0 then some ([], rest)
    else do
      let depth := if byte = 40 then depth + 1 else if byte = 41 then depth - 1 else depth
      let (others, rest) ← literal? depth rest
      return (byte :: others, rest)
termination_by input.length
decreasing_by all_goals simp only [List.length_drop, List.length_cons]; omega

/-- A number, or a reference when another number and the letter `R` follow it. -/
def number? (input : Bytes) : Option (Object × Bytes) :=
  let negative := input.head? = some 45
  let unsigned := if negative ∨ input.head? = some 43 then input.drop 1 else input
  let whole := unsigned.takeWhile isDigit
  let sign (n : Nat) : Int := if negative then -n else n
  match unsigned.dropWhile isDigit with
  | 46 :: behind =>
    let places := behind.takeWhile isDigit
    if whole = [] ∧ places = [] then none
    else do
      let value := Numeral.value (text (whole ++ places))
      let magnitude ← Binary.round? .single value (Nat.pow 10 places.length)
      return (.real ⟨negative, magnitude⟩, behind.dropWhile isDigit)
  | rest =>
    if whole = [] then none
    else
      let value := Numeral.value (text whole)
      let reference : Option (Object × Bytes) := do
        let (generation, rest) ← natural? rest
        return (.reference ⟨value, generation⟩, ← expect? "R" rest)
      some (reference.getD (.integer (sign value), rest))

mutual

def object? (depth : Nat) (input : Bytes) : Option (Object × Bytes) :=
  match depth, skipBlank false input with
  | _ + 1, 47 :: rest =>
    some (.name (decodeName (rest.takeWhile isRegular)), rest.dropWhile isRegular)
  | _ + 1, 40 :: rest => (literal? 0 rest).map fun (value, rest) => (.literal value, rest)
  | depth + 1, 60 :: 60 :: rest =>
    (entries? depth rest).map fun (entries, rest) => (.dictionary (Dictionary.ofList entries), rest)
  | _ + 1, 60 :: rest =>
    some (.hexadecimal (decodeHex ((rest.takeWhile (· ≠ 62)).filterMap hexDigit?)),
      (rest.dropWhile (· ≠ 62)).drop 1)
  | depth + 1, 91 :: rest => (items? depth rest).map fun (items, rest) => (.array items, rest)
  | _, rest =>
    match expect? "null" rest, expect? "true" rest, expect? "false" rest with
    | some rest, _, _ => some (.null, rest)
    | _, some rest, _ => some (.boolean true, rest)
    | _, _, some rest => some (.boolean false, rest)
    | _, _, _ => number? rest

def items? (depth : Nat) (input : Bytes) : Option (List Object × Bytes) :=
  match depth, expect? "]" input with
  | _, some rest => some ([], rest)
  | 0, none => none
  | depth + 1, none => do
    let (item, rest) ← object? depth input
    let (items, rest) ← items? depth rest
    return (item :: items, rest)

def entries? (depth : Nat) (input : Bytes) : Option (List (Bytes × Object) × Bytes) :=
  match depth, expect? ">>" input with
  | _, some rest => some ([], rest)
  | 0, none => none
  | depth + 1, none => do
    let rest ← expect? "/" input
    let (value, behind) ← object? depth (rest.dropWhile isRegular)
    let (entries, behind) ← entries? depth behind
    return ((decodeName (rest.takeWhile isRegular), value) :: entries, behind)

end

/-- The bytes before a word, without a line end at their end. -/
def before? (word : Bytes) : Bytes → Option Bytes
  | [] => none
  | byte :: rest =>
    if word.isPrefixOf (byte :: rest) then some []
    else (before? word rest).map fun others =>
      if others = [] ∧ Source.isLineEnd byte then [] else byte :: others

/-- The data of a stream. A length that does not lead to the end of a stream is not believed. -/
def streamData? (entries : Dictionary) (input : Bytes) : Option Bytes :=
  let data := match input with
    | 13 :: 10 :: rest => rest
    | 10 :: rest => rest
    | rest => rest
  let stated := ((entries.get? Name.length).bind Object.asInteger?).map Int.toNat
  match stated.filter fun length => (expect? "endstream" (data.drop length)).isSome with
  | some length => some (data.take length)
  | none => before? (bytes "endstream") data

def numbered? (depth : Nat) (input : Bytes) : Option ((ObjectId × Object) × Bytes) := do
  let (number, rest) ← natural? input
  let (generation, rest) ← natural? rest
  let rest ← expect? "obj" rest
  let (object, rest) ← object? depth rest
  match object, expect? "stream" rest with
  | .dictionary entries, some behind =>
    let data ← streamData? entries behind
    return ((⟨number, generation⟩, .stream entries ⟨data, false⟩), behind.drop data.length)
  | object, _ => return ((⟨number, generation⟩, object), rest)

structure Findings where
  objects : List (ObjectId × Object) := []
  trailer : Dictionary := []

namespace Findings

def addTrailer (found : Findings) (entries : Dictionary) : Findings :=
  { found with
    trailer := entries.foldl (fun trailer entry => Dictionary.set entry.1 entry.2 trailer)
      found.trailer }

/-- A stream of cross references is a trailer and no object of the document. -/
def add (found : Findings) (id : ObjectId) (object : Object) : Findings :=
  match object with
  | .stream entries _ =>
    if Dictionary.typeName? entries = some Name.xref then found.addTrailer entries
    else { found with objects := (id, object) :: found.objects }
  | _ => { found with objects := (id, object) :: found.objects }

end Findings

/-- How deep the objects of a file may be nested, and how long their lists may be. -/
def depthLimit : Nat := Nat.pow 2 32

def search : (places : Nat) → Findings → Bytes → Findings
  | 0, found, _ => found
  | places + 1, found, input =>
    match skipBlank false input with
    | [] => found
    | byte :: rest =>
      match numbered? depthLimit (byte :: rest) with
      | some ((id, object), rest) => search places (found.add id object) rest
      | none =>
        match (expect? "trailer" (byte :: rest)).bind (object? depthLimit) with
        | some (.dictionary entries, rest) => search places (found.addTrailer entries) rest
        | _ => search places found rest

/-- The document in a file, if it has a header, and a trailer that names the catalog. -/
def document? (data : Bytes) : Option Document := do
  let version ← Source.version? data
  let found := search data.length {} data
  let root ← found.trailer.get? Name.root
  return {
    version
    root := some root
    info := found.trailer.get? Name.info
    encrypt := found.trailer.get? (bytes "Encrypt")
    table := OrderedMap.ofList found.objects.reverse }

end PdfAssembly.Pdf.Decoding

namespace PdfAssembly.Pdf

def Content.ofFile (data : Bytes) : Content :=
  match Decoding.document? data with
  | some found => .document found
  | none => .raw data

end PdfAssembly.Pdf
