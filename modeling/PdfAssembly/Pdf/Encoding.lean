import PdfAssembly.Number.Decimal
import PdfAssembly.Number.Numeral
import PdfAssembly.Pdf.Deflate
import PdfAssembly.Pdf.Document

/-! The bytes of a saved file: a header, every object in the order of identifiers, and a stream
of cross references that tells where each of them starts. -/
namespace PdfAssembly.Pdf

def hexByte (byte : UInt8) : Bytes :=
  let digit (n : Nat) : UInt8 := (n + if n < 10 then 48 else 55).toUInt8
  [digit (byte.toNat / 16), digit (byte.toNat % 16)]

/-- Bytes that cannot stand in a name as themselves. -/
def isSpecial (byte : UInt8) : Bool :=
  byte < 33 || 126 < byte || (bytes "()<>[]\x7b\x7d/%#").contains byte

def encodeName (value : Bytes) : Bytes :=
  bytes "/" ++ value.flatMap fun byte =>
    if isSpecial byte then bytes "#" ++ hexByte byte else [byte]

def opening : UInt8 := 40
def closing : UInt8 := 41

/-- Which of these bytes are parentheses of the second kind without one of the first kind
before them that they belong to. -/
def unmatched (first second : UInt8) (depth : Nat) : Bytes → List Bool
  | [] => []
  | byte :: rest =>
    if byte = first then false :: unmatched first second (depth + 1) rest
    else if byte = second ∧ depth = 0 then true :: unmatched first second depth rest
    else if byte = second then false :: unmatched first second (depth - 1) rest
    else false :: unmatched first second depth rest

/-- Parentheses that do not belong together, backslashes and returns are escaped. -/
def encodeLiteral (value : Bytes) : Bytes :=
  let closers := unmatched opening closing 0 value
  let openers := (unmatched closing opening 0 value.reverse).reverse
  let escaped := (value.zip (closers.zip openers)).flatMap fun (byte, closer, opener) =>
    if byte = 13 then bytes "\\r"
    else if byte = 92 || closer || opener then [92, byte]
    else [byte]
  bytes "(" ++ escaped ++ bytes ")"

/-- Reals are written without an exponent, and a half is rounded up. -/
def realStyle : Decimal.Style := ⟨fun _ => true, "", .upward⟩

def encodeInteger (value : Int) : Bytes :=
  bytes ((if value < 0 then "-" else "") ++ Numeral.write value.natAbs)

def encodeReal (value : Real) : Bytes :=
  bytes ((if value.negative then "-" else "") ++ value.magnitude.text .single realStyle)

def StreamData.stored (data : StreamData) : Bytes :=
  if data.deflated then Deflate.deflate data.plain else data.plain

namespace Object

/-- Whether a space sets the object off from what stands before it. -/
def isBare : Object → Bool
  | null | boolean _ | integer _ | real _ | reference _ => true
  | _ => false

/-- Whether a space sets the object off from what stands behind it. -/
def isOpenEnded : Object → Bool
  | name _ | stream _ _ => true
  | object => object.isBare

def space (needed : Bool) : Bytes := if needed then bytes " " else []

mutual

def encode : Object → Bytes
  | null => bytes "null"
  | boolean true => bytes "true"
  | boolean false => bytes "false"
  | integer value => encodeInteger value
  | real value => encodeReal value
  | name value => encodeName value
  | literal value => encodeLiteral value
  | hexadecimal value => bytes "<" ++ value.flatMap hexByte ++ bytes ">"
  | reference id =>
    encodeInteger id.number ++ bytes " " ++ encodeInteger id.generation ++ bytes " R"
  | array [] => bytes "[]"
  | array (first :: rest) => bytes "[" ++ encode first ++ encodeItems rest ++ bytes "]"
  | dictionary entries => bytes "<<" ++ encodeEntries entries ++ bytes ">>"
  | stream entries data =>
    bytes "<<" ++ encodeEntries entries ++ bytes ">>stream\n" ++ data.stored ++
      bytes "\nendstream"

def encodeItems : List Object → Bytes
  | [] => []
  | item :: rest => space item.isBare ++ encode item ++ encodeItems rest

def encodeEntries : List (Bytes × Object) → Bytes
  | [] => []
  | (key, value) :: rest =>
    encodeName key ++ space value.isBare ++ encode value ++ encodeEntries rest

end

def encodeNumbered (id : ObjectId) (object : Object) : Bytes :=
  encodeInteger id.number ++ bytes " " ++ encodeInteger id.generation ++ bytes " obj\n" ++
    space object.isBare ++ object.encode ++ space object.isOpenEnded ++ bytes "\nendobj\n"

end Object

namespace SavedFile

/-- The objects with the offset of each, and where the last one ends. -/
def placed (start : Nat) : List (ObjectId × Object) → List (ObjectId × Nat × Bytes) × Nat
  | [] => ([], start)
  | (id, object) :: rest =>
    let encoded := object.encodeNumbered id
    let (others, last) := placed (start + encoded.length) rest
    ((id, start, encoded) :: others, last)

def runs : List Nat → List (Nat × Nat)
  | [] => []
  | number :: rest =>
    match runs rest with
    | (first, length) :: others =>
      if first = number + 1 then (number, length + 1) :: others
      else (number, 1) :: (first, length) :: others
    | [] => [(number, 1)]

/-- An entry for an object in use: its offset in four bytes and its generation in two. -/
def crossReference (offset generation : Nat) : Bytes :=
  1 :: Deflate.bigEndian offset 4 ++ Deflate.bigEndian generation 2

def encode (file : SavedFile) : Bytes :=
  let header := bytes "%PDF-" ++ file.version.toUTF8.toList ++ [10, 37, 0xBB, 0xAD, 0xC0, 0xDE, 10]
  let (objects, offset) := placed header.length file.table.entries
  let references := (objects.flatMap fun (id, start, _) => crossReference start id.generation) ++
    crossReference offset 0
  let numbers := objects.map (·.1.number) ++ [file.streamNumber]
  let trailer : Dictionary :=
    [(Name.root, .reference file.root), (Name.info, .reference file.info),
      (Name.type, .name Name.xref), (Name.size, .integer (file.streamNumber + 1)),
      (Name.widths, .array [.integer 1, .integer 4, .integer 2]),
      (Name.index, .array ((runs numbers).flatMap fun (first, length) =>
        [.integer first, .integer length])),
      (Name.length, .integer references.length)]
  header ++ objects.flatMap (·.2.2) ++
    (Object.stream trailer ⟨references, false⟩).encodeNumbered ⟨file.streamNumber, 0⟩ ++
    bytes "\nstartxref\n" ++ encodeInteger offset ++ bytes "\n%%EOF"

end SavedFile

end PdfAssembly.Pdf
