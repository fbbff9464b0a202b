import PdfAssembly.Pdf.Deflate.PrefixCode
import PdfAssembly.Pdf.Deflate.Symbol

/-! Blocks of symbols. A short block has fixed codes, others have codes of their own, which are
described before them; data that would not become shorter is stored as it is. -/
namespace PdfAssembly.Pdf.Deflate

/-- The lengths of the codes of a block: for bytes, lengths and the end, and for distances. -/
structure CodeLengths where
  leading : List Nat
  distance : List Nat

namespace CodeLengths

def fixed : CodeLengths where
  leading := List.replicate 144 8 ++ List.replicate 112 9 ++ List.replicate 24 7 ++
    List.replicate 8 8
  distance := List.replicate 30 5

def occurrences (size : Nat) (numbers : List Nat) : List Nat :=
  (numbers.foldl (fun table number => table.setIfInBounds number (table.getD number 0 + 1))
    (Array.replicate size 0)).toList

def fitted (symbols : List Symbol) : CodeLengths where
  leading := PrefixCode.lengths 15
    (occurrences 286 (Symbol.endNumber :: symbols.map (·.leading.1)))
  distance := PrefixCode.lengths 15
    (occurrences 30 (symbols.filterMap fun symbol => symbol.distance?.map (·.1)))

/-- Drops zeros at the end, but none of the first ones. -/
def trimmed (least : Nat) (lengths : List Nat) : List Nat :=
  lengths.take least ++ ((lengths.drop least).reverse.dropWhile (· = 0)).reverse

def groups : List Nat → List (Nat × Nat)
  | [] => []
  | n :: rest =>
    match groups rest with
    | (m, count) :: others =>
      if n = m then (m, count + 1) :: others else (n, 1) :: (m, count) :: others
    | [] => [(n, 1)]

/-- So many zeros: up to two stand for themselves, more are counted behind a mark. -/
def zeros (count : Nat) : List (Nat × List Bool) :=
  let rest := count % 138
  List.replicate (count / 138) (18, bits 127 7) ++
    if rest < 3 then List.replicate rest (0, [])
    else if rest ≤ 10 then [(17, bits (rest - 3) 3)]
    else [(18, bits (rest - 11) 7)]

/-- A length and so many repetitions of it. From three on they are counted behind a mark. -/
def repeated (length count : Nat) : List (Nat × List Bool) :=
  let rest := count % 6
  (length, []) :: List.replicate (count / 6) (16, bits 3 2) ++
    if rest < 3 then List.replicate rest (length, []) else [(16, bits (rest - 3) 2)]

def condensed (lengths : List Nat) : List (Nat × List Bool) :=
  (groups lengths).flatMap fun (length, count) =>
    if length = 0 then zeros count else repeated length (count - 1)

/-- The order in which the lengths of the codes for lengths stand. -/
def order : List Nat := [16, 17, 18, 0, 8, 7, 9, 6, 10, 5, 11, 4, 12, 3, 13, 2, 14, 1, 15]

def description (lengths : CodeLengths) : List Bool :=
  let leading := trimmed 257 lengths.leading
  let distance := trimmed 1 lengths.distance
  let content := condensed (leading ++ distance)
  let inner := PrefixCode.lengths 7 (occurrences 19 (content.map (·.1)))
  let outer := trimmed 4 (order.map fun number => inner.getD number 0)
  let codes := PrefixCode.codes inner
  bits (leading.length - 257) 5 ++ bits (distance.length - 1) 5 ++ bits (outer.length - 4) 4 ++
    outer.flatMap (bits · 3) ++ content.flatMap fun (number, bits) => codes.getD number [] ++ bits

def encode (lengths : CodeLengths) (symbols : List Symbol) : List Bool :=
  let leading := PrefixCode.codes lengths.leading
  let distance := PrefixCode.codes lengths.distance
  (symbols.flatMap fun symbol =>
    let (number, bits) := symbol.leading
    leading.getD number [] ++ bits ++ match symbol.distance? with
      | none => []
      | some (number, bits) => distance.getD number [] ++ bits) ++
    leading.getD Symbol.endNumber []

end CodeLengths

/-- How far a block has grown, in symbols, in the bytes they stand for, and in the room they take
up, which is one byte or three and a bit for each. -/
structure Growth where
  symbols : Nat := 0
  bytes : Nat := 0
  room : Nat := 1

namespace Growth

def add (growth : Growth) (symbol : Symbol) : Growth where
  symbols := growth.symbols + 1
  bytes := growth.bytes + symbol.size
  room := growth.room + (match symbol with | .byte _ => 1 | .copy _ => 3) +
    (if growth.symbols % 8 = 7 then 1 else 0)

/-- A block ends when its room is used up, or earlier when it gains next to nothing. -/
def isFull (growth : Growth) : Bool :=
  65528 < growth.room ||
    (31744 < growth.bytes && growth.bytes ≤ growth.room * 115 / 128)

end Growth

/-- The symbols of each block. The last one ends with the data and may be empty. -/
def blocks (growth : Growth) : List Symbol → List (List Symbol)
  | [] => [[]]
  | symbol :: rest =>
    let growth := growth.add symbol
    if growth.isFull then [symbol] :: blocks {} rest
    else match blocks growth rest with
      | [] => [[symbol]]
      | block :: others => (symbol :: block) :: others

@[simp] theorem flatten_blocks (growth : Growth) (symbols : List Symbol) :
    (blocks growth symbols).flatten = symbols := by
  induction symbols generalizing growth with
  | nil => rfl
  | cons symbol rest ih =>
    unfold blocks
    dsimp only
    split
    · simp [ih]
    · have step := ih (growth.add symbol)
      split
      · simp_all
      · simp_all

/-- Blocks of fewer bytes have the fixed codes. -/
def fixedLimit : Nat := 48

def encodeBlock (size : Nat) (symbols : List Symbol) : List Bool :=
  if size < fixedLimit then bits 1 2 ++ CodeLengths.fixed.encode symbols
  else
    let lengths := CodeLengths.fitted symbols
    bits 2 2 ++ lengths.description ++ lengths.encode symbols

/-- Data as it is, from the next whole byte on, behind its length and the complement of that. -/
def storeBlock (offset : Nat) (data : Bytes) : List Bool :=
  bits 0 2 ++ List.replicate ((14 - offset) % 8) false ++ bits data.length 16 ++
    bits (65535 - data.length) 16 ++ data.flatMap fun byte => bits byte.toNat 8

/-- Whether so many bytes had better be stored than written as so many bits from an offset on. -/
def isExpanded (offset width size : Nat) : Bool :=
  32 < size && size ≤ window && size ≤ (offset + width) / 8 - offset / 8 + 1

def encodeBlocks (offset : Nat) (data : Bytes) : List (List Symbol) → List Bool
  | [] => []
  | block :: rest =>
    let size := (block.map Symbol.size).foldl (· + ·) 0
    let encoded := encodeBlock size block
    let content := rest.isEmpty ::
      if isExpanded (offset + 1) encoded.length size then storeBlock (offset + 1) (data.take size)
      else encoded
    content ++ encodeBlocks ((offset + content.length) % 8) (data.drop size) rest

end PdfAssembly.Pdf.Deflate
