import PdfAssembly.Pdf.Deflate.Bits

/-! What deflated data consists of: bytes, and runs of bytes that occurred shortly before. Lengths
and distances are written as a row of a table and the bits that tell how far beyond it they lie. -/
namespace PdfAssembly.Pdf.Deflate

/-- This many bytes that also stand this far before. -/
structure Run where
  length : Nat
  distance : Nat
deriving DecidableEq, Repr

inductive Symbol
  | byte (value : UInt8)
  | copy (run : Run)
deriving DecidableEq, Repr

def window : Nat := 32768

def leastLength : Nat := 3
def greatestLength : Nat := 258

/-- The least length of each row and the width of what follows it. -/
def lengthBases : List (Nat × Nat) :=
  [(3, 0), (4, 0), (5, 0), (6, 0), (7, 0), (8, 0), (9, 0), (10, 0), (11, 1), (13, 1), (15, 1),
    (17, 1), (19, 2), (23, 2), (27, 2), (31, 2), (35, 3), (43, 3), (51, 3), (59, 3), (67, 4),
    (83, 4), (99, 4), (115, 4), (131, 5), (163, 5), (195, 5), (227, 5), (258, 0)]

/-- The least distance of each row and the width of what follows it. -/
def distanceBases : List (Nat × Nat) :=
  [(1, 0), (2, 0), (3, 0), (4, 0), (5, 1), (7, 1), (9, 2), (13, 2), (17, 3), (25, 3), (33, 4),
    (49, 4), (65, 5), (97, 5), (129, 6), (193, 6), (257, 7), (385, 7), (513, 8),
    (769, 8), (1025, 9), (1537, 9), (2049, 10), (3073, 10), (4097, 11), (6145, 11), (8193, 12),
    (12289, 12), (16385, 13), (24577, 13)]

/-- The last row whose base does not exceed the number, with the bits that follow it. -/
def coded (bases : List (Nat × Nat)) (n : Nat) : Nat × List Bool :=
  let row := (bases.takeWhile fun base => base.1 ≤ n).length - 1
  match bases[row]? with
  | some (base, width) => (row, bits (n - base) width)
  | none => (row, [])

namespace Symbol

def size : Symbol → Nat
  | byte _ => 1
  | copy run => run.length

/-- The end of a block has a number of its own among bytes and lengths. -/
def endNumber : Nat := 256

def leading : Symbol → Nat × List Bool
  | byte value => (value.toNat, [])
  | copy run =>
    let (row, bits) := coded lengthBases run.length
    (endNumber + 1 + row, bits)

def distance? : Symbol → Option (Nat × List Bool)
  | byte _ => none
  | copy run => some (coded distanceBases run.distance)

end Symbol

end PdfAssembly.Pdf.Deflate
