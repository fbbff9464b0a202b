import PdfAssembly.Pdf.Object

/-! Numbers as bits, and bits as bytes. -/
namespace PdfAssembly.Pdf.Deflate

/-- The bits of a number, the least significant first. -/
def bits (n : Nat) : (width : Nat) → List Bool
  | 0 => []
  | width + 1 => (n % 2 == 1) :: bits (n / 2) width

@[simp] theorem length_bits (n width : Nat) : (bits n width).length = width := by
  induction width generalizing n with
  | zero => rfl
  | succ width ih => simp [bits, ih]

/-- Codes are written with the most significant bit first. -/
def code (n width : Nat) : List Bool := (bits n width).reverse

/-- Bytes out of bits, the first bit being the least significant. -/
def pack : List Bool → Bytes
  | [] => []
  | bits@(_ :: _) =>
    let byte := (bits.take 8).foldr (fun bit n => 2 * n + (if bit then 1 else 0)) 0
    byte.toUInt8 :: pack (bits.drop 8)
termination_by bits => bits.length

def bigEndian (n : Nat) : (width : Nat) → Bytes
  | 0 => []
  | width + 1 => bigEndian (n / 256) width ++ [(n % 256).toUInt8]

end PdfAssembly.Pdf.Deflate
