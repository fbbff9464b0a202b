import PdfAssembly.Pdf.Deflate.Block
import PdfAssembly.Pdf.Deflate.Matching

/-! Deflating bytes, in the zlib format: two bytes of header, the blocks, and a checksum. -/
namespace PdfAssembly.Pdf.Deflate

/-- The sums of Adler's checksum. -/
def checksum (data : Bytes) : Nat :=
  let (low, high) := data.foldl (fun sums byte =>
    let low := (sums.1 + byte.toNat) % 65521
    (low, (sums.2 + low) % 65521)) (1, 0)
  high * 65536 + low

def deflate (data : Bytes) : Bytes :=
  [0x78, 0xDA] ++ pack (encodeBlocks 0 data (blocks {} (symbols data))) ++
    bigEndian (checksum data) 4

end PdfAssembly.Pdf.Deflate
