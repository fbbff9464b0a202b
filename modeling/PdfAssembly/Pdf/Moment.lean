import PdfAssembly.Number.Numeral
import PdfAssembly.Pdf.Object

/-! Moments of local time and the way a document writes them. -/
namespace PdfAssembly.Pdf

structure Moment where
  year : Nat
  month : Nat
  day : Nat
  hour : Nat
  minute : Nat
  second : Nat
  /-- How many seconds local time is ahead of universal time. -/
  offset : Int
deriving DecidableEq, Repr

namespace Moment

def padded (width n : Nat) : String :=
  let digits := Nat.toDigits 10 n
  String.ofList (List.replicate (width - digits.length) '0' ++ digits)

def text (moment : Moment) : String :=
  let ahead := moment.offset.natAbs
  "D:" ++ padded 4 moment.year ++ padded 2 moment.month ++ padded 2 moment.day ++
    padded 2 moment.hour ++ padded 2 moment.minute ++ padded 2 moment.second ++
    (if moment.offset < 0 then "-" else "+") ++ padded 2 (ahead / 3600) ++ "'" ++
    padded 2 (ahead % 3600 / 60) ++ "'"

end Moment

end PdfAssembly.Pdf
