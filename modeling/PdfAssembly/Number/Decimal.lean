import PdfAssembly.Number.Binary

/-! Decimal numbers as digits and a power of ten: the shortest one that reads back as a given
binary number, and its text with or without an exponent. -/
namespace PdfAssembly

/-- The number `digits * 10 ^ exponent`. -/
structure Decimal where
  digits : Nat
  exponent : Int
deriving DecidableEq, Repr

namespace Decimal

/-- The texts that numbers are given: which powers of ten of the leading digit are written
positionally, what an integral number ends in, and which of two equally near decimals is taken. -/
structure Style where
  positional : Int → Bool
  integral : String
  tie : Tie

def text (style : Style) (number : Decimal) : String :=
  let digits := Nat.toDigits 10 number.digits
  let leading : Int := number.exponent + digits.length - 1
  if style.positional leading then
    if 0 ≤ number.exponent then
      String.ofList (digits ++ List.replicate number.exponent.toNat '0') ++ style.integral
    else if 0 ≤ leading then
      String.ofList (digits.take (leading.toNat + 1) ++ '.' :: digits.drop (leading.toNat + 1))
    else
      String.ofList ('0' :: '.' :: List.replicate (-leading - 1).toNat '0' ++ digits)
  else
    let mantissa := match digits with
      | [] => []
      | [digit] => [digit]
      | digit :: rest => digit :: '.' :: rest
    let power := Nat.toDigits 10 leading.natAbs
    String.ofList (mantissa ++ 'e' :: (if leading < 0 then '-' else '+') :: power)

end Decimal

namespace Binary

/-- Whether `digits * 10 ^ exponent` lies among the numbers that round to this one. The nearest
numbers of the format are one unit away, but half a unit below a power of two. -/
def roundsFrom (format : BinaryFormat) (number : Binary) (candidate : Decimal) : Bool :=
  let lower : Nat :=
    if number.significand = Nat.pow 2 (format.precision - 1) ∧
        format.leastExponent < number.exponent
    then 4 * number.significand - 1 else 4 * number.significand - 2
  let upper := 4 * number.significand + 2
  let (n, d) := Binary.fraction ⟨1, number.exponent - 2⟩
  let (value, scale) :=
    if 0 ≤ candidate.exponent then (candidate.digits * Nat.pow 10 candidate.exponent.toNat, 1)
    else (candidate.digits, Nat.pow 10 (-candidate.exponent).toNat)
  let left := value * d
  let least := lower * n * scale
  let greatest := upper * n * scale
  if number.significand % 2 = 0 then least ≤ left && left ≤ greatest
  else least < left && left < greatest

/-- The neighbour on the grid of multiples of `10 ^ exponent` that rounds to the number. Of two
the nearer one is taken, of two equally near the one for ties. -/
def onGrid? (format : BinaryFormat) (tie : Tie) (number : Binary) (exponent : Int) :
    Option Decimal :=
  let (n, d) := number.fraction
  let (n, d) := if 0 ≤ exponent then (n, d * Nat.pow 10 exponent.toNat)
      else (n * Nat.pow 10 (-exponent).toNat, d)
  let nearest := roundDiv tie n d
  let other := if nearest * d ≤ n then nearest + 1 else nearest - 1
  [nearest, other].findSome? fun digits =>
    if digits ≠ 0 ∧ number.roundsFrom format ⟨digits, exponent⟩ then some ⟨digits, exponent⟩
    else none

/-- The decimal number with the fewest digits that rounds to this one, or zero for zero. -/
def shortest (format : BinaryFormat) (tie : Tie) (number : Binary) : Decimal :=
  let (n, d) := number.fraction
  let top : Int :=
    if d ≤ n then (Nat.toDigits 10 (n / d)).length else 1 - (Nat.toDigits 10 (d / n)).length
  let grids := (List.range 20).map fun step : Nat => top - (step : Int)
  if n = 0 then ⟨0, 0⟩ else (grids.findSome? (number.onGrid? format tie)).getD ⟨0, 0⟩

def text (format : BinaryFormat) (style : Decimal.Style) (number : Binary) : String :=
  (number.shortest format style.tie).text style

end Binary

end PdfAssembly
