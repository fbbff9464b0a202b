/-! Binary floating point numbers in exact arithmetic: a format, rounding of a quotient to the
nearest number of the format, and the products and quotients that rounding allows. -/
namespace PdfAssembly

/-- Which of two equally near numbers is taken. -/
inductive Tie
  | toEven
  | upward
deriving DecidableEq, Repr

/-- The nearest natural number to `num / den`; of two equally near ones the one for ties. -/
def roundDiv (tie : Tie) (num den : Nat) : Nat :=
  let below := num / den
  let twice := 2 * (num % den)
  if twice < den then below
  else if den < twice then below + 1
  else match tie with
    | .toEven => below + below % 2
    | .upward => below + 1

theorem roundDiv_near (tie : Tie) (num : Nat) {den : Nat} (positive : 0 < den) :
    2 * (roundDiv tie num den * den) ≤ 2 * num + den ∧
      2 * num ≤ 2 * (roundDiv tie num den * den) + den := by
  have whole := Nat.div_add_mod num den
  have below := Nat.mod_lt num positive
  have comm : num / den * den = den * (num / den) := Nat.mul_comm ..
  have step : (num / den + 1) * den = den * (num / den) + den := by
    rw [Nat.add_mul, Nat.one_mul, comm]
  unfold roundDiv
  dsimp only
  split
  · omega
  · split
    · omega
    · cases tie
      · rcases Nat.mod_two_eq_zero_or_one (num / den) with even | odd
        · simp only [even, Nat.add_zero]; omega
        · simp only [odd]; omega
      · dsimp only; omega

theorem roundDiv_toEven {num den : Nat} (half : 2 * (num % den) = den) :
    roundDiv .toEven num den % 2 = 0 := by
  simp only [roundDiv, half, Nat.lt_irrefl, if_false]
  omega

theorem roundDiv_upward {num den : Nat} (half : 2 * (num % den) = den) :
    roundDiv .upward num den = num / den + 1 := by
  simp only [roundDiv, half, Nat.lt_irrefl, if_false]

/-- Significands have at most `precision` bits; the unit of the last place is at least
`2 ^ leastExponent` and at most `2 ^ greatestExponent`. -/
structure BinaryFormat where
  precision : Nat
  leastExponent : Int
  greatestExponent : Int

namespace BinaryFormat

def single : BinaryFormat := ⟨24, -149, 104⟩
def double : BinaryFormat := ⟨53, -1074, 971⟩

end BinaryFormat

/-- The number `significand * 2 ^ exponent`. -/
structure Binary where
  significand : Nat
  exponent : Int
deriving DecidableEq, Repr

namespace Binary

def fraction (number : Binary) : Nat × Nat :=
  if 0 ≤ number.exponent then (number.significand * Nat.pow 2 number.exponent.toNat, 1)
  else (number.significand, Nat.pow 2 (-number.exponent).toNat)

/-- The nearest number of the format to `num / den`, ties to an even significand; none when it
lies beyond the greatest one. -/
def round? (format : BinaryFormat) (num den : Nat) : Option Binary :=
  if num = 0 then some ⟨0, format.leastExponent⟩
  else
    let scaled (exponent : Int) : Nat × Nat :=
      if 0 ≤ exponent then (num, den * Nat.pow 2 exponent.toNat)
      else (num * Nat.pow 2 (-exponent).toNat, den)
    let guess : Int := (Nat.log2 num : Int) - Nat.log2 den - format.precision
    let (n, d) := scaled guess
    let exponent := if n / d < Nat.pow 2 format.precision then guess else guess + 1
    let exponent := max exponent format.leastExponent
    let (n, d) := scaled exponent
    let significand := roundDiv .toEven n d
    let result : Binary :=
      if significand = Nat.pow 2 format.precision then
        ⟨Nat.pow 2 (format.precision - 1), exponent + 1⟩
      else ⟨significand, exponent⟩
    if result.exponent ≤ format.greatestExponent then some result else none

def mul? (format : BinaryFormat) (a b : Binary) : Option Binary :=
  round? format (a.fraction.1 * b.fraction.1) (a.fraction.2 * b.fraction.2)

def div? (format : BinaryFormat) (a b : Binary) : Option Binary :=
  round? format (a.fraction.1 * b.fraction.2) (a.fraction.2 * b.fraction.1)

end Binary

end PdfAssembly
