import PdfAssembly.Json.Skip

/-! What is reported when a value of the wrong kind stands in a JSON text. The value is read
first, so that an error inside it comes before the complaint about its kind. -/
namespace PdfAssembly.Json

/-- Takes digits for as long as the number stays below the limit of numerals. -/
def absorb (significand : Nat) : List Char → Nat × List Char
  | [] => (significand, [])
  | c :: rest =>
    let next := significand * 10 + (c.toNat - '0'.toNat)
    if next < Numeral.limit then absorb next rest else (significand, c :: rest)

/-- The double nearest to ten to this power, within the range that has one. -/
def powerOfTen (exponent : Nat) : Binary :=
  (Binary.round? .double (Nat.pow 10 exponent) 1).getD ⟨0, 0⟩

/-- The significand, scaled by powers of ten of at most 308 with a rounding at every step. -/
def scaleDown (number : Binary) (exponent : Nat) : Option Binary :=
  if exponent ≤ 308 then Binary.div? .double number (powerOfTen exponent)
  else if number.significand = 0 then some number
  else do
    let smaller ← Binary.div? .double number (powerOfTen 308)
    scaleDown smaller (exponent - 308)
termination_by exponent

def floating (negative : Bool) (significand : Nat) (exponent : Int) : Except Fault Found :=
  let scaled := do
    let number ← Binary.round? .double significand 1
    if exponent < 0 then scaleDown number exponent.natAbs
    else if exponent ≤ 308 then Binary.mul? .double number (powerOfTen exponent.natAbs)
    else if significand = 0 then some number
    else none
  match scaled with
  | some magnitude => .ok (.floating negative magnitude)
  | none => .error .numberOutOfRange

def startsExponent : List Char → Bool
  | 'e' :: _ => true
  | 'E' :: _ => true
  | _ => false

/-- The number with the exponent that stands behind the letter. Exponents past 31 bits make it
zero or refuse it. -/
def withExponent (negative : Bool) (significand : Nat) (exponent : Int) (text : List Char) :
    Except Fault Found :=
  let (down, text) := match text with
    | '+' :: rest => (false, rest)
    | '-' :: rest => (true, rest)
    | text => (false, text)
  match text with
  | [] => .error .endInValue
  | c :: _ =>
    if c.isDigit then
      let power := Nat.ofDigitChars 10 (text.takeWhile Char.isDigit) 0
      if power < Nat.pow 2 31 then
        floating negative significand (if down then exponent - power else exponent + power)
      else if significand ≠ 0 ∧ ¬ down then .error .numberOutOfRange
      else .ok (.floating negative ⟨0, 0⟩)
    else .error .invalidNumber

/-- The number with the digits behind the point. Digits that no longer fit are dropped. -/
def withFraction (negative : Bool) (significand : Nat) (exponent : Int) (text : List Char) :
    Except Fault Found :=
  let digits := text.takeWhile Char.isDigit
  let rest := text.dropWhile Char.isDigit
  let (significand, dropped) := absorb significand digits
  if digits.isEmpty then .error (if rest.isEmpty then .endInValue else .invalidNumber)
  else
    let exponent := exponent - (digits.length - dropped.length : Nat)
    if startsExponent rest then withExponent negative significand exponent (rest.drop 1)
    else floating negative significand exponent

def number (negative : Bool) (text : List Char) : Except Fault Found :=
  match text with
  | [] => .error .endInValue
  | c :: more =>
    if ¬ c.isDigit then .error .invalidNumber
    else if c = '0' ∧ (more.head?.any Char.isDigit) = true then .error .invalidNumber
    else
      let rest := text.dropWhile Char.isDigit
      let (significand, dropped) := absorb 0 (text.takeWhile Char.isDigit)
      if rest.head? = some '.' then withFraction negative significand dropped.length (rest.drop 1)
      else if startsExponent rest then
        withExponent negative significand dropped.length (rest.drop 1)
      else if dropped ≠ [] then floating negative significand dropped.length
      else if ¬ negative then .ok (.integer significand)
      else if significand = 0 ∨ Nat.pow 2 63 < significand then floating true significand 0
      else .ok (.integer (-significand))

def found (text : List Char) : Except Fault Found :=
  match text with
  | [] => .error .expectedValue
  | c :: rest =>
    let named (letters : String) (value : Found) : Except Fault Found := do
      let _ ← word letters.toList rest
      return value
    match c with
    | 'n' => named "ull" .null
    | 't' => named "rue" (.boolean true)
    | 'f' => named "alse" (.boolean false)
    | '"' => do
      let (chars, _) ← Json.text .strict rest
      return .text (String.ofList chars)
    | '[' => .ok (.container .list)
    | '{' => .ok (.container .object)
    | '-' => number true rest
    | _ => if c.isDigit then number false (c :: rest) else .error .expectedValue

def mismatch (expected : String) (text : List Char) : Fault :=
  match found text with
  | .ok value => .invalidType value expected
  | .error fault => fault

end PdfAssembly.Json
