import PdfAssembly.Number.Decimal
import PdfAssembly.Number.Numeral
import PdfAssembly.Text.Quoted

/-! What can be wrong with a JSON text: its form, its end, or the kind of a value in it. -/
namespace PdfAssembly.Json

inductive Container
  | list
  | object
deriving DecidableEq, Repr

inductive Found
  | null
  | boolean (value : Bool)
  | integer (value : Int)
  | floating (negative : Bool) (magnitude : Binary)
  | text (value : String)
  | container (kind : Container)
deriving DecidableEq, Repr

inductive Fault
  | endInValue
  | endInText
  | endIn (container : Container)
  | expectedValue
  | expectedWord
  | expectedColon
  | expectedCommaOrEnd (container : Container)
  | keyNotText
  | trailingComma
  | trailingCharacters
  | invalidNumber
  | numberOutOfRange
  | invalidEscape
  /-- One half of a surrogate pair where the pair or the other half has to stand. -/
  | loneSurrogate
  | unfinishedSurrogatePair
  | controlCharacter
  | duplicateField (name : String)
  | invalidType (found : Found) (expected : String)
deriving DecidableEq, Repr

inductive FaultKind
  | malformed
  | mismatched
  | cutShort
deriving DecidableEq, Repr

/-- Floating point numbers are written positionally from 1e-5 to below 1e16, with a point. -/
def floatStyle : Decimal.Style := ⟨fun leading => -5 ≤ leading && leading ≤ 15, ".0", .toEven⟩

namespace Found

def describe : Found → String
  | null => "null"
  | boolean true => "boolean `true`"
  | boolean false => "boolean `false`"
  | integer value =>
    "integer `" ++ (if value < 0 then "-" else "") ++ Numeral.write value.natAbs ++ "`"
  | floating negative magnitude =>
    "floating point `" ++ (if negative then "-" else "") ++
      magnitude.text .double floatStyle ++ "`"
  | text value => "string " ++ Text.quote value
  | container .list => "sequence"
  | container .object => "map"

end Found

namespace Fault

def kind : Fault → FaultKind
  | endInValue => .cutShort
  | endInText => .cutShort
  | endIn _ => .cutShort
  | duplicateField _ => .mismatched
  | invalidType _ _ => .mismatched
  | _ => .malformed

def message : Fault → String
  | endInValue => "EOF while parsing a value"
  | endInText => "EOF while parsing a string"
  | endIn .list => "EOF while parsing a list"
  | endIn .object => "EOF while parsing an object"
  | expectedValue => "expected value"
  | expectedWord => "expected ident"
  | expectedColon => "expected `:`"
  | expectedCommaOrEnd .list => "expected `,` or `]`"
  | expectedCommaOrEnd .object => "expected `,` or `\x7d`"
  | keyNotText => "key must be a string"
  | trailingComma => "trailing comma"
  | trailingCharacters => "trailing characters"
  | invalidNumber => "invalid number"
  | numberOutOfRange => "number out of range"
  | invalidEscape => "invalid escape"
  | loneSurrogate => "lone leading surrogate in hex escape"
  | unfinishedSurrogatePair => "unexpected end of hex escape"
  | controlCharacter => "control character (\\u0000-\\u001F) found while parsing a string"
  | duplicateField name => s!"duplicate field `{name}`"
  | invalidType found expected => s!"invalid type: {found.describe}, expected {expected}"

end Fault

end PdfAssembly.Json
