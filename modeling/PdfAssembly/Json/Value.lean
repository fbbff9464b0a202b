import PdfAssembly.Number.Numeral

/-! JSON values and their text over several lines, with two spaces for each level. -/
namespace PdfAssembly.Json

/-- Texts and keys hold nothing that needs an escape. -/
inductive Value
  | number (n : Nat)
  | text (value : String)
  | list (items : List Value)
  | object (members : List (String × Value))

namespace Value

def quoted (text : String) : String := "\"" ++ text ++ "\""

def newLine (level : Nat) : String := "\n" ++ String.ofList (List.replicate (2 * level) ' ')

mutual

def pretty (level : Nat) : Value → String
  | number n => Numeral.write n
  | text value => quoted value
  | list [] => "[]"
  | list (item :: rest) =>
    "[" ++ newLine (level + 1) ++ pretty (level + 1) item ++ prettyItems (level + 1) rest ++
      newLine level ++ "]"
  | object [] => "\x7b\x7d"
  | object ((key, value) :: rest) =>
    "\x7b" ++ newLine (level + 1) ++ quoted key ++ ": " ++ pretty (level + 1) value ++
      prettyMembers (level + 1) rest ++ newLine level ++ "\x7d"

def prettyItems (level : Nat) : List Value → String
  | [] => ""
  | item :: rest => "," ++ newLine level ++ pretty level item ++ prettyItems level rest

def prettyMembers (level : Nat) : List (String × Value) → String
  | [] => ""
  | (key, value) :: rest =>
    "," ++ newLine level ++ quoted key ++ ": " ++ pretty level value ++ prettyMembers level rest

end

end Value

end PdfAssembly.Json
