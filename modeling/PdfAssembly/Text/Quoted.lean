import PdfAssembly.Text.Unshown

/-! Texts between double quotes, with escapes for what would not show as itself. -/
namespace PdfAssembly.Text

def isUnshown (c : Char) : Bool := c.toNat < 0x20 || Unshown.contains c.toNat

def escape (c : Char) : List Char :=
  match c with
  | '"' => ['\\', '"']
  | '\\' => ['\\', '\\']
  | '\n' => ['\\', 'n']
  | '\r' => ['\\', 'r']
  | '\t' => ['\\', 't']
  | '\x00' => ['\\', '0']
  | c =>
    if isUnshown c then '\\' :: 'u' :: '{' :: Nat.toDigits 16 c.toNat ++ ['}']
    else [c]

def quote (text : String) : String :=
  String.ofList ('"' :: text.toList.flatMap escape ++ ['"'])

end PdfAssembly.Text
