import PdfAssembly.Json.Fault

/-! Reading JSON strings. A reading starts behind the opening quote and ends behind the closing
one; what it leaves is shorter than what it was given. -/
namespace PdfAssembly.Json

/-- What is left of a text when at least one character of it has been read. -/
abbrev Tail (text : List Char) := { rest : List Char // rest.length < text.length }

def isBlank (c : Char) : Bool := c == ' ' || c == '\n' || c == '\t' || c == '\r'

def dropBlank (text : List Char) : List Char := text.dropWhile isBlank

theorem length_dropWhile_le (p : α → Bool) (list : List α) :
    (list.dropWhile p).length ≤ list.length :=
  (List.dropWhile_sublist p).length_le

theorem length_dropBlank_le (text : List Char) : (dropBlank text).length ≤ text.length :=
  length_dropWhile_le isBlank text

def Tail.behind {c : Char} {rest : List Char} (after : Tail rest) : Tail (c :: rest) :=
  ⟨after.1, Nat.lt_succ_of_lt after.2⟩

def Tail.behindBlank {c : Char} {text rest : List Char} (shape : dropBlank text = c :: rest)
    (after : Tail rest) : Tail text :=
  ⟨after.1, by
    have blank := length_dropBlank_le text
    have left := after.2
    simp only [shape, List.length_cons] at blank
    omega⟩

def hexDigit? (c : Char) : Option Nat :=
  if c.isDigit then some (c.toNat - '0'.toNat)
  else if 'a' ≤ c ∧ c ≤ 'f' then some (c.toNat - 'a'.toNat + 10)
  else if 'A' ≤ c ∧ c ≤ 'F' then some (c.toNat - 'A'.toNat + 10)
  else none

/-- Four hexadecimal digits. A text cut short within four bytes of UTF-8 ends too early. -/
def codeUnit (text : List Char) : Except Fault (Nat × Tail text) :=
  match text with
  | a :: b :: c :: d :: rest =>
    match hexDigit? a, hexDigit? b, hexDigit? c, hexDigit? d with
    | some a, some b, some c, some d =>
      .ok (((a * 16 + b) * 16 + c) * 16 + d, ⟨rest, by simp only [List.length_cons]; omega⟩)
    | _, _, _, _ => .error .invalidEscape
  | short =>
    if (short.map Char.utf8Size).foldl (· + ·) 0 < 4 then .error .endInText
    else .error .invalidEscape

def isLeading (unit : Nat) : Bool := 0xD800 ≤ unit && unit ≤ 0xDBFF

def isTrailing (unit : Nat) : Bool := 0xDC00 ≤ unit && unit ≤ 0xDFFF

/-- Whether halves of surrogate pairs have to stand in pairs. -/
inductive Pairing
  | strict
  | lenient
deriving DecidableEq

/-- The character after a backslash and `u`. A lenient reading takes one unit at a time. -/
def unicodeEscape (pairing : Pairing) (text : List Char) : Except Fault (Char × Tail text) := do
  let (unit, after) ← codeUnit text
  if pairing = .lenient then return (Char.ofNat unit, after)
  else if isTrailing unit then .error .loneSurrogate
  else if isLeading unit then
    match shape : after.1 with
    | '\\' :: 'u' :: rest => do
      let (second, last) ← codeUnit rest
      if isTrailing second then
        return (Char.ofNat (0x10000 + (unit - 0xD800) * 0x400 + (second - 0xDC00)),
          ⟨last.1, by
            have := last.2
            have := after.2
            simp only [shape, List.length_cons] at this
            omega⟩)
      else .error .loneSurrogate
    | [] => .error .endInText
    | ['\\'] => .error .endInText
    | _ => .error .unfinishedSurrogatePair
  else return (Char.ofNat unit, after)

def escape (pairing : Pairing) (text : List Char) : Except Fault (Char × Tail text) :=
  match text with
  | [] => .error .endInText
  | 'u' :: rest => do
    let (c, after) ← unicodeEscape pairing rest
    return (c, ⟨after.1, Nat.lt_succ_of_lt after.2⟩)
  | c :: rest =>
    let short (meant : Char) : Except Fault (Char × Tail (c :: rest)) :=
      .ok (meant, ⟨rest, Nat.lt_succ_self _⟩)
    match c with
    | '"' => short '"'
    | '\\' => short '\\'
    | '/' => short '/'
    | 'b' => short '\x08'
    | 'f' => short '\x0c'
    | 'n' => short '\n'
    | 'r' => short '\r'
    | 't' => short '\t'
    | _ => .error .invalidEscape

/-- The characters up to the closing quote. -/
def text (pairing : Pairing) (input : List Char) : Except Fault (List Char × Tail input) :=
  match input with
  | [] => .error .endInText
  | '"' :: rest => .ok ([], ⟨rest, Nat.lt_succ_self _⟩)
  | '\\' :: rest => do
    let (c, after) ← escape pairing rest
    let (chars, last) ← text pairing after.1
    return (c :: chars, ⟨last.1, Nat.lt_succ_of_lt (Nat.lt_trans last.2 after.2)⟩)
  | c :: rest =>
    if c.toNat < 0x20 then .error .controlCharacter
    else do
      let (chars, last) ← text pairing rest
      return (c :: chars, ⟨last.1, Nat.lt_succ_of_lt last.2⟩)
termination_by input.length
decreasing_by
  · exact Nat.lt_succ_of_lt after.2
  · exact Nat.lt_succ_self _

end PdfAssembly.Json
