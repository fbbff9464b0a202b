import PdfAssembly.Json.Skip
import PdfAssembly.Proofs.Results
import Mathlib.Data.List.Forall2

/-! What a JSON text looks like, and that a text of this form is read or passed over to its end.
Readings are maximal, so that what follows matters only behind a number. -/
namespace PdfAssembly.Json

def Passes {P : List Char → Prop} (reading : Except Fault { rest : List Char // P rest })
    (rest : List Char) : Prop :=
  ∃ valid, reading = .ok ⟨rest, valid⟩

def Reads {P : List Char → Prop} (reading : Except Fault (α × { rest : List Char // P rest }))
    (value : α) (rest : List Char) : Prop :=
  ∃ valid, reading = .ok (value, ⟨rest, valid⟩)

def Blank (text : List Char) : Prop := ∀ c ∈ text, isBlank c = true

theorem dropBlank_append {gap : List Char} (blank : Blank gap) (rest : List Char) :
    dropBlank (gap ++ rest) = dropBlank rest :=
  List.dropWhile_append_of_pos blank

theorem dropBlank_cons {c : Char} (solid : isBlank c = false) (rest : List Char) :
    dropBlank (c :: rest) = c :: rest := by
  simp [dropBlank, solid]

theorem dropBlank_of_blank {gap : List Char} (blank : Blank gap) : dropBlank gap = [] := by
  have dropped := dropBlank_append blank []
  rwa [List.append_nil] at dropped

/-! Strings -/

inductive IsUnit : Nat → List Char → Prop
  | digits {a b c d : Char} {w x y z : Nat} : hexDigit? a = some w → hexDigit? b = some x →
      hexDigit? c = some y → hexDigit? d = some z →
      IsUnit (((w * 16 + x) * 16 + y) * 16 + z) [a, b, c, d]

def letters : List (Char × Char) :=
  [('"', '"'), ('\\', '\\'), ('/', '/'), ('b', '\x08'), ('f', '\x0c'), ('n', '\n'), ('r', '\r'),
    ('t', '\t')]

/-- The ways to write a character in a string. Characters of more than 16 bits are written as
pairs of surrogates if they are written as numbers. -/
inductive Spells (c : Char) : List Char → Prop
  | plain : c ≠ '"' → c ≠ '\\' → 0x20 ≤ c.toNat → Spells c [c]
  | letter {letter : Char} : (letter, c) ∈ letters → Spells c ['\\', letter]
  | unit {digits : List Char} : IsUnit c.toNat digits → Spells c ('\\' :: 'u' :: digits)
  | pair (high low : List Char) : 0x10000 ≤ c.toNat →
      IsUnit (0xD800 + (c.toNat - 0x10000) / 0x400) high →
      IsUnit (0xDC00 + (c.toNat - 0x10000) % 0x400) low →
      Spells c ('\\' :: 'u' :: high ++ '\\' :: 'u' :: low)

inductive Quotes (text : String) : List Char → Prop
  | spelled (spellings : List (List Char)) : List.Forall₂ Spells text.toList spellings →
      Quotes text ('"' :: spellings.flatten ++ ['"'])

/-- What needs no escape can be written without any. -/
theorem Quotes.plain {text : String}
    (printed : ∀ c ∈ text.toList, c ≠ '"' ∧ c ≠ '\\' ∧ 0x20 ≤ c.toNat) :
    Quotes text ('"' :: text.toList ++ ['"']) := by
  have spelled : List.Forall₂ Spells text.toList (text.toList.map fun c => [c]) := by
    rw [List.forall₂_map_right_iff, List.forall₂_same]
    exact fun c member => .plain (printed c member).1 (printed c member).2.1 (printed c member).2.2
  have same : (text.toList.map fun c => [c]).flatten = text.toList := by
    rw [← List.flatMap_def, List.flatMap_singleton']
  have quoted := Quotes.spelled _ spelled
  rwa [same] at quoted

/-- What may stand in a string. Numbers in escapes need not be those of characters. -/
inductive Piece : List Char → Prop
  | plain {c : Char} : c ≠ '"' → c ≠ '\\' → 0x20 ≤ c.toNat → Piece [c]
  | letter {letter c : Char} : (letter, c) ∈ letters → Piece ['\\', letter]
  | unit (unit : Nat) {digits : List Char} : IsUnit unit digits → Piece ('\\' :: 'u' :: digits)

inductive IsString : List Char → Prop
  | pieces (pieces : List (List Char)) : (∀ piece ∈ pieces, Piece piece) →
      IsString ('"' :: pieces.flatten ++ ['"'])

theorem codeUnit_append {unit : Nat} {digits : List Char} (written : IsUnit unit digits)
    (rest : List Char) : Reads (codeUnit (digits ++ rest)) unit rest := by
  cases written with
  | digits first second third fourth =>
    refine ⟨by simp only [List.cons_append, List.nil_append, List.length_cons]; omega, ?_⟩
    simp [codeUnit, first, second, third, fourth]

theorem Reads.quote (pairing : Pairing) (rest : List Char) :
    Reads (text pairing ('"' :: rest)) [] rest := by
  rw [text]
  exact ⟨_, rfl⟩

theorem Reads.plain {pairing : Pairing} {c : Char} {chars rest last : List Char}
    (mark : c ≠ '"') (slash : c ≠ '\\') (printed : 0x20 ≤ c.toNat)
    (behind : Reads (text pairing rest) chars last) :
    Reads (text pairing (c :: rest)) (c :: chars) last := by
  obtain ⟨_, done⟩ := behind
  rw [text.eq_4 _ _ _ mark slash]
  simp only [Nat.not_lt.2 printed, if_false, done]
  exact ⟨_, rfl⟩

theorem Reads.escape {pairing : Pairing} {c : Char} {chars rest middle last : List Char}
    (first : Reads (Json.escape pairing rest) c middle)
    (behind : Reads (text pairing middle) chars last) :
    Reads (text pairing ('\\' :: rest)) (c :: chars) last := by
  obtain ⟨_, escaped⟩ := first
  obtain ⟨_, done⟩ := behind
  rw [text]
  simp only [escaped, bind, Except.bind, done]
  exact ⟨_, rfl⟩

theorem escape_letter {letter c : Char} (listed : (letter, c) ∈ letters) (pairing : Pairing)
    (rest : List Char) : Reads (escape pairing (letter :: rest)) c rest := by
  simp only [letters, List.mem_cons, Prod.mk.injEq, List.not_mem_nil, or_false] at listed
  rcases listed with ⟨rfl, rfl⟩ | ⟨rfl, rfl⟩ | ⟨rfl, rfl⟩ | ⟨rfl, rfl⟩ | ⟨rfl, rfl⟩ | ⟨rfl, rfl⟩ |
    ⟨rfl, rfl⟩ | ⟨rfl, rfl⟩ <;> exact ⟨_, rfl⟩

theorem Reads.behind_u {pairing : Pairing} {c : Char} {rest last : List Char}
    (read : Reads (unicodeEscape pairing rest) c last) :
    Reads (Json.escape pairing ('u' :: rest)) c last := by
  obtain ⟨_, done⟩ := read
  rw [Json.escape, done]
  exact ⟨_, rfl⟩

/-- Characters are none of the numbers that stand for half a pair. -/
theorem not_surrogate (c : Char) : isLeading c.toNat = false ∧ isTrailing c.toNat = false := by
  have valid : c.toNat < 0xD800 ∨ 0xDFFF < c.toNat ∧ c.toNat < 0x110000 := c.valid
  simp only [isLeading, isTrailing, Bool.and_eq_false_iff, decide_eq_false_iff_not]
  omega

theorem unicodeEscape_lenient {unit : Nat} {digits : List Char} (written : IsUnit unit digits)
    (rest : List Char) :
    Reads (unicodeEscape .lenient (digits ++ rest)) (Char.ofNat unit) rest := by
  obtain ⟨_, done⟩ := codeUnit_append written rest
  rw [unicodeEscape, done]
  exact ⟨_, rfl⟩

theorem unicodeEscape_unit {c : Char} {digits : List Char} (written : IsUnit c.toNat digits)
    (rest : List Char) : Reads (unicodeEscape .strict (digits ++ rest)) c rest := by
  obtain ⟨_, done⟩ := codeUnit_append written rest
  simp only [unicodeEscape, done, bind, Except.bind, not_surrogate c, Char.ofNat_toNat]
  exact ⟨_, rfl⟩

theorem unicodeEscape_pair {c : Char} {high low : List Char} (wide : 0x10000 ≤ c.toNat)
    (first : IsUnit (0xD800 + (c.toNat - 0x10000) / 0x400) high)
    (second : IsUnit (0xDC00 + (c.toNat - 0x10000) % 0x400) low) (rest : List Char) :
    Reads (unicodeEscape .strict (high ++ '\\' :: 'u' :: (low ++ rest))) c rest := by
  obtain ⟨_, done⟩ := codeUnit_append first ('\\' :: 'u' :: (low ++ rest))
  obtain ⟨_, ended⟩ := codeUnit_append second rest
  have valid : c.toNat < 0xD800 ∨ 0xDFFF < c.toNat ∧ c.toNat < 0x110000 := c.valid
  have leading : isLeading (0xD800 + (c.toNat - 0x10000) / 0x400) = true := by
    simp only [isLeading, Bool.and_eq_true, decide_eq_true_eq]
    omega
  have notTrailing : isTrailing (0xD800 + (c.toNat - 0x10000) / 0x400) = false := by
    simp only [isTrailing, Bool.and_eq_false_iff, decide_eq_false_iff_not]
    omega
  have trailing : isTrailing (0xDC00 + (c.toNat - 0x10000) % 0x400) = true := by
    simp only [isTrailing, Bool.and_eq_true, decide_eq_true_eq]
    omega
  have whole : 0x10000 + (0xD800 + (c.toNat - 0x10000) / 0x400 - 0xD800) * 0x400 +
      (0xDC00 + (c.toNat - 0x10000) % 0x400 - 0xDC00) = c.toNat := by
    omega
  simp only [unicodeEscape, done, bind, Except.bind, leading, notTrailing, ended, trailing, whole,
    Char.ofNat_toNat]
  exact ⟨_, rfl⟩

theorem Spells.reads {c : Char} {spelling chars rest last : List Char}
    (spelled : Spells c spelling) (behind : Reads (text .strict rest) chars last) :
    Reads (text .strict (spelling ++ rest)) (c :: chars) last := by
  cases spelled with
  | plain mark slash printed => exact behind.plain mark slash printed
  | letter listed => exact (escape_letter listed .strict rest).escape behind
  | unit written => exact (unicodeEscape_unit written rest).behind_u.escape behind
  | pair high low wide first second =>
    rw [List.append_assoc]
    exact (unicodeEscape_pair wide first second rest).behind_u.escape behind

theorem Piece.reads {piece chars rest last : List Char} (form : Piece piece)
    (behind : Reads (text .lenient rest) chars last) :
    ∃ c, Reads (text .lenient (piece ++ rest)) (c :: chars) last := by
  cases form with
  | plain mark slash printed => exact ⟨_, behind.plain mark slash printed⟩
  | letter listed => exact ⟨_, (escape_letter listed .lenient rest).escape behind⟩
  | unit _ written => exact ⟨_, (unicodeEscape_lenient written rest).behind_u.escape behind⟩

/-- However a text is written, it is read as what it is. -/
theorem Quotes.reads {value : String} {written : List Char} (quoted : Quotes value written)
    (rest : List Char) : ∃ inner, written ++ rest = '"' :: inner ∧
      Reads (text .strict inner) value.toList rest := by
  obtain ⟨spellings, spelled⟩ := quoted
  refine ⟨spellings.flatten ++ '"' :: rest, by simp, ?_⟩
  generalize value.toList = chars at spelled
  induction spelled with
  | nil => exact .quote .strict rest
  | cons first _ ih =>
    rw [List.flatten_cons, List.append_assoc]
    exact first.reads ih

theorem IsString.reads {written : List Char} (form : IsString written) (rest : List Char) :
    ∃ inner chars, written ++ rest = '"' :: inner ∧ Reads (text .lenient inner) chars rest := by
  obtain ⟨list, pieces⟩ := form
  refine ⟨list.flatten ++ '"' :: rest, ?_⟩
  simp only [List.cons_append, List.append_assoc, List.nil_append, true_and]
  induction list with
  | nil => exact ⟨[], .quote .lenient rest⟩
  | cons piece list ih =>
    obtain ⟨first, others⟩ := List.forall_mem_cons.1 pieces
    obtain ⟨chars, behind⟩ := ih others
    obtain ⟨c, done⟩ := first.reads behind
    rw [List.flatten_cons, List.append_assoc]
    exact ⟨c :: chars, done⟩

/-! Numbers -/

def Digits (text : List Char) : Prop := text ≠ [] ∧ ∀ c ∈ text, c.isDigit = true

def IsFraction (text : List Char) : Prop :=
  text = [] ∨ ∃ digits, Digits digits ∧ text = '.' :: digits

def IsExponent (text : List Char) : Prop :=
  text = [] ∨ ∃ letter sign digits, (letter = 'e' ∨ letter = 'E') ∧
    (sign = [] ∨ sign = ['+'] ∨ sign = ['-']) ∧ Digits digits ∧ text = letter :: sign ++ digits

/-- No digit stands in front of the point for nothing. -/
inductive IsNumber : List Char → Prop
  | parts (sign whole fraction exponent : List Char) : (sign = [] ∨ sign = ['-']) →
      Digits whole → (whole.head? = some '0' → whole = ['0']) → IsFraction fraction →
      IsExponent exponent → IsNumber (sign ++ whole ++ fraction ++ exponent)

def Stops (rest : List Char) : Prop :=
  ∀ c, rest.head? = some c → c.isDigit = false ∧ c ≠ '.' ∧ c ≠ 'e' ∧ c ≠ 'E'

theorem skipDigits_append {digits rest : List Char} (all : ∀ c ∈ digits, c.isDigit = true)
    (stop : ∀ c, rest.head? = some c → c.isDigit = false) : skipDigits (digits ++ rest) = rest := by
  rw [skipDigits, List.dropWhile_append_of_pos all]
  cases rest with
  | nil => rfl
  | cons c rest => simp [stop c rfl]

theorem Digits.cases {digits : List Char} (form : Digits digits) : ∃ first more,
    digits = first :: more ∧ first.isDigit = true ∧ ∀ c ∈ more, c.isDigit = true := by
  obtain ⟨some, all⟩ := form
  cases digits with
  | nil => exact absurd rfl some
  | cons first more => exact ⟨first, more, rfl, List.forall_mem_cons.1 all⟩

theorem skipPower_append {digits rest : List Char} (form : Digits digits) (stop : Stops rest) :
    Passes (skipPower (digits ++ rest)) rest := by
  obtain ⟨first, more, rfl, digit, all⟩ := form.cases
  have behind := skipDigits_append all fun c here => (stop c here).1
  simp only [List.cons_append, skipPower, digit, if_true, behind]
  exact ⟨_, rfl⟩

theorem skipExponent_append {exponent rest : List Char} (form : IsExponent exponent)
    (stop : Stops rest) : Passes (skipExponent (exponent ++ rest)) rest := by
  rcases form with rfl | ⟨letter, sign, digits, mark, signed, power, rfl⟩
  · cases rest with
    | nil => exact ⟨_, rfl⟩
    | cons c rest =>
      obtain ⟨_, _, small, capital⟩ := stop c rfl
      simp only [List.nil_append, skipExponent, small, capital, or_self, if_false]
      exact ⟨_, rfl⟩
  · have unsigned : (if ((sign ++ (digits ++ rest)).head?.any (· ∈ ['+', '-'])) = true
        then (sign ++ (digits ++ rest)).drop 1 else sign ++ (digits ++ rest)) = digits ++ rest := by
      obtain ⟨first, more, rfl, digit, _⟩ := power.cases
      rcases signed with rfl | rfl | rfl
      · have plus : first ≠ '+' := by rintro rfl; cases digit
        have minus : first ≠ '-' := by rintro rfl; cases digit
        simp [plus, minus]
      · rfl
      · rfl
    have done := skipPower_append power stop
    rw [← unsigned] at done
    obtain ⟨_, done⟩ := done
    rw [List.cons_append, List.cons_append, List.append_assoc]
    simp only [skipExponent, mark, if_true, done]
    exact ⟨_, rfl⟩

theorem stops_exponent {exponent rest : List Char} (form : IsExponent exponent)
    (stop : Stops rest) : ∀ c, (exponent ++ rest).head? = some c → c.isDigit = false ∧ c ≠ '.' := by
  rcases form with rfl | ⟨letter, sign, digits, rfl | rfl, _, _, rfl⟩
  · exact fun c here => ⟨(stop c here).1, (stop c here).2.1⟩
  · rintro c ⟨⟩
    decide
  · rintro c ⟨⟩
    decide

theorem skipFraction_append {fraction exponent rest : List Char} (point : IsFraction fraction)
    (form : IsExponent exponent) (stop : Stops rest) :
    Passes (skipFraction (fraction ++ (exponent ++ rest))) rest := by
  have behind := stops_exponent form stop
  rcases point with rfl | ⟨digits, all, rfl⟩
  · have whole := skipExponent_append form stop
    rw [List.nil_append]
    generalize exponent ++ rest = next at behind whole
    rw [skipFraction]
    · exact whole
    · rintro rfl
      exact (behind '.' rfl).2 rfl
    · rintro c more rfl
      exact (behind '.' rfl).2 rfl
  · obtain ⟨first, more, rfl, digit, all⟩ := all.cases
    have ended := skipDigits_append all fun c here => (behind c here).1
    have done := skipExponent_append form stop
    rw [← ended] at done
    obtain ⟨_, done⟩ := done
    simp only [List.cons_append, skipFraction, digit, if_true, done]
    exact ⟨_, rfl⟩

theorem stops_fraction {fraction exponent rest : List Char} (point : IsFraction fraction)
    (form : IsExponent exponent) (stop : Stops rest) :
    ∀ c, (fraction ++ (exponent ++ rest)).head? = some c → c.isDigit = false := by
  rcases point with rfl | ⟨digits, _, rfl⟩
  · exact fun c here => (stops_exponent form stop c here).1
  · rintro c ⟨⟩
    decide

theorem skipNumber_append {whole fraction exponent rest : List Char} (digits : Digits whole)
    (short : whole.head? = some '0' → whole = ['0']) (point : IsFraction fraction)
    (form : IsExponent exponent) (stop : Stops rest) :
    Passes (skipNumber (whole ++ (fraction ++ (exponent ++ rest)))) rest := by
  have behind := stops_fraction point form stop
  have done := skipFraction_append point form stop
  obtain ⟨first, more, rfl, digit, all⟩ := digits.cases
  generalize fraction ++ (exponent ++ rest) = next at behind done
  have alone : first = '0' → more = [] := by
    rintro rfl
    exact (List.cons.inj (short rfl)).2
  have single : ¬ (first = '0' ∧ ((more ++ next).head?.any Char.isDigit) = true) := by
    rintro ⟨zero, other⟩
    rw [alone zero, List.nil_append] at other
    cases next with
    | nil => cases other
    | cons c _ => simp [behind c rfl] at other
  have start : (if first = '0' then more ++ next else skipDigits (more ++ next)) = next := by
    split
    · rename_i zero
      rw [alone zero, List.nil_append]
    · exact skipDigits_append all behind
  rw [← start] at done
  obtain ⟨_, done⟩ := done
  simp only [List.cons_append, skipNumber, single, digit, if_true, if_false, done]
  exact ⟨_, rfl⟩

/-! Values -/

def Container.opening : Container → Char
  | list => '['
  | object => '{'

inductive IsScalar : List Char → Prop
  | null : IsScalar ['n', 'u', 'l', 'l']
  | yes : IsScalar ['t', 'r', 'u', 'e']
  | no : IsScalar ['f', 'a', 'l', 's', 'e']
  | number {text : List Char} : IsNumber text → IsScalar text
  | string {text : List Char} : IsString text → IsScalar text

/-- What a piece of a text is: a value, a value between blanks, an element or a member, or all
that stands in a container with something in it. -/
inductive Part
  | value
  | padded
  | item (container : Container)
  | items (container : Container)

inductive Written : Part → List Char → Prop
  | scalar {text : List Char} : IsScalar text → Written .value text
  | empty {container : Container} {gap : List Char} : Blank gap →
      Written .value (container.opening :: gap ++ [container.closing])
  | full {container : Container} {inside : List Char} : Written (.items container) inside →
      Written .value (container.opening :: inside ++ [container.closing])
  | padded {before value after : List Char} : Blank before → Written .value value → Blank after →
      Written .padded (before ++ value ++ after)
  | element {text : List Char} : Written .padded text → Written (.item .list) text
  | member {before key behind value : List Char} : Blank before → IsString key → Blank behind →
      Written .padded value → Written (.item .object) (before ++ key ++ behind ++ ':' :: value)
  | last {container : Container} {item : List Char} : Written (.item container) item →
      Written (.items container) item
  | more {container : Container} {item rest : List Char} : Written (.item container) item →
      Written (.items container) rest → Written (.items container) (item ++ ',' :: rest)

theorem word_append (letters rest : List Char) : Passes (word letters (letters ++ rest)) rest := by
  induction letters with
  | nil => exact ⟨Nat.le_refl _, by cases rest <;> rfl⟩
  | cons letter letters ih =>
    obtain ⟨_, done⟩ := ih
    simp only [List.cons_append, word, if_true, done]
    exact ⟨_, rfl⟩

theorem IsNumber.passes {text rest : List Char} (form : IsNumber text) (stop : Stops rest) :
    Passes (skipScalar (text ++ rest)) rest := by
  obtain ⟨sign, whole, fraction, exponent, signed, digits, short, point, power⟩ := form
  have shape : sign ++ whole ++ fraction ++ exponent ++ rest =
      sign ++ (whole ++ (fraction ++ (exponent ++ rest))) := by simp
  have done := skipNumber_append digits short point power stop
  rw [shape]
  generalize fraction ++ (exponent ++ rest) = next at done
  rcases signed with rfl | rfl
  · obtain ⟨first, more, rfl, digit, all⟩ := digits.cases
    rw [List.nil_append]
    rw [List.cons_append] at done ⊢
    rw [skipScalar.eq_7, if_pos digit]
    · exact done
    -- No digit is one of the letters and marks that start other values.
    all_goals rintro rfl; cases digit
  · obtain ⟨_, done⟩ := done
    simp only [List.cons_append, skipScalar, List.nil_append, done]
    exact ⟨_, rfl⟩

theorem IsScalar.passes {text rest : List Char} (scalar : IsScalar text) (stop : Stops rest) :
    Passes (skipScalar (text ++ rest)) rest := by
  cases scalar
  case number form => exact form.passes stop
  case string form =>
    obtain ⟨inner, chars, same, _, done⟩ := form.reads rest
    rw [same]
    simp only [skipScalar, done]
    exact ⟨_, rfl⟩
  case' null => obtain ⟨_, done⟩ := word_append ['u', 'l', 'l'] rest
  case' yes => obtain ⟨_, done⟩ := word_append ['r', 'u', 'e'] rest
  case' no => obtain ⟨_, done⟩ := word_append ['a', 'l', 's', 'e'] rest
  all_goals
    rw [List.cons_append, skipScalar]
    simp only [String.reduceToList, done]
    exact ⟨_, rfl⟩

/-- Passes over an element, or over a key and its value, and on to the end of the containers that
are open around it. -/
def skipItem (container : Container) (outer : List Container) (text : List Char) :
    Except Fault (List Char) :=
  match container with
  | .list => do return (← skipValue (.list :: outer) text).1
  | .object => do
    let value ← skipKey text
    return (← skipValue (.object :: outer) value.1).1

theorem Passes.scalar {opened : List Container} {text more rest left : List Char} {c : Char}
    (shape : dropBlank text = c :: more) (list : c ≠ '[') (object : c ≠ '{')
    (scalar : Passes (skipScalar (c :: more)) rest)
    (behind : Passes (skipMore opened true rest) left) :
    Passes (skipValue opened text) left := by
  obtain ⟨_, first⟩ := scalar
  obtain ⟨_, done⟩ := behind
  rw [skipValue]
  split
  · simp_all
  · rename_i same
    exact absurd (List.cons.inj (shape.symm.trans same)).1 list
  · rename_i same
    exact absurd (List.cons.inj (shape.symm.trans same)).1 object
  · rename_i same
    rw [shape] at same
    cases same
    simp only [first, done, bind, Except.bind]
    exact ⟨_, rfl⟩

theorem Passes.opening {container : Container} {opened : List Container}
    {text rest left : List Char} (shape : dropBlank text = container.opening :: rest)
    (inside : Passes (skipMore (container :: opened) false rest) left) :
    Passes (skipValue opened text) left := by
  obtain ⟨_, done⟩ := inside
  rw [skipValue]
  split
  · simp_all
  · rename_i same
    rw [shape] at same
    cases container <;> cases same
    simp only [done, bind, Except.bind]
    exact ⟨_, rfl⟩
  · rename_i same
    rw [shape] at same
    cases container <;> cases same
    simp only [done, bind, Except.bind]
    exact ⟨_, rfl⟩
  · rename_i list object same
    rw [shape] at same
    cases container <;> cases same
    · exact absurd rfl list
    · exact absurd rfl object

theorem Passes.closing {container : Container} {outer : List Container} {behindValue : Bool}
    {text rest left : List Char} (shape : dropBlank text = container.closing :: rest)
    (behind : Passes (skipMore outer true rest) left) :
    Passes (skipMore (container :: outer) behindValue text) left := by
  obtain ⟨_, done⟩ := behind
  rw [skipMore]
  split
  · simp_all
  · rename_i same
    rw [shape] at same
    cases same
    have comma : (container.closing == ',') = false := by cases container <;> rfl
    simp only [comma, Bool.and_false, Bool.false_eq_true, if_false, if_true, done, bind,
      Except.bind]
    exact ⟨_, rfl⟩

/-- Where an item begins in a container: behind a comma, or behind the opening unless the
container is closed there. -/
inductive Begins (container : Container) : Bool → List Char → List Char → Prop
  | comma {text rest : List Char} : dropBlank text = ',' :: rest → Begins container true text rest
  | first {text more : List Char} {c : Char} : dropBlank text = c :: more →
      c ≠ container.closing → Begins container false text text

theorem Passes.item {container : Container} {outer : List Container} {behindValue : Bool}
    {text rest left : List Char} (begins : Begins container behindValue text rest)
    (behind : skipItem container outer rest = .ok left) :
    Passes (skipMore (container :: outer) behindValue text) left := by
  rw [skipMore]
  obtain shape | ⟨shape, other⟩ := begins
  all_goals
    split
    · simp_all
    rename_i same
    cases shape.symm.trans same
    simp only [BEq.rfl, Bool.and_self, Bool.false_and, Bool.false_eq_true, if_true, if_false, *]
    cases container with
    | list =>
      obtain ⟨⟨_, _⟩, done, same⟩ := bind_eq_ok_iff.1 behind
      cases same
      simp only [done, bind, Except.bind]
      exact ⟨_, rfl⟩
    | object =>
      obtain ⟨⟨_, _⟩, key, value⟩ := bind_eq_ok_iff.1 behind
      obtain ⟨⟨_, _⟩, done, same⟩ := bind_eq_ok_iff.1 value
      cases same
      simp only [key, done, bind, Except.bind]
      exact ⟨_, rfl⟩

theorem IsNumber.head {text : List Char} (form : IsNumber text) :
    ∃ c more, text = c :: more ∧ (c = '-' ∨ c.isDigit = true) := by
  obtain ⟨sign, whole, _, _, rfl | rfl, digits, _⟩ := form
  · obtain ⟨first, more, rfl, digit, _⟩ := digits.cases
    exact ⟨_, _, rfl, .inr digit⟩
  · exact ⟨_, _, rfl, .inl rfl⟩

def Starts (c : Char) : Prop := isBlank c = false ∧ c ∉ [',', ']', '}']

instance (c : Char) : Decidable (Starts c) := inferInstanceAs (Decidable (_ ∧ _))

theorem Starts.ne_closing {c : Char} (start : Starts c) (container : Container) :
    c ≠ container.closing := by
  rintro rfl
  exact start.2 (by cases container <;> decide)

theorem starts_of_isDigit {c : Char} (digit : c.isDigit = true) : Starts c := by
  constructor
  · simp only [isBlank, Bool.or_eq_false_iff, beq_eq_false_iff_ne]
    refine ⟨⟨⟨?_, ?_⟩, ?_⟩, ?_⟩ <;> rintro rfl <;> cases digit
  · simp only [List.mem_cons, List.not_mem_nil, or_false]
    rintro (rfl | rfl | rfl) <;> cases digit

theorem IsScalar.head {text : List Char} (scalar : IsScalar text) :
    ∃ c more, text = c :: more ∧ Starts c ∧ c ≠ '[' ∧ c ≠ '{' := by
  have ruled : ∀ c ∈ ['n', 't', 'f', '"', '-'], Starts c ∧ c ≠ '[' ∧ c ≠ '{' := by
    simp [Starts, isBlank]
  cases scalar with
  | null => exact ⟨_, _, rfl, ruled _ (by simp)⟩
  | yes => exact ⟨_, _, rfl, ruled _ (by simp)⟩
  | no => exact ⟨_, _, rfl, ruled _ (by simp)⟩
  | number form =>
    obtain ⟨c, more, rfl, rfl | digit⟩ := form.head
    · exact ⟨_, _, rfl, ruled _ (by simp)⟩
    · refine ⟨_, _, rfl, starts_of_isDigit digit, ?_, ?_⟩ <;> rintro rfl <;> cases digit
  | string form =>
    obtain ⟨_⟩ := form
    exact ⟨_, _, rfl, ruled _ (by simp)⟩

theorem Written.starts {text : List Char} (written : Written .value text) :
    ∃ c more, text = c :: more ∧ Starts c := by
  cases written with
  | scalar form =>
    obtain ⟨c, more, rfl, start, _⟩ := form.head
    exact ⟨c, more, rfl, start⟩
  | @empty container | @full container =>
    refine ⟨_, _, rfl, ?_⟩
    cases container <;> decide

theorem IsString.head {text : List Char} (form : IsString text) : ∃ more, text = '"' :: more := by
  obtain ⟨_⟩ := form
  exact ⟨_, rfl⟩

theorem Written.padded_starts {text : List Char} (written : Written .padded text)
    (rest : List Char) : ∃ c more, dropBlank (text ++ rest) = c :: more ∧ Starts c := by
  cases written with
  | padded before value after =>
    obtain ⟨c, more, rfl, start⟩ := value.starts
    rw [List.append_assoc, List.append_assoc, dropBlank_append before]
    exact ⟨_, _, dropBlank_cons start.1 _, start⟩

theorem Written.item_starts {container : Container} {text : List Char}
    (written : Written (.item container) text) (rest : List Char) :
    ∃ c more, dropBlank (text ++ rest) = c :: more ∧ Starts c := by
  cases written with
  | element value => exact value.padded_starts rest
  | member before key =>
    obtain ⟨more, rfl⟩ := key.head
    rw [List.append_assoc, List.append_assoc, List.append_assoc, dropBlank_append before]
    exact ⟨_, _, dropBlank_cons rfl _, by decide⟩

theorem Written.items_start {container : Container} {text : List Char}
    (written : Written (.items container) text) (rest : List Char) :
    ∃ c more, dropBlank (text ++ rest) = c :: more ∧ Starts c := by
  cases written with
  | last item => exact item.item_starts rest
  | more item =>
    rw [List.append_assoc]
    exact item.item_starts _

theorem Stops.blank {gap rest : List Char} (stop : Stops rest) (blank : Blank gap) :
    Stops (gap ++ rest) := by
  cases gap with
  | nil => exact stop
  | cons c gap =>
    have here := blank c (by simp)
    rintro _ ⟨⟩
    simp only [isBlank, Bool.or_eq_true, beq_iff_eq] at here
    rcases here with ((rfl | rfl) | rfl) | rfl <;> decide

theorem stops_cons {c : Char} (mark : c ∈ [',', ']', '}']) (rest : List Char) :
    Stops (c :: rest) := by
  simp only [List.mem_cons, List.not_mem_nil, or_false] at mark
  rintro _ ⟨⟩
  rcases mark with rfl | rfl | rfl <;> decide

theorem stops_closing (container : Container) (rest : List Char) :
    Stops (container.closing :: rest) :=
  stops_cons (by cases container <;> decide) rest

theorem skipKey_append {before key behind rest : List Char} (blank : Blank before)
    (form : IsString key) (gap : Blank behind) :
    Passes (skipKey (before ++ (key ++ (behind ++ ':' :: rest)))) rest := by
  obtain ⟨inner, chars, same, _, done⟩ := form.reads (behind ++ ':' :: rest)
  have start : dropBlank (before ++ (key ++ (behind ++ ':' :: rest))) = '"' :: inner := by
    rw [dropBlank_append blank, same, dropBlank_cons rfl]
  have colon : dropBlank (behind ++ ':' :: rest) = ':' :: rest := by
    rw [dropBlank_append gap, dropBlank_cons rfl]
  rw [skipKey]
  split
  · simp_all
  · rename_i mark
    cases start.symm.trans mark
    simp only [done, bind, Except.bind]
    split
    · simp_all
    · rename_i point
      cases colon.symm.trans point
      exact ⟨_, rfl⟩
    · simp_all
  · simp_all

/-- What is shown of a piece of a text by going over it: where it ends, the reading goes on. -/
def Goes : Part → List Char → Prop
  | .value, text => ∀ opened gap rest left, Blank gap → Stops rest →
      Passes (skipMore opened true rest) left →
      Passes (skipValue opened (gap ++ (text ++ rest))) left
  | .padded, text => ∀ opened rest left, Stops rest →
      (∀ gap, Blank gap → Passes (skipMore opened true (gap ++ rest)) left) →
      Passes (skipValue opened (text ++ rest)) left
  | .item container, text => ∀ outer rest left, Stops rest →
      (∀ gap, Blank gap → Passes (skipMore (container :: outer) true (gap ++ rest)) left) →
      skipItem container outer (text ++ rest) = .ok left
  | .items container, text => ∀ outer rest left, Passes (skipMore outer true rest) left →
      skipItem container outer (text ++ container.closing :: rest) = .ok left

theorem Passes.close {outer : List Container} {rest left : List Char}
    (behind : Passes (skipMore outer true rest) left) (container : Container) (behindValue : Bool)
    {gap : List Char} (blank : Blank gap) :
    Passes (skipMore (container :: outer) behindValue (gap ++ container.closing :: rest)) left := by
  refine .closing ?_ behind
  rw [dropBlank_append blank, dropBlank_cons (by cases container <;> rfl)]

theorem Written.goes {part : Part} {text : List Char} (written : Written part text) :
    Goes part text := by
  induction written with
  | scalar form =>
    intro opened gap rest left blank stop behind
    obtain ⟨c, more, rfl, start, list, object⟩ := form.head
    refine .scalar ?_ list object (form.passes stop) behind
    rw [dropBlank_append blank, List.cons_append, dropBlank_cons start.1]
    rfl
  | @empty container inside nothing =>
    intro opened gap rest left blank _ behind
    refine .opening ?_ (behind.close container false nothing)
    rw [dropBlank_append blank, List.append_assoc, List.cons_append,
      dropBlank_cons (by cases container <;> rfl)]
    rfl
  | @full container inside filled ih =>
    intro opened gap rest left blank _ behind
    obtain ⟨c, more, shape, start⟩ := filled.items_start (container.closing :: rest)
    refine .opening ?_
      (.item (.first shape (start.ne_closing container)) (ih opened rest left behind))
    rw [dropBlank_append blank, List.append_assoc, List.cons_append,
      dropBlank_cons (by cases container <;> rfl)]
    rfl
  | padded before _ after ih =>
    intro opened rest left stop behind
    rw [List.append_assoc, List.append_assoc]
    exact ih opened _ _ left before (stop.blank after) (behind _ after)
  | element _ ih =>
    intro outer rest left stop behind
    obtain ⟨_, done⟩ := ih (.list :: outer) rest left stop behind
    exact bind_eq_ok_iff.2 ⟨_, done, rfl⟩
  | member before key gap _ ih =>
    intro outer rest left stop behind
    obtain ⟨_, done⟩ := ih (.object :: outer) rest left stop behind
    rw [List.append_assoc, List.append_assoc, List.append_assoc]
    obtain ⟨_, started⟩ := skipKey_append before key gap
    exact bind_eq_ok_iff.2 ⟨_, started, bind_eq_ok_iff.2 ⟨_, done, rfl⟩⟩
  | @last container item _ ih =>
    intro outer rest left behind
    exact ih outer _ left (stops_closing container rest) fun gap blank =>
      behind.close container true blank
  | @more container item others _ _ first ih =>
    intro outer rest left behind
    rw [List.append_assoc]
    refine first outer _ left (stops_cons (by decide) _) fun gap blank => ?_
    refine .item (.comma ?_) (ih outer rest left behind)
    rw [dropBlank_append blank, List.cons_append, dropBlank_cons rfl]

/-- A value of any kind is passed over to its end. -/
theorem skipValue_append {gap text rest : List Char} (blank : Blank gap)
    (written : Written .value text) (stop : Stops rest) :
    Passes (skipValue [] (gap ++ (text ++ rest))) rest :=
  written.goes [] gap rest rest blank stop ⟨Nat.le_refl _, by rw [skipMore]⟩

end PdfAssembly.Json
