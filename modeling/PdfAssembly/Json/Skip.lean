import PdfAssembly.Json.Text

/-! Passing over a JSON value of any kind. Its form is checked, but strings may hold halves of
surrogate pairs and numbers may be of any size. -/
namespace PdfAssembly.Json

def word (letters : List Char) (text : List Char) :
    Except Fault { rest : List Char // rest.length ≤ text.length } :=
  match letters, text with
  | [], text => .ok ⟨text, Nat.le_refl _⟩
  | _ :: _, [] => .error .endInValue
  | letter :: letters, c :: rest =>
    if c = letter then do
      let after ← word letters rest
      return ⟨after.1, Nat.le_succ_of_le after.2⟩
    else .error .expectedWord

def skipDigits (text : List Char) : List Char := text.dropWhile Char.isDigit

theorem length_skipDigits_le (text : List Char) : (skipDigits text).length ≤ text.length :=
  length_dropWhile_le _ text

/-- At least one digit. -/
def skipPower (text : List Char) : Except Fault (Tail text) :=
  match text with
  | [] => .error .invalidNumber
  | c :: rest =>
    if c.isDigit then .ok ⟨skipDigits rest, Nat.lt_succ_of_le (length_skipDigits_le rest)⟩
    else .error .invalidNumber

def skipExponent (text : List Char) :
    Except Fault { rest : List Char // rest.length ≤ text.length } :=
  match text with
  | [] => .ok ⟨[], Nat.le_refl _⟩
  | e :: rest =>
    if e = 'e' ∨ e = 'E' then do
      let after ← skipPower (if rest.head?.any (· ∈ ['+', '-']) then rest.drop 1 else rest)
      return ⟨after.1, by
        have := after.2
        simp only [List.length_cons]
        split at this
        · rw [List.length_drop] at this
          omega
        · omega⟩
    else .ok ⟨e :: rest, Nat.le_refl _⟩

def skipFraction (text : List Char) :
    Except Fault { rest : List Char // rest.length ≤ text.length } :=
  match text with
  | ['.'] => .error .invalidNumber
  | '.' :: c :: rest =>
    if c.isDigit then do
      let after ← skipExponent (skipDigits rest)
      return ⟨after.1, by
        have := length_skipDigits_le rest
        have := after.2
        simp only [List.length_cons]
        omega⟩
    else .error .invalidNumber
  | text => skipExponent text

/-- A number without its sign. -/
def skipNumber (text : List Char) : Except Fault (Tail text) :=
  match text with
  | [] => .error .invalidNumber
  | c :: rest =>
    if c = '0' ∧ (rest.head?.any Char.isDigit) = true then .error .invalidNumber
    else if c.isDigit then do
      let after ← skipFraction (if c = '0' then rest else skipDigits rest)
      return ⟨after.1, by
        have := length_skipDigits_le rest
        have := after.2
        simp only [List.length_cons]
        split at this <;> omega⟩
    else .error .invalidNumber

def skipScalar (text : List Char) : Except Fault (Tail text) :=
  match text with
  | [] => .error .endInValue
  | c :: rest =>
    let named (letters : String) : Except Fault (Tail (c :: rest)) := do
      let after ← word letters.toList rest
      return ⟨after.1, Nat.lt_succ_of_le after.2⟩
    match c with
    | 'n' => named "ull"
    | 't' => named "rue"
    | 'f' => named "alse"
    | '"' => do
      let (_, after) ← Json.text .lenient rest
      return after.behind
    | '-' => do
      let after ← skipNumber rest
      return after.behind
    | _ => if c.isDigit then skipNumber (c :: rest) else .error .expectedValue

/-- A key and the colon behind it, from the opening quote on. -/
def skipKey (text : List Char) : Except Fault (Tail text) :=
  match shape : dropBlank text with
  | [] => .error (.endIn .object)
  | '"' :: rest => do
    let (_, after) ← Json.text .lenient rest
    match colon : dropBlank after.1 with
    | [] => .error (.endIn .object)
    | ':' :: last =>
      return ⟨last, by
        have first := length_dropBlank_le text
        have second := length_dropBlank_le after.1
        have := after.2
        simp only [shape, colon, List.length_cons] at first second
        omega⟩
    | _ => .error .expectedColon
  | _ => .error .keyNotText

def Container.closing : Container → Char
  | list => ']'
  | object => '}'

mutual

/-- Passes over a value and on to the end of the containers that are open around it. -/
def skipValue (opened : List Container) (text : List Char) : Except Fault (Tail text) :=
  match shape : dropBlank text with
  | [] => .error .endInValue
  | '[' :: rest => do
    have shorter : rest.length < text.length := by
      have := length_dropBlank_le text
      simp only [shape, List.length_cons] at this
      omega
    let after ← skipMore (.list :: opened) false rest
    return ⟨after.1, Nat.lt_of_le_of_lt after.2 shorter⟩
  | '{' :: rest => do
    have shorter : rest.length < text.length := by
      have := length_dropBlank_le text
      simp only [shape, List.length_cons] at this
      omega
    let after ← skipMore (.object :: opened) false rest
    return ⟨after.1, Nat.lt_of_le_of_lt after.2 shorter⟩
  | c :: more => do
    let scalar ← skipScalar (c :: more)
    have shorter : scalar.1.length < text.length := by
      have := length_dropBlank_le text
      have := scalar.2
      simp only [shape, List.length_cons] at *
      omega
    let after ← skipMore opened true scalar.1
    return ⟨after.1, Nat.lt_of_le_of_lt after.2 shorter⟩
termination_by (text.length, 0)

/-- Goes on inside the innermost open container, behind its opening or behind a value. -/
def skipMore (opened : List Container) (behindValue : Bool) (text : List Char) :
    Except Fault { rest : List Char // rest.length ≤ text.length } :=
  match opened with
  | [] => .ok ⟨text, Nat.le_refl _⟩
  | container :: outer =>
    have blank := length_dropBlank_le text
    match shape : dropBlank text with
    | [] => .error (.endIn container)
    | c :: rest =>
      have shorter : rest.length < text.length := by
        simp only [shape, List.length_cons] at blank
        omega
      if behindValue && c == ',' then
        match container with
        | .list => do
          let after ← skipValue opened rest
          return ⟨after.1, by have := after.2; omega⟩
        | .object => do
          let value ← skipKey rest
          have := value.2
          let after ← skipValue opened value.1
          return ⟨after.1, by have := after.2; omega⟩
      else if c = container.closing then do
        let after ← skipMore outer true rest
        return ⟨after.1, by have := after.2; omega⟩
      else if behindValue then .error (.expectedCommaOrEnd container)
      else
        match container with
        | .list => do
          let after ← skipValue opened text
          return ⟨after.1, Nat.le_of_lt after.2⟩
        | .object => do
          let value ← skipKey text
          have := value.2
          let after ← skipValue opened value.1
          return ⟨after.1, by have := after.2; omega⟩
termination_by (text.length, 1)

end

end PdfAssembly.Json
