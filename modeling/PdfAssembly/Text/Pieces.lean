/-! Cutting a text at separators and joining the pieces again. Cutting loses nothing but the
separators, no piece holds one, and pieces without separators survive joining and cutting. -/
namespace PdfAssembly.Text

/-- The pieces between separators: one more than there are separators, possibly empty. -/
def pieces (separator : Char → Bool) : List Char → List (List Char)
  | [] => [[]]
  | c :: rest =>
    if separator c then [] :: pieces separator rest
    else match pieces separator rest with
      | [] => [[c]]
      | piece :: others => (c :: piece) :: others

theorem pieces_ne_nil (separator : Char → Bool) (text : List Char) :
    pieces separator text ≠ [] := by
  fun_cases pieces separator text <;> simp_all

def glue (separator : Char) : List (List Char) → List Char
  | [] => []
  | [piece] => piece
  | piece :: next :: others => piece ++ separator :: glue separator (next :: others)

theorem glue_cons_cons (separator c : Char) (piece : List Char) (others : List (List Char)) :
    glue separator ((c :: piece) :: others) = c :: glue separator (piece :: others) := by
  cases others <;> rfl

theorem glue_pieces (separator : Char) (text : List Char) :
    glue separator (pieces (· == separator) text) = text := by
  induction text with
  | nil => rfl
  | cons c rest ih =>
    have some := pieces_ne_nil (· == separator) rest
    unfold pieces
    split
    · rename_i same
      cases found : pieces (· == separator) rest with
      | nil => contradiction
      | cons piece others => rw [found] at ih; simp_all [glue]
    · cases found : pieces (· == separator) rest with
      | nil => contradiction
      | cons piece others => rw [found] at ih; simp [glue_cons_cons, ih]

theorem separator_free_of_mem_pieces {separator : Char → Bool} {text piece : List Char}
    (member : piece ∈ pieces separator text) : ∀ c ∈ piece, separator c = false := by
  induction text generalizing piece with
  | nil => simp_all [pieces]
  | cons c rest ih =>
    unfold pieces at member
    split at member
    · rcases List.mem_cons.1 member with rfl | member
      · simp
      · exact ih member
    · have := @ih piece
      split at member <;> grind

theorem pieces_of_separator_free {separator : Char → Bool} {piece : List Char}
    (free : ∀ c ∈ piece, separator c = false) : pieces separator piece = [piece] := by
  induction piece with
  | nil => rfl
  | cons c rest ih =>
    rw [pieces, ih fun d member => free d (List.mem_cons_of_mem _ member)]
    simp [free c (by simp)]

theorem pieces_append_separator {separator : Char → Bool} {piece : List Char} (c : Char)
    (rest : List Char) (free : ∀ c ∈ piece, separator c = false) (cut : separator c = true) :
    pieces separator (piece ++ c :: rest) = piece :: pieces separator rest := by
  induction piece with
  | nil => simp [pieces, cut]
  | cons d others ih =>
    rw [List.cons_append, pieces, ih fun e member => free e (List.mem_cons_of_mem _ member)]
    simp [free d (by simp)]

theorem pieces_glue (separator : Char) {parts : List (List Char)} (some : parts ≠ [])
    (free : ∀ piece ∈ parts, ∀ c ∈ piece, c ≠ separator) :
    pieces (· == separator) (glue separator parts) = parts := by
  fun_induction glue separator parts with
  | case1 => contradiction
  | case2 piece => exact pieces_of_separator_free (by simpa using free)
  | case3 piece next others ih =>
    rw [pieces_append_separator separator _ (by simpa using fun c h => free piece (by simp) c h)
      (by simp), ih (by simp) fun p member => free p (List.mem_cons_of_mem _ member)]

def split (separator : Char) (text : String) : List String :=
  (pieces (· == separator) text.toList).map String.ofList

def join (separator : Char) (parts : List String) : String :=
  String.ofList (glue separator (parts.map String.toList))

@[simp] theorem join_split (separator : Char) (text : String) :
    join separator (split separator text) = text := by
  simp [join, split, Function.comp_def, glue_pieces]

theorem split_ne_nil (separator : Char) (text : String) : split separator text ≠ [] := by
  simp [split, pieces_ne_nil]

theorem split_join (separator : Char) {parts : List String} (some : parts ≠ [])
    (free : ∀ part ∈ parts, separator ∉ part.toList) :
    split separator (join separator parts) = parts := by
  have : pieces (· == separator) (glue separator (parts.map String.toList)) =
      parts.map String.toList := by
    refine pieces_glue separator (by simpa using some) fun piece member c inside same => ?_
    obtain ⟨part, among, rfl⟩ := List.mem_map.1 member
    exact free part among (same ▸ inside)
  simp [split, join, this, Function.comp_def]

def splitLast? (separator : Char) (text : String) : Option (String × String) :=
  let backwards := text.toList.reverse
  match backwards.dropWhile (· != separator) with
  | [] => none
  | _ :: before =>
    some (String.ofList before.reverse,
      String.ofList (backwards.takeWhile (· != separator)).reverse)

end PdfAssembly.Text
