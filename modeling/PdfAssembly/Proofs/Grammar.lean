import PdfAssembly.Proofs.Results
import PdfAssembly.Spec.Item

/-! The language of page lists, said without a way to read it: how numbers, items and lists may be
written and which pages they mean. Reading accepts what is written so, as long as its numbers fit
a word, and nothing else. -/
namespace PdfAssembly

namespace Numeral

/-- A text of digits and the number that it writes, however long it is. -/
def Denotes (text : String) (n : Nat) : Prop := WellFormed text ∧ value text = n

theorem read?_eq_some_iff_denotes {text : String} {n : Nat} :
    read? text = some n ↔ Denotes text n ∧ n < limit := by
  rw [read?_eq_some_iff, Denotes, and_assoc]

theorem Denotes.notMem {text : String} {n : Nat} (denotes : Denotes text n) {c : Char}
    (other : c.isDigit = false) : c ∉ text.toList := by
  intro inside
  have digit := denotes.1.2 c inside
  rw [other] at digit
  cases digit

end Numeral

namespace Text

theorem split_eq_iff {separator : Char} {text : String} {parts : List String} :
    split separator text = parts ↔
      parts ≠ [] ∧ (∀ part ∈ parts, separator ∉ part.toList) ∧ join separator parts = text := by
  constructor
  · rintro rfl
    refine ⟨split_ne_nil separator text, ?_, join_split separator text⟩
    intro part member inside
    obtain ⟨piece, cut, rfl⟩ := List.mem_map.1 member
    rw [String.toList_ofList] at inside
    simpa using separator_free_of_mem_pieces cut separator inside
  · rintro ⟨some, free, rfl⟩
    exact split_join separator some free

theorem mem_glue {separator c : Char} {parts : List (List Char)}
    (member : c ∈ glue separator parts) : c = separator ∨ ∃ part ∈ parts, c ∈ part := by
  fun_induction glue separator parts with
  | case1 => simp at member
  | case2 piece => exact .inr ⟨piece, by simp, member⟩
  | case3 piece next others ih =>
    rcases List.mem_append.1 member with here | later
    · exact .inr ⟨piece, by simp, here⟩
    rcases List.mem_cons.1 later with same | beyond
    · exact .inl same
    rcases ih beyond with same | ⟨part, present, inside⟩
    · exact .inl same
    · exact .inr ⟨part, List.mem_cons_of_mem _ present, inside⟩

/-- Joining brings in nothing but separators. -/
theorem mem_join {separator c : Char} {parts : List String}
    (member : c ∈ (join separator parts).toList) :
    c = separator ∨ ∃ part ∈ parts, c ∈ part.toList := by
  rw [join, String.toList_ofList] at member
  rcases mem_glue member with same | ⟨piece, present, inside⟩
  · exact .inl same
  · obtain ⟨part, among, rfl⟩ := List.mem_map.1 present
    exact .inr ⟨part, among, inside⟩

end Text

/-- A walk from one number to another one in steps of one, with both ends. -/
inductive Walk : (first last : Nat) → List Nat → Prop
  | stay : Walk n n [n]
  | up : first < last → Walk (first + 1) last steps → Walk first last (first :: steps)
  | down : last < first → Walk (first - 1) last steps → Walk first last (first :: steps)

namespace Walk

theorem unique {first last : Nat} {left right : List Nat} (one : Walk first last left)
    (other : Walk first last right) : left = right := by
  induction one generalizing right with
  | stay =>
    cases other with
    | stay => rfl
    | up above => exact absurd above (Nat.lt_irrefl _)
    | down below => exact absurd below (Nat.lt_irrefl _)
  | up above _ ih =>
    cases other with
    | stay => exact absurd above (Nat.lt_irrefl _)
    | up _ rest => rw [ih rest]
    | down below => exact absurd below (Nat.lt_asymm above)
  | down below _ ih =>
    cases other with
    | stay => exact absurd below (Nat.lt_irrefl _)
    | up above => exact absurd above (Nat.lt_asymm below)
    | down _ rest => rw [ih rest]

theorem ascending (first distance : Nat) :
    Walk first (first + distance) (List.range' first (distance + 1)) := by
  induction distance generalizing first with
  | zero => exact .stay
  | succ distance ih =>
    have rest := ih (first + 1)
    rw [Nat.add_right_comm] at rest
    exact .up (by omega) rest

theorem descending (last distance : Nat) :
    Walk (last + distance) last (List.range' last (distance + 1)).reverse := by
  induction distance with
  | zero => exact .stay
  | succ distance ih =>
    rw [List.range'_concat, List.reverse_append, Nat.one_mul]
    exact .down (by omega) ih

end Walk

namespace PageItem

/-- The ways to write an item: any numerals, leading zeros or not. -/
inductive Written : PageItem → String → Prop
  | single {numeral : String} : Numeral.Denotes numeral page → Written (.single page) numeral
  | range : Numeral.Denotes left first → Numeral.Denotes right last →
      Written (.range first last) (Text.join '-' [left, right])

inductive Walks : PageItem → List Nat → Prop
  | single : Walks (.single page) [page - 1]
  | range : Walk (first - 1) (last - 1) pages → Walks (.range first last) pages

def Fits (item : PageItem) : Prop := ∀ n ∈ item.ends, n < Numeral.limit

theorem number_eq_ok_iff {numeral : String} {n : Nat} :
    number numeral = .ok n ↔ Numeral.Denotes numeral n ∧ n < Numeral.limit := by
  rw [← Numeral.read?_eq_some_iff_denotes, number]
  split <;> simp_all

theorem Written.of_parse {wording : String} {item : PageItem} (done : parse wording = .ok item) :
    item.Written wording ∧ item.Fits := by
  simp only [parse] at done
  split at done
  · rename_i page cut
    obtain ⟨n, read, same⟩ := bind_eq_ok_iff.1 done
    cases same
    obtain ⟨denotes, fits⟩ := number_eq_ok_iff.1 read
    have whole : page = wording := by
      have joined := (Text.split_eq_iff.1 cut).2.2
      simpa [Text.join, Text.glue] using joined
    exact ⟨whole ▸ .single denotes, by simpa [Fits, ends] using fits⟩
  · rename_i left right cut
    obtain ⟨first, readFirst, rest⟩ := bind_eq_ok_iff.1 done
    obtain ⟨last, readLast, same⟩ := bind_eq_ok_iff.1 rest
    cases same
    obtain ⟨denotesFirst, fitsFirst⟩ := number_eq_ok_iff.1 readFirst
    obtain ⟨denotesLast, fitsLast⟩ := number_eq_ok_iff.1 readLast
    have joined := (Text.split_eq_iff.1 cut).2.2
    refine ⟨joined ▸ .range denotesFirst denotesLast, ?_⟩
    simp [Fits, ends, fitsFirst, fitsLast]
  · cases done

theorem Written.parse {wording : String} {item : PageItem} (written : item.Written wording)
    (fits : item.Fits) : PageItem.parse wording = .ok item := by
  cases written with
  | @single page _ denotes =>
    have cut : Text.split '-' wording = [wording] := by
      refine Text.split_eq_iff.2 ⟨by simp, ?_, by simp [Text.join, Text.glue]⟩
      simpa using denotes.notMem (by decide)
    have read := number_eq_ok_iff.2 ⟨denotes, fits page (by simp [ends])⟩
    simp only [PageItem.parse, cut, read]
    rfl
  | @range left first right last denotesFirst denotesLast =>
    have cut : Text.split '-' (Text.join '-' [left, right]) = [left, right] := by
      refine Text.split_eq_iff.2 ⟨by simp, ?_, rfl⟩
      simpa using ⟨denotesFirst.notMem (by decide), denotesLast.notMem (by decide)⟩
    have readFirst := number_eq_ok_iff.2 ⟨denotesFirst, fits first (by simp [ends])⟩
    have readLast := number_eq_ok_iff.2 ⟨denotesLast, fits last (by simp [ends])⟩
    simp only [PageItem.parse, cut, readFirst, readLast]
    rfl

theorem parse_eq_ok_iff {wording : String} {item : PageItem} :
    parse wording = .ok item ↔ item.Written wording ∧ item.Fits :=
  ⟨Written.of_parse, fun ⟨written, fits⟩ => written.parse fits⟩

/-- No item holds a character other than digits and hyphens. -/
theorem Written.notMem {wording : String} {item : PageItem} (written : item.Written wording)
    {c : Char} (other : c.isDigit = false) (apart : c ≠ '-') : c ∉ wording.toList := by
  cases written with
  | single denotes => exact denotes.notMem other
  | range denotesFirst denotesLast =>
    intro inside
    rcases Text.mem_join inside with same | ⟨part, present, within⟩
    · exact apart same
    · simp only [List.mem_cons, List.not_mem_nil, or_false] at present
      rcases present with rfl | rfl
      · exact denotesFirst.notMem other within
      · exact denotesLast.notMem other within

theorem walks_indices {item : PageItem} {count : Nat} (inside : item.InBounds count) :
    item.Walks item.indices := by
  cases item with
  | single page => exact .single
  | range first last =>
    have low : 1 ≤ first := (inside first (by simp [ends])).1
    have high : 1 ≤ last := (inside last (by simp [ends])).1
    apply Walks.range
    simp only [indices]
    split
    · rename_i below
      have walk := Walk.descending (last - 1) (first - last)
      have start : last - 1 + (first - last) = first - 1 := by omega
      have steps : first - last + 1 = first - (last - 1) := by omega
      rwa [start, steps] at walk
    · rename_i above
      have walk := Walk.ascending (first - 1) (last - first)
      have finish : first - 1 + (last - first) = last - 1 := by omega
      have steps : last - first + 1 = last - (first - 1) := by omega
      rwa [finish, steps] at walk

theorem Walks.unique {item : PageItem} {left right : List Nat} (one : item.Walks left)
    (other : item.Walks right) : left = right := by
  cases one with
  | single =>
    cases other
    rfl
  | range walk =>
    cases other with
    | range walk' => exact walk.unique walk'

theorem expand?_eq_some_iff_walks {item : PageItem} {count : Nat} {pages : List Nat} :
    item.expand? count = some pages ↔ item.InBounds count ∧ item.Walks pages := by
  rw [expand?_eq_some_iff]
  refine and_congr_right fun inside => ⟨?_, ?_⟩
  · rintro rfl
    exact walks_indices inside
  · exact fun walks => (walks_indices inside).unique walks

theorem fits_of_inBounds {item : PageItem} {count : Nat} (inside : item.InBounds count)
    (word : count < Numeral.limit) : item.Fits :=
  fun n member => Nat.lt_of_le_of_lt (inside n member).2 word

end PageItem

namespace PageList

/-- The ways to write a list of items: at least one, with commas between them. Each item stands
beside its own wording. -/
structure Written (pairs : List (String × PageItem)) (list : String) : Prop where
  some : pairs ≠ []
  each : ∀ pair ∈ pairs, pair.2.Written pair.1
  joined : Text.join ',' (pairs.map (·.1)) = list

/-- Where each result holds the text that it was read from, the texts are those of the results. -/
theorem forall₂_beside_iff {reads : String → String × PageItem → Prop}
    {good : String × PageItem → Prop}
    (beside : ∀ part pair, reads part pair ↔ pair.1 = part ∧ good pair) {parts : List String}
    {pairs : List (String × PageItem)} :
    List.Forall₂ reads parts pairs ↔ pairs.map (·.1) = parts ∧ ∀ pair ∈ pairs, good pair := by
  constructor
  · intro related
    induction related with
    | nil => simp
    | cons first _ ih =>
      obtain ⟨same, here⟩ := (beside _ _).1 first
      exact ⟨by simp [same, ih.1], List.forall_mem_cons.2 ⟨here, ih.2⟩⟩
  · rintro ⟨rfl, each⟩
    apply List.forall₂_map_left_iff.2
    exact List.forall₂_same.2 fun pair member => (beside _ _).2 ⟨rfl, each pair member⟩

theorem parse_eq_ok_iff {list : String} {pairs : List (String × PageItem)} :
    parse list = .ok pairs ↔ Written pairs list ∧ ∀ pair ∈ pairs, pair.2.Fits := by
  rw [parse, mapM_eq_ok_iff]
  refine (forall₂_beside_iff (?step : ∀ (part : String) (pair : String × PageItem), _ ↔
    pair.1 = part ∧ (pair.2.Written pair.1 ∧ pair.2.Fits))).trans ⟨?_, ?_⟩
  case step =>
    rintro part ⟨wording, item⟩
    by_cases same : wording = part
    · subst same
      rw [← PageItem.parse_eq_ok_iff]
      cases PageItem.parse wording <;> simp
    · cases PageItem.parse part <;> simp [same, Ne.symm same]
  · rintro ⟨cut, each⟩
    obtain ⟨some, _, joined⟩ := Text.split_eq_iff.1 cut.symm
    refine ⟨⟨by simpa using some, fun pair member => (each pair member).1, joined⟩, ?_⟩
    exact fun pair member => (each pair member).2
  · rintro ⟨written, fits⟩
    refine ⟨?_, fun pair member => ⟨written.each pair member, fits pair member⟩⟩
    refine (Text.split_eq_iff.2 ⟨by simpa using written.some, ?_, written.joined⟩).symm
    intro part member
    obtain ⟨pair, inside, rfl⟩ := List.mem_map.1 member
    exact (written.each pair inside).notMem (by decide) (by decide)

theorem parse_empty : parse "" = .error (.notNumeric, "") := rfl

/-- No list holds a character other than digits, hyphens and commas. -/
theorem Written.notMem {pairs : List (String × PageItem)} {list : String}
    (written : Written pairs list) {c : Char} (other : c.isDigit = false) (hyphen : c ≠ '-')
    (comma : c ≠ ',') : c ∉ list.toList := by
  rw [← written.joined]
  intro inside
  rcases Text.mem_join inside with same | ⟨part, present, within⟩
  · exact comma same
  · obtain ⟨pair, member, rfl⟩ := List.mem_map.1 present
    exact (written.each pair member).notMem other hyphen within

end PageList

end PdfAssembly
