import PdfAssembly.Proofs.PageListFaults
import PdfAssembly.Proofs.Selection

/-! Which error a selection that does not resolve ends with. The first selector that fails decides,
and in it the first thing that is wrong: its colons, its document, its list of pages as it is
written, and only then the numbers in it. -/
namespace PdfAssembly

namespace Selector

/-- What is wrong with a list of pages of a document with so many pages. That an item cannot be read
counts for more than that an item before it is outside the document. -/
inductive ListFails (token list : String) (count : Nat) : SpecError → Prop
  | empty : list = "" → ListFails token list count (.malformedToken token)
  | malformed : list ≠ "" → PageList.Fails list .malformed wording →
      ListFails token list count (.malformedToken wording)
  | notNumeric : list ≠ "" → PageList.Fails list .notNumeric wording →
      ListFails token list count (.invalidPageIndex .selection wording)
  | outside : PageList.Written pairs list → (∀ pair ∈ pairs, pair.2.Fits) →
      ComesTo (fun pair => pair.2.InBounds count) pairs pair → ¬ pair.2.InBounds count →
      ListFails token list count (.invalidPageIndex .selection pair.1)

inductive Fails (counts : List Nat) (token : String) : SpecError → Prop
  | colons : 2 ≤ token.toList.count ':' → Fails counts token (.malformedToken token)
  | document {pages : Option String} : Text.Parts ':' token (numeral :: pages.toList) →
      (∀ document < counts.length, ¬ Numeral.Denotes numeral (document + 1)) →
      Fails counts token (.invalidDocumentIndex token)
  | list {document : Nat} : Text.Parts ':' token [numeral, list] →
      Numeral.Denotes numeral (document + 1) → counts[document]? = some count →
      ListFails token list count error → Fails counts token error

theorem parse_of_colons {token : String} (many : 2 ≤ token.toList.count ':') :
    parse token = .error (.malformedToken token) := by
  have size := Text.length_split ':' token
  simp only [parse]
  split
  · rename_i document found
    rw [found, List.length_singleton] at size
    omega
  · rename_i document pages found
    rw [found, List.length_cons, List.length_singleton] at size
    omega
  · rfl

/-- A selector with one colon at most has the number of a document before it. -/
theorem exists_parts {token : String} (few : token.toList.count ':' < 2) :
    ∃ (numeral : String) (pages : Option String),
      Text.Parts ':' token (numeral :: pages.toList) := by
  have cut := Text.parts_split ':' token
  have size := cut.length
  match parts : Text.split ':' token with
  | [] => exact absurd parts (Text.split_ne_nil ':' token)
  | [numeral] => exact ⟨numeral, none, parts ▸ cut⟩
  | [numeral, list] => exact ⟨numeral, some list, parts ▸ cut⟩
  | first :: second :: third :: more =>
    simp only [parts, List.length_cons] at size
    omega

theorem parse_of_parts {token numeral : String} {pages : Option String}
    (cut : Text.Parts ':' token (numeral :: pages.toList)) :
    parse token = match Numeral.read? numeral with
      | some n => .ok ⟨token, n, pages⟩
      | none => .error (.invalidDocumentIndex token) := by
  rw [parse, Text.parts_iff.1 cut]
  cases pages <;> rfl

theorem expand_eq_error_iff {document count : Nat} {pair : String × PageItem} {error : SpecError} :
    expand document count pair = .error error ↔
      ¬ pair.2.InBounds count ∧ error = .invalidPageIndex .selection pair.1 := by
  by_cases inside : pair.2.InBounds count <;> simp [expand, PageItem.expand?, inside, eq_comm]

theorem exists_expand_iff {document count : Nat} {pair : String × PageItem} :
    (∃ part, expand document count pair = .ok part) ↔ pair.2.InBounds count := by
  by_cases inside : pair.2.InBounds count <;> simp [expand, PageItem.expand?, inside]

/-- An item that cannot be read ends the reading of the whole list. -/
theorem items_of_fails {selector : Selector} {list wording : String} {fault : ItemFault}
    (listed : selector.pages = some list) (some_text : list ≠ "")
    (failed : PageList.Fails list fault wording) : selector.items = .error (match fault with
      | .malformed => .malformedToken wording
      | .notNumeric => .invalidPageIndex .selection wording) := by
  have read := PageList.parse_eq_error_iff.2 failed
  cases fault <;> simp [items, listed, some_text, read]

/-- A list of pages fails when it is read or else when its items are turned into pages. -/
theorem listFails_iff {selector : Selector} {list : String} (listed : selector.pages = some list)
    (document : Nat) {count : Nat} {error : SpecError} :
    ListFails selector.text list count error ↔ selector.items = .error error ∨
      ∃ pairs, selector.items = .ok (some pairs) ∧
        pairs.mapM (expand document count) = .error error := by
  simp only [mapM_eq_error_iff, exists_expand_iff, expand_eq_error_iff]
  constructor
  · intro failed
    cases failed with
    | empty none => exact .inl (by simp [items, listed, none])
    | malformed some_text failed => exact .inl (items_of_fails listed some_text failed)
    | notNumeric some_text failed => exact .inl (items_of_fails listed some_text failed)
    | outside written fits reached beyond =>
      refine .inr ⟨_, items_eq_ok_iff.2 (.inr ⟨list, _, listed, rfl, ?_⟩), _, reached, beyond, rfl⟩
      exact PageList.parse_eq_ok_iff.2 ⟨written, fits⟩
  · rintro (failed | ⟨pairs, read, pair, reached, beyond, rfl⟩)
    · by_cases none : list = ""
      · have same : selector.items = .error (.malformedToken selector.text) := by
          simp [items, listed, none]
        rw [same] at failed
        cases failed
        exact .empty none
      cases parsed : PageList.parse list with
      | ok pairs =>
        rw [items_eq_ok_iff.2 (.inr ⟨list, pairs, listed, rfl, parsed⟩)] at failed
        cases failed
      | error fault =>
        obtain ⟨fault, wording⟩ := fault
        have illegible := PageList.parse_eq_error_iff.1 parsed
        rw [items_of_fails listed none illegible] at failed
        cases fault <;> cases failed
        · exact .malformed none illegible
        · exact .notNumeric none illegible
    · rcases items_eq_ok_iff.1 read with ⟨_, absent⟩ | ⟨other, _, same, chosen, parsed⟩
      · cases absent
      · rw [listed] at same
        cases same
        cases chosen
        obtain ⟨written, fits⟩ := PageList.parse_eq_ok_iff.1 parsed
        exact .outside written fits reached beyond

/-- The list is looked at only where the document exists. -/
theorem resolve_eq_error_iff {counts : List Nat} {selector : Selector} {error : SpecError} :
    selector.resolve counts = .error error ↔
      (∀ document < counts.length, selector.document ≠ document + 1) ∧
        error = .invalidDocumentIndex selector.text ∨
      ∃ document count list, selector.document = document + 1 ∧ counts[document]? = some count ∧
        selector.pages = some list ∧ ListFails selector.text list count error := by
  simp only [resolve]
  split
  · rename_i zero
    simp [zero, eq_comm]
  rename_i document number
  rw [number]
  split
  · rename_i absent
    have beyond := List.getElem?_eq_none_iff.1 absent
    constructor
    · intro failed
      cases failed
      exact .inl ⟨fun other inside same => by omega, rfl⟩
    · rintro (⟨_, rfl⟩ | ⟨other, count, _, same, found, _⟩)
      · rfl
      · cases same
        rw [absent] at found
        cases found
  rename_i count found
  have inside := (List.getElem?_eq_some_iff.1 found).1
  rw [bind_eq_error_iff]
  constructor
  · intro failed
    refine .inr ?_
    cases listed : selector.pages with
    | none =>
      rcases failed with failed | ⟨items, read, failed⟩
      · simp [items, listed] at failed
      · rw [items_eq_ok_iff.2 (.inl ⟨listed, rfl⟩)] at read
        cases read
        cases failed
    | some list =>
      refine ⟨document, count, list, rfl, found, rfl, (listFails_iff listed document).2 ?_⟩
      rcases failed with failed | ⟨items, read, failed⟩
      · exact .inl failed
      cases items with
      | none => cases failed
      | some pairs =>
        rcases bind_eq_error_iff.1 failed with failed | ⟨_, _, done⟩
        · exact .inr ⟨pairs, read, failed⟩
        · cases done
  · rintro (⟨absent, _⟩ | ⟨other, _, list, same, present, listed, failed⟩)
    · exact absurd rfl (absent document inside)
    cases same
    rw [found] at present
    cases present
    rcases (listFails_iff listed document).1 failed with failed | ⟨pairs, read, failed⟩
    · exact .inl failed
    · exact .inr ⟨some pairs, read, bind_eq_error_iff.2 (.inl failed)⟩

theorem fails_of_colons {counts : List Nat} {token : String} {error : SpecError}
    (many : 2 ≤ token.toList.count ':') :
    Fails counts token error ↔ error = .malformedToken token := by
  constructor
  · intro failed
    cases failed with
    | colons => rfl
    | @document _ pages cut =>
      have size := cut.length
      cases pages <;> simp at size <;> omega
    | list cut =>
      have size := cut.length
      simp at size
      omega
  · rintro rfl
    exact .colons many

/-- With one colon at most, the number before it and the list behind it are all that can fail. -/
theorem fails_of_parts {counts : List Nat} {token numeral : String} {pages : Option String}
    {error : SpecError} (cut : Text.Parts ':' token (numeral :: pages.toList)) :
    Fails counts token error ↔
      (∀ document < counts.length, ¬ Numeral.Denotes numeral (document + 1)) ∧
        error = .invalidDocumentIndex token ∨
      ∃ document count list, Numeral.Denotes numeral (document + 1) ∧
        counts[document]? = some count ∧ pages = some list ∧
        ListFails token list count error := by
  have same {other : List String} (also : Text.Parts ':' token other) :
      other = numeral :: pages.toList :=
    (Text.parts_iff.1 also).symm.trans (Text.parts_iff.1 cut)
  constructor
  · intro failed
    cases failed with
    | colons many =>
      have size := cut.length
      cases pages <;> simp at size <;> omega
    | document also absent =>
      rw [(List.cons.inj (same also)).1] at absent
      exact .inl ⟨absent, rfl⟩
    | list also denotes found failed =>
      obtain ⟨rfl, listed⟩ := List.cons.inj (same also)
      exact .inr ⟨_, _, _, denotes, found, by cases pages <;> simp_all, failed⟩
  · rintro (⟨absent, rfl⟩ | ⟨document, count, list, denotes, found, rfl, failed⟩)
    · exact .document cut absent
    · exact .list cut denotes found failed

/-- Reading and resolving a selector fails with what is wrong with it. -/
theorem fails_iff {counts : List Nat} {token : String} {error : SpecError}
    (few : counts.length < Numeral.limit) :
    (do (← parse token).resolve counts) = Except.error error ↔ Fails counts token error := by
  by_cases many : 2 ≤ token.toList.count ':'
  · rw [parse_of_colons many, fails_of_colons many]
    constructor
    · intro failed
      cases failed
      rfl
    · rintro rfl
      rfl
  obtain ⟨numeral, pages, cut⟩ := exists_parts (Nat.lt_of_not_le many)
  rw [parse_of_parts cut, fails_of_parts cut]
  cases read : Numeral.read? numeral with
  | none =>
    -- A number that fits no word is the number of no document either.
    have absent (document : Nat) (inside : document < counts.length) :
        ¬ Numeral.Denotes numeral (document + 1) := by
      intro denotes
      have large := Numeral.read?_eq_none_iff_unreadable.1 read _ denotes
      omega
    constructor
    · intro failed
      cases failed
      exact .inl ⟨absent, rfl⟩
    · rintro (⟨_, rfl⟩ | ⟨document, count, _, denotes, found, _⟩)
      · rfl
      · exact absurd denotes (absent document (List.getElem?_eq_some_iff.1 found).1)
  | some n =>
    obtain ⟨denotes, fits⟩ := Numeral.read?_eq_some_iff_denotes.1 read
    have number (document : Nat) : Numeral.Denotes numeral (document + 1) ↔ n = document + 1 :=
      ⟨fun other => denotes.2.symm.trans other.2, fun same => same ▸ denotes⟩
    simp only [number]
    exact resolve_eq_error_iff

end Selector

/-- A selection fails exactly if, with all before it resolved, one comes to a selector with
something wrong, and it fails with that, whatever comes behind. -/
theorem selection_error_iff {tokens : List String} {counts : List Nat} {error : SpecError}
    (words : ∀ count ∈ counts, count < Numeral.limit) (few : counts.length < Numeral.limit) :
    Selection.resolve tokens counts = .error error ↔
      ∃ token, ComesTo (fun earlier => ∃ part, Selector.Selects counts earlier part) tokens token ∧
        Selector.Fails counts token error := by
  simp only [Selection.resolve]
  cases tokens with
  | nil => simp [comesTo_nil]
  | cons first rest =>
    simp only [List.isEmpty_cons, Bool.false_eq_true, if_false]
    rw [bind_eq_error_iff, mapM_eq_error_iff]
    simp only [Selector.selects_iff words few, Selector.fails_iff few]
    simp [pure, Except.pure]

/-- A second hyphen in a later item counts for more than an earlier page that does not exist; what
is wrong with the selector behind does not count. -/
theorem selection_later_hyphen : Selection.resolve ["1", "2:9,1-2-3", "x"] [2, 3] =
    .error (.malformedToken "1-2-3") := by
  have first : Selector.Selects [2, 3] "1" (Selector.wholeDocument 0 2) :=
    .whole ⟨by decide, by decide⟩ rfl
  have readable : (PageItem.single 9).Written "9" ∧ (PageItem.single 9).Fits :=
    PageItem.parse_eq_ok_iff.1 (by decide)
  have list : PageList.Fails "9,1-2-3" .malformed "1-2-3" := by
    refine ⟨["9", "1-2-3"], Text.parts_iff.2 (by decide), ⟨["9"], [], rfl, ?_⟩,
      .hyphens (by decide)⟩
    simpa using ⟨_, readable⟩
  have second : Selector.Fails [2, 3] "2:9,1-2-3" (.malformedToken "1-2-3") :=
    have cut : Text.Parts ':' "2:9,1-2-3" ["2", "9,1-2-3"] := Text.parts_iff.2 (by decide)
    .list cut ⟨by decide, by decide⟩ (rfl : [2, 3][1]? = some 3) (.malformed (by decide) list)
  refine (selection_error_iff (by decide) (by decide)).2 ⟨_, ⟨["1"], ["x"], rfl, ?_⟩, second⟩
  simpa using ⟨_, first⟩

end PdfAssembly
