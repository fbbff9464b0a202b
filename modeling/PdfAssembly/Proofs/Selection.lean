import PdfAssembly.Proofs.Grammar
import PdfAssembly.Spec.Selection

/-! What a selection means, told by the form of its selectors alone, and that resolving it gives
just this: a selection that is not of this form, or that names a document or a page that does not
exist, is refused. -/
namespace PdfAssembly

def PageItem.Selects (document count : Nat) (item : PageItem) (part : List PageReference) : Prop :=
  item.InBounds count ∧ ∃ pages, item.Walks pages ∧ pages.map (⟨document, ·⟩) = part

namespace Selector

def wholeDocument (document count : Nat) : List PageReference :=
  (List.range count).map (⟨document, ·⟩)

/-- A selector is the number of a document that exists, alone or with a list of pages of it. -/
inductive Selects (counts : List Nat) : String → List PageReference → Prop
  | whole {numeral : String} {document : Nat} : Numeral.Denotes numeral (document + 1) →
      counts[document]? = some count → Selects counts numeral (wholeDocument document count)
  | listed {numeral list : String} {document : Nat} : Numeral.Denotes numeral (document + 1) →
      counts[document]? = some count → PageList.Written pairs list →
      List.Forall₂ (fun pair part => pair.2.Selects document count part) pairs parts →
      Selects counts (Text.join ':' [numeral, list]) parts.flatten

/-- How a selector is written, whatever its list of pages looks like. -/
inductive Written : Selector → String → Prop
  | whole {numeral : String} {number : Nat} : Numeral.Denotes numeral number →
      Written ⟨numeral, number, none⟩ numeral
  | listed {numeral list : String} {number : Nat} : Numeral.Denotes numeral number →
      ':' ∉ list.toList →
      Written ⟨Text.join ':' [numeral, list], number, some list⟩ (Text.join ':' [numeral, list])

theorem Written.of_parse {token : String} {selector : Selector}
    (done : parse token = .ok selector) :
    selector.Written token ∧ selector.document < Numeral.limit := by
  simp only [parse] at done
  split at done
  · rename_i numeral cut
    split at done
    · rename_i number read
      cases done
      obtain ⟨denotes, fits⟩ := Numeral.read?_eq_some_iff_denotes.1 read
      have whole : numeral = token := by
        simpa [Text.join, Text.glue] using (Text.split_eq_iff.1 cut).2.2
      subst whole
      exact ⟨.whole denotes, fits⟩
    · cases done
  · rename_i numeral list cut
    split at done
    · rename_i number read
      cases done
      obtain ⟨denotes, fits⟩ := Numeral.read?_eq_some_iff_denotes.1 read
      obtain ⟨_, free, joined⟩ := Text.split_eq_iff.1 cut
      subst joined
      exact ⟨.listed denotes (free list (by simp)), fits⟩
    · cases done
  · cases done

theorem Written.parse {token : String} {selector : Selector} (written : selector.Written token)
    (fits : selector.document < Numeral.limit) : Selector.parse token = .ok selector := by
  cases written with
  | whole denotes =>
    have cut : Text.split ':' token = [token] := by
      refine Text.split_eq_iff.2 ⟨by simp, ?_, by simp [Text.join, Text.glue]⟩
      simpa using denotes.notMem (by decide)
    simp only [Selector.parse, cut, Numeral.read?_eq_some_iff_denotes.2 ⟨denotes, fits⟩]
  | @listed numeral list _ denotes free =>
    have cut : Text.split ':' (Text.join ':' [numeral, list]) = [numeral, list] := by
      refine Text.split_eq_iff.2 ⟨by simp, ?_, rfl⟩
      simpa using ⟨denotes.notMem (by decide), free⟩
    simp only [Selector.parse, cut, Numeral.read?_eq_some_iff_denotes.2 ⟨denotes, fits⟩]

theorem items_eq_ok_iff {selector : Selector} {items : Option (List (String × PageItem))} :
    selector.items = .ok items ↔ selector.pages = none ∧ items = none ∨
      ∃ list pairs, selector.pages = some list ∧ items = some pairs ∧
        PageList.parse list = .ok pairs := by
  simp only [Selector.items]
  cases selector.pages with
  | none => simp [eq_comm]
  | some list =>
    by_cases empty : list = ""
    · subst empty
      simp [PageList.parse_empty]
    · have some_text : list.isEmpty = false := by simpa using empty
      cases parsed : PageList.parse list with
      | error fault =>
        obtain ⟨kind, part⟩ := fault
        cases kind <;> simp [some_text, parsed]
      | ok pairs => simp [some_text, parsed, eq_comm]

theorem expand_eq_ok_iff {document count : Nat} {pair : String × PageItem}
    {part : List PageReference} :
    expand document count pair = .ok part ↔ pair.2.Selects document count part := by
  simp only [expand, PageItem.Selects, ← exists_and_left, ← and_assoc,
    ← PageItem.expand?_eq_some_iff_walks]
  cases pair.2.expand? count <;> simp

theorem resolve_eq_ok_iff {counts : List Nat} {selector : Selector} {part : List PageReference} :
    selector.resolve counts = .ok part ↔ ∃ document count, selector.document = document + 1 ∧
      counts[document]? = some count ∧
      (selector.pages = none ∧ wholeDocument document count = part ∨
        ∃ list pairs parts, selector.pages = some list ∧ PageList.parse list = .ok pairs ∧
          List.Forall₂ (fun pair part => pair.2.Selects document count part) pairs parts ∧
          parts.flatten = part) := by
  constructor
  · intro done
    simp only [Selector.resolve] at done
    split at done
    · cases done
    rename_i document number
    split at done
    · cases done
    rename_i count found
    refine ⟨document, count, number, found, ?_⟩
    obtain ⟨items, read, done⟩ := bind_eq_ok_iff.1 done
    rcases items_eq_ok_iff.1 read with ⟨all, rfl⟩ | ⟨list, pairs, some, rfl, parsed⟩
    · cases done
      exact .inl ⟨all, rfl⟩
    · obtain ⟨parts, each, same⟩ := bind_eq_ok_iff.1 done
      cases same
      refine .inr ⟨list, pairs, parts, some, parsed, ?_, rfl⟩
      exact (mapM_eq_ok_iff.1 each).imp fun _ _ => expand_eq_ok_iff.1
  · rintro ⟨document, count, number, found, meaning⟩
    simp only [Selector.resolve, number, found]
    apply bind_eq_ok_iff.2
    rcases meaning with ⟨all, rfl⟩ | ⟨list, pairs, parts, some, parsed, each, rfl⟩
    · exact ⟨none, items_eq_ok_iff.2 (.inl ⟨all, rfl⟩), rfl⟩
    · refine ⟨pairs, items_eq_ok_iff.2 (.inr ⟨list, pairs, some, rfl, parsed⟩), ?_⟩
      have expanded := mapM_eq_ok_iff.2 (each.imp fun _ _ => expand_eq_ok_iff.2)
      exact bind_eq_ok_iff.2 ⟨parts, expanded, rfl⟩

/-- Reading and resolving a selector gives what its form selects. -/
theorem selects_iff {counts : List Nat} {token : String} {part : List PageReference}
    (words : ∀ count ∈ counts, count < Numeral.limit) (few : counts.length < Numeral.limit) :
    (do (← parse token).resolve counts) = Except.ok part ↔ Selects counts token part := by
  rw [bind_eq_ok_iff]
  constructor
  · rintro ⟨selector, read, done⟩
    obtain ⟨document, count, number, found, meaning⟩ := resolve_eq_ok_iff.1 done
    cases (Written.of_parse read).1 with
    | whole denotes =>
      rcases meaning with ⟨_, rfl⟩ | ⟨_, _, _, absent, _⟩
      · exact .whole (number ▸ denotes) found
      · cases absent
    | listed denotes =>
      rcases meaning with ⟨absent, _⟩ | ⟨_, pairs, parts, same, parsed, each, rfl⟩
      · cases absent
      · cases same
        exact .listed (number ▸ denotes) found (PageList.parse_eq_ok_iff.1 parsed).1 each
  · intro selects
    cases selects with
    | whole denotes found =>
      have fits := Nat.lt_of_le_of_lt (List.getElem?_eq_some_iff.1 found).1 few
      exact ⟨_, (Written.whole denotes).parse fits,
        resolve_eq_ok_iff.2 ⟨_, _, rfl, found, .inl ⟨rfl, rfl⟩⟩⟩
    | @listed count pairs parts numeral list document denotes found written each =>
      have fits := Nat.lt_of_le_of_lt (List.getElem?_eq_some_iff.1 found).1 few
      have free : ':' ∉ list.toList := written.notMem (by decide) (by decide) (by decide)
      have parsed : PageList.parse list = .ok pairs := by
        have inside := ((List.forall₂_and_left pairs parts).1 each).1
        have word := words count (List.mem_of_getElem? found)
        exact PageList.parse_eq_ok_iff.2 ⟨written, fun pair member =>
          PageItem.fits_of_inBounds (inside pair member) word⟩
      exact ⟨_, (Written.listed denotes free).parse fits, resolve_eq_ok_iff.2
        ⟨_, _, rfl, found, .inr ⟨list, pairs, parts, rfl, parsed, each, rfl⟩⟩⟩

end Selector

theorem Selection.everything_eq (counts : List Nat) :
    everything counts = (counts.mapIdx Selector.wholeDocument).flatten := by
  rw [everything, List.mapIdx_eq_zipIdx_map, List.flatMap]
  rfl

/-- A selection resolves to a list of pages exactly if that is what it means: without selectors
every page of every document, and otherwise what each selector selects, one after the other. The
numbers of pages and of documents are machine words; those that selectors name have any size. -/
theorem selection_resolves_iff {tokens : List String} {counts : List Nat}
    {pages : List PageReference} (words : ∀ count ∈ counts, count < Numeral.limit)
    (few : counts.length < Numeral.limit) :
    Selection.resolve tokens counts = .ok pages ↔
      tokens = [] ∧ pages = (counts.mapIdx Selector.wholeDocument).flatten ∨
      tokens ≠ [] ∧ ∃ parts, List.Forall₂ (Selector.Selects counts) tokens parts ∧
        pages = parts.flatten := by
  simp only [Selection.resolve]
  cases tokens with
  | nil => simp [Selection.everything_eq, eq_comm]
  | cons token rest =>
    simp only [List.isEmpty_cons, Bool.false_eq_true, if_false]
    rw [bind_eq_ok_iff]
    simp only [mapM_eq_ok_iff, Selector.selects_iff words few]
    simp [pure, Except.pure, eq_comm]

/-- Three pages of a second document, walked backwards, one of them again, and all of the first. -/
theorem selection_backwards : Selection.resolve ["2:3-1,02", "1"] [2, 3] =
    .ok [⟨1, 2⟩, ⟨1, 1⟩, ⟨1, 0⟩, ⟨1, 1⟩, ⟨0, 0⟩, ⟨0, 1⟩] := by
  have down : (PageItem.range 3 1).Selects 1 3 [⟨1, 2⟩, ⟨1, 1⟩, ⟨1, 0⟩] := by
    refine ⟨by decide, [2, 1, 0], .range ?_, rfl⟩
    exact .down (by decide) (.down (by decide) .stay)
  have again : (PageItem.single 2).Selects 1 3 [⟨1, 1⟩] := ⟨by decide, [1], .single, rfl⟩
  have list : PageList.Written [("3-1", .range 3 1), ("02", .single 2)] "3-1,02" := by
    refine ⟨by simp, List.forall_mem_cons.2 ⟨?_, List.forall_mem_singleton.2 ?_⟩, by decide⟩
    · have wording : Text.join '-' ["3", "1"] = "3-1" := by decide
      exact wording ▸ .range ⟨by decide, by decide⟩ ⟨by decide, by decide⟩
    · exact .single ⟨by decide, by decide⟩
  have second : Selector.Selects [2, 3] (Text.join ':' ["2", "3-1,02"])
      [[⟨1, 2⟩, ⟨1, 1⟩, ⟨1, 0⟩], [⟨1, 1⟩]].flatten :=
    .listed ⟨by decide, by decide⟩ rfl list (.cons down (.cons again .nil))
  have first : Selector.Selects [2, 3] "1" (Selector.wholeDocument 0 2) :=
    .whole ⟨by decide, by decide⟩ rfl
  have wording : Text.join ':' ["2", "3-1,02"] = "2:3-1,02" := by decide
  rw [wording] at second
  exact (selection_resolves_iff (by decide) (by decide)).2
    (.inr ⟨by simp, _, .cons second (.cons first .nil), rfl⟩)

end PdfAssembly
