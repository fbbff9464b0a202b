import PdfAssembly.Proofs.Replay

/-! Selectors as texts. Reading a selector together with its list of pages takes a text apart into
the numeral of a document and the wordings of items, and putting these together again gives the
text back; what is written in decimal is read as what was meant. -/
namespace PdfAssembly

namespace PageList

def read (list : String) : Except (ItemFault × String) (List PageItem) :=
  (Text.split ',' list).mapM fun wording =>
    match PageItem.parse wording with
    | .ok item => .ok item
    | .error fault => .error (fault, wording)

/-- Items that are read along with their texts are the items laid beside a second cut of the list,
each beside the text that it was read from. -/
theorem parse_eq_ok_iff_zip {list : String} {pairs : List (String × PageItem)} :
    parse list = .ok pairs ↔
      ∃ items, read list = .ok items ∧ pairs = (Text.split ',' list).zip items := by
  simp only [parse, read, mapM_eq_ok_iff]
  generalize Text.split ',' list = wordings
  induction wordings generalizing pairs with
  | nil => simp
  | cons wording rest ih =>
    simp only [List.forall₂_cons_left_iff, ih]
    constructor
    · rintro ⟨pair, _, here, ⟨items, later, rfl⟩, rfl⟩
      cases found : PageItem.parse wording with
      | error fault => simp [found] at here
      | ok item =>
        simp only [found, Except.ok.injEq] at here
        subst here
        exact ⟨item :: items, ⟨item, items, by simp, later, rfl⟩, rfl⟩
    · rintro ⟨_, ⟨item, items, here, later, rfl⟩, rfl⟩
      refine ⟨(wording, item), _, ?_, ⟨items, later, rfl⟩, rfl⟩
      cases found : PageItem.parse wording <;> simp_all

end PageList

namespace PageItem

/-- A hyphen tells a range from a single page. -/
theorem Written.hyphen_iff {wording : String} {item : PageItem} (written : item.Written wording) :
    '-' ∈ wording.toList ↔ ∃ first last, item = .range first last := by
  cases written with
  | single denotes => simpa using denotes.notMem (by decide)
  | range => simp [Text.join, Text.glue]

theorem written_text (item : PageItem) : item.Written item.text := by
  cases item with
  | single page => exact .single (Numeral.denotes_write page)
  | range first last => exact .range (Numeral.denotes_write first) (Numeral.denotes_write last)

/-- Wordings of items are those of some pairs of a wording and its item. -/
theorem exists_beside {wordings : List String}
    (each : ∀ wording ∈ wordings, ∃ item : PageItem, item.Written wording ∧ item.Fits) :
    ∃ pairs : List (String × PageItem), pairs.map (·.1) = wordings ∧
      ∀ pair ∈ pairs, pair.2.Written pair.1 ∧ pair.2.Fits := by
  induction wordings with
  | nil => exact ⟨[], rfl, by simp⟩
  | cons wording rest ih =>
    obtain ⟨⟨item, here⟩, later⟩ := List.forall_mem_cons.1 each
    obtain ⟨pairs, rfl, good⟩ := ih later
    exact ⟨(wording, item) :: pairs, rfl, List.forall_mem_cons.2 ⟨here, good⟩⟩

end PageItem

namespace Selector

def compose (numeral : String) : Option (List String) → String
  | none => numeral
  | some wordings => Text.join ':' [numeral, Text.join ',' wordings]

def write (document : Nat) (items : Option (List PageItem)) : String :=
  compose (Numeral.write document) (items.map (·.map PageItem.text))

/-- The texts that are made up of numerals as a selector should be: the number of a document and
perhaps, after a colon, one item or more. Zero is a number like any other here. -/
def Readable (token : String) : Prop :=
  ∃ numeral document wordings, compose numeral wordings = token ∧
    Numeral.Denotes numeral document ∧ document < Numeral.limit ∧
    ∀ list ∈ wordings, list ≠ [] ∧
      ∀ wording ∈ list, ∃ item : PageItem, item.Written wording ∧ item.Fits

/-- A token says what was read from it, item by item, and nothing besides. -/
structure Spells (token : String) (selector : Selector)
    (items : Option (List (String × PageItem))) : Prop where
  text : selector.text = token
  /-- The numeral of the document and the wordings of the items, put together again. -/
  joined : ∃ numeral, Numeral.Denotes numeral selector.document ∧
    compose numeral (items.map (·.map (·.1))) = token
  word : selector.document < Numeral.limit
  nonempty : items ≠ some []
  /-- The numbers of an item stand in its wording, in this order. -/
  each : ∀ pairs ∈ items, ∀ pair ∈ pairs, pair.2.Written pair.1 ∧ pair.2.Fits
  hyphens : ∀ pairs ∈ items, ∀ pair ∈ pairs,
    ('-' ∈ pair.1.toList ↔ ∃ first last, pair.2 = .range first last)
  /-- The items are read from the list first, and then laid beside a second cut of it. -/
  beside : ∀ pairs ∈ items, ∃ list read, selector.pages = some list ∧
    PageList.read list = .ok read ∧ pairs = (Text.split ',' list).zip read

variable {token : String} {selector : Selector} {items : Option (List (String × PageItem))}

theorem Spells.of_parse (read : parse token = .ok selector)
    (listed : selector.items = .ok items) : Spells token selector items := by
  obtain ⟨written, word⟩ := Written.of_parse read
  cases written with
  | @whole numeral document denotes =>
    rcases items_eq_ok_iff.1 listed with ⟨_, rfl⟩ | ⟨_, _, absent, _⟩
    · exact ⟨rfl, ⟨token, denotes, rfl⟩, word, by simp, by simp, by simp, by simp⟩
    · cases absent
  | @listed numeral list document denotes _ =>
    rcases items_eq_ok_iff.1 listed with ⟨absent, _⟩ | ⟨_, pairs, same, rfl, parsed⟩
    · cases absent
    · cases same
      obtain ⟨written, fits⟩ := PageList.parse_eq_ok_iff.1 parsed
      refine ⟨rfl, ⟨numeral, denotes, ?_⟩, word, by simpa using written.some, ?_, ?_, ?_⟩
      · rw [Option.map_some, compose, written.joined]
      · rintro _ ⟨rfl⟩ pair member
        exact ⟨written.each pair member, fits pair member⟩
      · rintro _ ⟨rfl⟩ pair member
        exact (written.each pair member).hyphen_iff
      · rintro _ ⟨rfl⟩
        obtain ⟨items, read, zipped⟩ := PageList.parse_eq_ok_iff_zip.1 parsed
        exact ⟨list, items, rfl, read, zipped⟩

theorem Spells.readable (spells : Spells token selector items) : Readable token := by
  obtain ⟨numeral, denotes, joined⟩ := spells.joined
  refine ⟨numeral, selector.document, _, joined, denotes, spells.word, ?_⟩
  cases items with
  | none => simp
  | some pairs =>
    rintro _ ⟨rfl⟩
    refine ⟨by simpa using spells.nonempty, fun wording member => ?_⟩
    obtain ⟨pair, inside, rfl⟩ := List.mem_map.1 member
    exact ⟨pair.2, spells.each pairs rfl pair inside⟩

/-- Pairs of wordings and items that belong together are read off any text composed of them. -/
theorem parse_compose {numeral : String} {document : Nat}
    (denotes : Numeral.Denotes numeral document) (word : document < Numeral.limit)
    (valid : ∀ pairs ∈ items, pairs ≠ [] ∧ ∀ pair ∈ pairs, pair.2.Written pair.1 ∧ pair.2.Fits) :
    ∃ selector, parse (compose numeral (items.map (·.map (·.1)))) = .ok selector ∧
      selector.document = document ∧ selector.items = .ok items := by
  cases items with
  | none =>
    exact ⟨_, (Written.whole denotes).parse word, rfl, items_eq_ok_iff.2 (.inl ⟨rfl, rfl⟩)⟩
  | some pairs =>
    obtain ⟨some, each⟩ := valid pairs rfl
    have written : PageList.Written pairs (Text.join ',' (pairs.map (·.1))) :=
      ⟨some, fun pair member => (each pair member).1, rfl⟩
    have free := written.notMem (c := ':') (by decide) (by decide) (by decide)
    have parsed := PageList.parse_eq_ok_iff.2 ⟨written, fun pair member => (each pair member).2⟩
    exact ⟨_, (Written.listed denotes free).parse word, rfl,
      items_eq_ok_iff.2 (.inr ⟨_, pairs, rfl, rfl, parsed⟩)⟩

theorem Readable.parse (readable : Readable token) :
    ∃ selector items, parse token = .ok selector ∧ selector.items = .ok items := by
  obtain ⟨numeral, document, wordings, rfl, denotes, word, valid⟩ := readable
  obtain ⟨items, same, sound⟩ : ∃ items : Option (List (String × PageItem)),
      items.map (·.map (·.1)) = wordings ∧
        ∀ pairs ∈ items, pairs ≠ [] ∧ ∀ pair ∈ pairs, pair.2.Written pair.1 ∧ pair.2.Fits := by
    cases wordings with
    | none => exact ⟨none, rfl, by simp⟩
    | some list =>
      obtain ⟨some, each⟩ := valid list rfl
      obtain ⟨pairs, rfl, good⟩ := PageItem.exists_beside each
      refine ⟨Option.some pairs, rfl, ?_⟩
      rintro _ ⟨rfl⟩
      exact ⟨by simpa using some, good⟩
  obtain ⟨selector, read, _, listed⟩ := parse_compose denotes word sound
  exact ⟨selector, items, same ▸ read, listed⟩

/-- Reading undoes writing, and writing reading. A token is read exactly if it is made up as one
should be; what is read from it gives the token again when put together; and the numbers written
in decimal are the numbers read. -/
theorem reads_what_is_written :
    (∀ token, (∃ selector items, parse token = .ok selector ∧ selector.items = .ok items) ↔
      Readable token) ∧
    (∀ token selector items, parse token = .ok selector → selector.items = .ok items →
      Spells token selector items) ∧
    (∀ document items, document < Numeral.limit →
      (∀ list ∈ items, list ≠ [] ∧ ∀ item ∈ list, item.Fits) →
      ∃ selector, parse (write document items) = .ok selector ∧ selector.document = document ∧
        selector.items = .ok (items.map (·.map fun item => (item.text, item)))) := by
  refine ⟨fun token => ⟨?_, Readable.parse⟩, fun _ _ _ => Spells.of_parse, ?_⟩
  · rintro ⟨selector, items, read, listed⟩
    exact (Spells.of_parse read listed).readable
  · intro document items word valid
    have texts : write document items =
        compose (Numeral.write document)
          ((items.map (·.map fun item => (item.text, item))).map (·.map (·.1))) := by
      simp [write, Function.comp_def]
    rw [texts]
    refine parse_compose (Numeral.denotes_write document) word ?_
    cases items with
    | none => simp
    | some list =>
      obtain ⟨some, fits⟩ := valid list rfl
      rintro _ ⟨rfl⟩
      refine ⟨by simpa using some, fun pair present => ?_⟩
      obtain ⟨item, among, rfl⟩ := List.mem_map.1 present
      exact ⟨item.written_text, fits item among⟩

/-- Leading zeros stay in the wordings, and writing leaves them out. -/
theorem reads_leading_zero :
    Spells "2:3-1,02" ⟨"2:3-1,02", 2, some "3-1,02"⟩
      (some [("3-1", .range 3 1), ("02", .single 2)]) ∧
    write 2 (some [.range 3 1, .single 2]) = "2:3-1,2" ∧
    ∃ selector, parse (write 2 (some [.range 3 1, .single 2])) = .ok selector ∧
      selector.document = 2 ∧
      selector.items = .ok (some [("3-1", .range 3 1), ("2", .single 2)]) := by
  refine ⟨?_, by decide, ?_⟩
  · exact reads_what_is_written.2.1 "2:3-1,02" _ _ rfl rfl
  · have word : 2 < Numeral.limit := by decide
    have valid : ∀ list ∈ some [PageItem.range 3 1, .single 2],
        list ≠ [] ∧ ∀ item ∈ list, item.Fits := by
      rintro _ ⟨rfl⟩
      refine ⟨by simp, ?_⟩
      simp [PageItem.Fits, PageItem.ends, Numeral.limit, UInt64.size]
    exact reads_what_is_written.2.2 2 _ word valid

end Selector

end PdfAssembly
