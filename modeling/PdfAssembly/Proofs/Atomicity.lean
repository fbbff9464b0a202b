import PdfAssembly.Proofs.DryRun
import PdfAssembly.Proofs.Numbering

/-! All or nothing. Assembling checks every reference before it appends a page, and a page that
has passed the check can be appended, because whatever loading lists as a page it can also read.
So a list of references is either answered in full, or the first bad one is reported and nothing
has changed. -/
namespace PdfAssembly

open Pdf

inductive PageReference.Refused (sources : List Source) (reference : PageReference) :
    Failure → Prop
  | document : sources.length ≤ reference.document →
      Refused sources reference (.documentOutOfRange reference.document sources.length)
  | page : sources[reference.document]? = some source → source.pages.length ≤ reference.page →
      Refused sources reference
        (.pdf (.pageNotFound reference.page source.name source.pages.length))

namespace Store

variable {store : Store} {reference : PageReference}

theorem exists_locate_iff :
    (∃ page, store.locate reference = .ok page) ↔ reference.InRange store.counts := by
  refine ⟨?_, exists_locate⟩
  rintro ⟨page, located⟩
  obtain ⟨source, document, found⟩ := locate_eq_ok_iff.1 located
  obtain ⟨below, _⟩ := List.getElem?_eq_some_iff.1 found
  exact ⟨source.pages.length, by rw [counts, sources, List.getElem?_map, document]; rfl, below⟩

theorem locate_eq_error_iff {failure : Failure} :
    store.locate reference = .error failure ↔ reference.Refused store.sources failure := by
  have length : store.inputs.length = store.sources.length := (List.length_map _).symm
  have document : store.sources[reference.document]? =
      store.inputs[reference.document]?.map (·.source) := List.getElem?_map ..
  constructor
  · intro failed
    simp only [locate, length] at failed
    split at failed
    next none =>
      cases failed
      exact .document (by simpa [none] using document)
    next input found =>
      split at failed
      · cases failed
      · next none =>
        cases failed
        exact .page (by rw [document, found]; rfl) (List.getElem?_eq_none_iff.1 none)
  · rintro (above | ⟨found, above⟩)
    · have none : store.inputs[reference.document]? = none := by
        rw [List.getElem?_eq_none_iff, length]
        exact above
      simp [locate, none, length]
    · obtain ⟨input, present, rfl⟩ := Option.map_eq_some_iff.1 (document.symm.trans found)
      simp [locate, present, List.getElem?_eq_none_iff.2 above]

/-! Page after page -/

def check (store : Store) (reference : PageReference) : Except Failure Unit :=
  match store.inputs[reference.document]? with
  | none => .error (.documentOutOfRange reference.document store.inputs.length)
  | some input =>
    if reference.page < input.source.pages.length then .ok ()
    else .error (.pdf (.pageNotFound reference.page input.source.name input.source.pages.length))

/-- Appends the page that a reference names. Its identifier is looked up in the list of pages once
more, and its dictionary in the table; a table without it is a failure of its own kind. -/
def append (unreadable : ObjectId → Failure) (store : Store) (reference : PageReference) :
    Except Failure Store :=
  match store.inputs[reference.document]? with
  | none => .error (.documentOutOfRange reference.document store.inputs.length)
  | some input =>
    match input.source.pages[reference.page]? with
    | none =>
      .error (.pdf (.pageNotFound reference.page input.source.name input.source.pages.length))
    | some page =>
      match input.source.table.dictionary? page.id with
      | none => .error (unreadable page.id)
      | some entries => .ok (store.appendPage reference.document ⟨page.id, entries⟩)

def appendEach (unreadable : ObjectId → Failure) :
    List PageReference → Store → Except Failure Unit × Store
  | [], store => (.ok (), store)
  | reference :: rest, store =>
    match store.append unreadable reference with
    | .error failure => (.error failure, store)
    | .ok store => appendEach unreadable rest store

/-- Assembling in two passes, of which the second may stop halfway. -/
def assembleInPasses (unreadable : ObjectId → Failure) (references : List PageReference)
    (store : Store) : Except Failure Nat × Store :=
  match forM references store.check with
  | .error failure => (.error failure, store)
  | .ok () =>
    match appendEach unreadable references store with
    | (.error failure, store) => (.error failure, store)
    | (.ok (), store) => (.ok store.output.pages.length, store)

theorem check_eq (store : Store) (reference : PageReference) :
    store.check reference = store.locate reference >>= fun _ => .ok () := by
  simp only [check, locate]
  cases store.inputs[reference.document]? with
  | none => rfl
  | some input =>
    dsimp only
    by_cases below : reference.page < input.source.pages.length
    · rw [if_pos below, List.getElem?_eq_getElem below]
      rfl
    · rw [if_neg below, List.getElem?_eq_none_iff.2 (Nat.le_of_not_lt below)]
      rfl

theorem forM_check (store : Store) (references : List PageReference) :
    forM references store.check = references.mapM store.locate >>= fun _ => .ok () := by
  induction references with
  | nil => rfl
  | cons reference rest ih =>
    rw [List.forM_cons, ih, check_eq, List.mapM_cons]
    cases store.locate reference with
    | error failure => rfl
    | ok page => cases rest.mapM store.locate <;> rfl

/-- A page that is named and can be read is appended. -/
theorem append_eq {source : Source} {page : Page} (unreadable : ObjectId → Failure)
    (names : reference.Names store.sources source page) (read : page.Read source.table) :
    store.append unreadable reference = .ok (store.appendPage reference.document page) := by
  obtain ⟨input, found, rfl⟩ := exists_input names
  simp only [append, found, names.2, read.entries]

theorem sources_appendPage {source : Source} {page : Page}
    (names : reference.Names store.sources source page) :
    (store.appendPage reference.document page).sources = store.sources := by
  obtain ⟨input, found, rfl⟩ := exists_input names
  let call : Appending := ⟨store, reference.document, input, page⟩
  have valid : call.Valid := ⟨found, List.mem_of_getElem? names.2⟩
  exact valid.result_sources

/-- The second pass does not stop halfway. -/
theorem appendEach_eq (unreadable : ObjectId → Failure) {references : List PageReference}
    {pages : List Page} (loaded : ∀ source ∈ store.sources, source.Loaded)
    (located : List.Forall₂ (fun reference page =>
      ∃ source, reference.Names store.sources source page) references pages) :
    appendEach unreadable references store = (.ok (), (references.zip pages).foldl
      (fun store (reference, page) => store.appendPage reference.document page) store) := by
  generalize same : store.sources = sources at loaded located
  induction located generalizing store with
  | nil => rfl
  | cons named _ ih =>
    obtain ⟨source, names⟩ := named
    have read := (loaded source (List.mem_of_getElem? names.1)).read
      (List.mem_of_getElem? names.2)
    rw [← same] at names
    rw [appendEach, append_eq unreadable names read]
    exact ih ((sources_appendPage names).trans same)

theorem assembleInPasses_eq (unreadable : ObjectId → Failure) (references : List PageReference)
    (loaded : ∀ source ∈ store.sources, source.Loaded) :
    store.assembleInPasses unreadable references = store.assemble references := by
  rw [assembleInPasses, forM_check, assemble]
  cases located : references.mapM store.locate with
  | error failure => rfl
  | ok pages =>
    have named := mapM_eq_ok_iff.1 located
    simp only [locate_eq_ok_iff] at named
    simp only [bind, Except.bind, appendEach_eq unreadable loaded named]

end Store

namespace Assembled

variable {start store : Store} {history : List Appending}

/-- Objects that were there before stay as they are. -/
theorem kept (assembled : Assembled start history store) :
    start.output.next ≤ store.output.next ∧
      ∀ id, id.number < start.output.next →
        store.output.table.get? id = start.output.table.get? id := by
  induction assembled with
  | start => exact ⟨Nat.le_refl _, fun _ _ => rfl⟩
  | append _ valid ih =>
    obtain ⟨grown, same⟩ := ih
    have further := valid.target_lt
    rw [valid.next_result]
    refine ⟨Nat.le_trans grown (Nat.le_of_lt further), fun id old => ?_⟩
    rw [valid.get?_old (Nat.lt_of_lt_of_le old grown), same id old]

/-- What a page brought along when it was appended is still there. -/
theorem copied (assembled : Assembled start history store) {call : Appending}
    (member : call ∈ history) : store.output.table.get? call.target = some call.pageCopy ∧
      ∀ id copy, (id, copy) ∈ call.made →
        store.output.table.get? copy = some (call.objectCopy id) := by
  obtain ⟨valid, _⟩ := assembled.before member
  obtain ⟨later, rest⟩ := assembled.after member
  have kept (id : ObjectId) (old : id.number < call.copies.next) :=
    rest.kept.2 id (valid.next_result ▸ old)
  constructor
  · exact (kept call.target valid.target_lt).trans valid.get?_target
  · intro id copy made
    exact (kept copy (valid.made_number made).2.1).trans (valid.get?_made made)

end Assembled

structure Answered (sources : List Source) (references : List PageReference)
    (history : List Appending) (before after : Store) : Prop where
  assembled : Assembled before history after
  /-- One page for each reference, in order. -/
  answers : List.Forall₂ (Appending.Answers sources) references history
  pages : after.output.pages = before.output.pages ++ history.map Appending.target
  distinct : after.output.pages.Nodup
  /-- Each new page stands below the pages node, with the entries of a page that was found in the
  table of its document. -/
  copied : ∀ call ∈ history, call.page.Read call.source.table ∧ ∃ entries : Dictionary,
    after.output.table.get? call.target = some (.dictionary entries) ∧
    entries.get? Name.type = some (.name Name.page) ∧
    entries.get? Name.parent = some (.reference Output.pagesNode) ∧ call.Flattens entries
  /-- The objects that come with it are copies of objects in this table. -/
  object : ∀ call ∈ history, ∀ id copy, (id, copy) ∈ call.made → ∃ original translation,
    call.source.Copyable id original ∧ after.output.table.get? copy = some translation ∧
    Translates call.Means original translation
  kept : ∀ id, id.number < before.output.next →
    after.output.table.get? id = before.output.table.get? id

namespace Session

variable {start store : Store} {history : List Appending} {taken : List Nat}

theorem answered (session : Session start history taken store) (before : start.output.Sound)
    (fresh : start.Shares) (loaded : ∀ source ∈ start.sources, source.Loaded)
    {references : List PageReference}
    (inside : ∀ reference ∈ references, reference.InRange store.counts) :
    ∃ later final, store.assemble references =
        (.ok (store.output.pages.length + references.length), final) ∧
      Answered start.sources references later store final := by
  obtain ⟨later, final, done, assembled, answers⟩ := Store.assemble_of_inRange inside
  rw [assembled.length_pages answers] at done
  rw [session.sources] at answers
  refine ⟨later, final, done, ?_⟩
  have originals {call : Appending} (member : call ∈ later) (id copy : ObjectId)
      (found : call.copy? id = some copy) : ∃ object, call.source.Copyable id object := by
    obtain ⟨valid, _, earlier⟩ := assembled.before member
    exact valid.copyable ((session.assembled earlier).shares fresh) found
  constructor
  · exact assembled
  · exact answers
  · exact assembled.pages
  · exact ((session.assembled assembled).sound before loaded).distinct
  · intro call member
    obtain ⟨valid, _, earlier⟩ := assembled.before member
    have read := (session.assembled earlier).read valid loaded
    obtain ⟨entries, page, flattens⟩ := valid.flattens (originals member)
    refine ⟨read, entries, (assembled.copied member).1.trans (congrArg some page), ?_,
      call.get?_parent_pageCopy page, flattens⟩
    exact Appending.get?_type_pageCopy read page
  · intro call member id copy made
    obtain ⟨valid, _⟩ := assembled.before member
    obtain ⟨original, copyable, translated⟩ := valid.translates_object (originals member) made
    exact ⟨original, _, copyable, (assembled.copied member).2 id copy made, translated⟩
  · exact assembled.kept.2

end Session

theorem Store.assemble_refused {store : Store} {references : List PageReference}
    (bad : ¬ ∀ reference ∈ references, reference.InRange store.counts) :
    ∃ first failure, ComesTo (PageReference.InRange store.counts) references first ∧
      first.Refused store.sources failure ∧
      store.assemble references = (.error failure, store) := by
  cases located : references.mapM store.locate with
  | ok pages =>
    have each := forall_ok_of_mapM located
    exact absurd (fun reference member => exists_locate_iff.1 (each reference member)) bad
  | error failure =>
    obtain ⟨first, reached, failed⟩ := mapM_eq_error_iff.1 located
    refine ⟨first, failure, reached.imp fun _ => exists_locate_iff.1,
      locate_eq_error_iff.1 failed, ?_⟩
    rw [Store.assemble, located]

/-- A list of references is assembled as a whole or not at all: if all pages exist, each of them is
appended behind what is there, and if not, the first that does not is reported and nothing has
changed. No page fails to be read on the way. -/
theorem assembled_whole_or_refused {sources : List Source}
    (loaded : ∀ source ∈ sources, source.Loaded) (settings : Settings)
    (operations : List Operation) (references : List PageReference)
    (unreadable : ObjectId → Failure) :
    let store := Store.performAll operations (Store.ofSources sources settings)
    let inRange := PageReference.InRange (sources.map (·.pages.length))
    store.assembleInPasses unreadable references = store.assemble references ∧
    ((∀ reference ∈ references, inRange reference) →
      ∃ history final, store.assemble references =
          (.ok (store.output.pages.length + references.length), final) ∧
        Answered sources references history store final) ∧
    ((¬ ∀ reference ∈ references, inRange reference) →
      ∃ first failure, ComesTo inRange references first ∧ first.Refused sources failure ∧
        store.assemble references = (.error failure, store)) := by
  intro store inRange
  have fresh : Session (Store.ofSources sources settings) [] [] _ := .start
  obtain ⟨history, session, _⟩ := fresh.performAll operations
  have same : store.sources = sources :=
    session.sources.trans (Store.sources_ofSources sources settings)
  have counts : inRange = PageReference.InRange store.counts := by rw [Store.counts, same]
  have first : ∀ source ∈ (Store.ofSources sources settings).sources, source.Loaded := by
    simpa using loaded
  rw [counts]
  refine ⟨Store.assembleInPasses_eq unreadable references (same ▸ loaded), fun inside => ?_,
    fun bad => same ▸ Store.assemble_refused bad⟩
  have answered := session.answered (Output.sound_empty settings)
    (Store.shares_ofSources sources settings) first inside
  rwa [Store.sources_ofSources] at answered

/-- The form has one page: it can be appended two more times, but a second page cannot. -/
theorem form_whole_or_refused :
    let store := Store.performAll [.assemble [⟨0, 0⟩]] (Store.ofSources [form] {})
    (∃ final second third, store.assemble [⟨0, 0⟩, ⟨0, 0⟩] = (.ok 3, final) ∧
      final.output.pages = store.output.pages ++ [second, third] ∧
      ∀ id ∈ [second, third], ∃ entries : Dictionary,
        final.output.table.get? id = some (.dictionary entries) ∧
        entries.get? Name.type = some (.name Name.page) ∧
        entries.get? Name.parent = some (.reference Output.pagesNode)) ∧
      store.assemble [⟨0, 0⟩, ⟨0, 1⟩] = (.error (.pdf (.pageNotFound 1 "form.pdf" 1)), store) := by
  have answered := (assembled_whole_or_refused form_loaded {} [.assemble [⟨0, 0⟩]]
    [⟨0, 0⟩, ⟨0, 0⟩] fun _ => .pdf (.reported "")).2.1
  have refused := (assembled_whole_or_refused form_loaded {} [.assemble [⟨0, 0⟩]]
    [⟨0, 0⟩, ⟨0, 1⟩] fun _ => .pdf (.reported "")).2.2
  constructor
  · obtain ⟨history, final, done, later⟩ := answered (by simpa using ⟨1, rfl, Nat.zero_lt_one⟩)
    obtain ⟨second, _, first, rest, rfl⟩ := List.forall₂_cons_left_iff.1 later.answers
    obtain ⟨third, _, last, none, rfl⟩ := List.forall₂_cons_left_iff.1 rest
    cases none
    refine ⟨final, second.target, third.target, done, later.pages, ?_⟩
    intro id new
    obtain ⟨call, member, rfl⟩ : ∃ call ∈ [second, third], Appending.target call = id :=
      List.mem_map.1 new
    obtain ⟨_, entries, found, type, parent, _⟩ := later.copied call member
    exact ⟨entries, found, type, parent⟩
  · obtain ⟨first, failure, reached, why, unchanged⟩ := refused fun each => by
      obtain ⟨count, found, below⟩ := each ⟨0, 1⟩ (by simp)
      cases found
      exact absurd below (by decide)
    have members : first = ⟨0, 0⟩ ∨ first = ⟨0, 1⟩ := by simpa using reached.mem
    rcases members with rfl | rfl
    · cases why with
      | document above => exact absurd above (by decide)
      | page found above =>
        cases found
        exact absurd above (by decide)
    · cases why with
      | document above => exact absurd above (by decide)
      | page found above =>
        cases found
        exact unchanged

end PdfAssembly
