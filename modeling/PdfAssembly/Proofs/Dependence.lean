import PdfAssembly.Proofs.DryRun
import PdfAssembly.Proofs.Reach

/-! What an output depends on. Documents may differ wherever the selected pages do not reach; the
pages are copied in step then, identifier by identifier, and number by number. -/
namespace PdfAssembly

open Pdf

namespace Pdf

theorem ObjectMap.renumber_self (map : ObjectMap) :
    map.mapValues (ObjectId.renumber fun n => n) = map := by
  ext1 id
  rw [OrderedMap.get?_mapValues]
  exact Option.map_id'

theorem Copies.renumber_self (copies : Copies) : copies.renumber (fun n => n) = copies := by
  simp only [renumber, ObjectMap.renumber_self]
  exact congrArg (Copies.mk _ _ _) (List.map_id' _)

end Pdf

structure Versions (sources others : List Source) : Prop where
  loaded : ∀ source ∈ sources, source.Loaded
  loaded' : ∀ source ∈ others, source.Loaded
  pages : others.map Source.pageIds = sources.map Source.pageIds

def AgreeOn (needs : Source → Page → ObjectId → Prop) (sources others : List Source)
    (references : List PageReference) : Prop :=
  ∀ reference ∈ references, ∀ source page, reference.Names sources source page →
    ∀ other, others[reference.document]? = some other →
      source.table.Agree other.table (needs source page)

structure Twins (store twin : Store) : Prop where
  output : twin.output = store.output
  copies : twin.inputs.map Input.copies = store.inputs.map Input.copies

namespace Appending.InStep

variable {call other : Appending}

/-- Two pages appended in step under the same numbers leave the same output. -/
theorem twins (inStep : call.InStep (fun n => n) other) (twins : Twins call.store other.store)
    (document : other.document = call.document) : Twins call.result other.result := by
  have copies := inStep.copies_eq.trans (Copies.renumber_self _)
  have target : other.target = call.target := inStep.target_eq
  have table : other.result.output.table = call.result.output.table := by
    ext1 id
    by_cases new : id = call.target ∨ id ∈ call.made.map (·.2)
    · have same := inStep.get?_new rfl new
      rwa [funext Object.renumber_self, Option.map_id'] at same
    · have same := inStep.get?_old Function.injective_id new
      rw [inStep.valid.get?_other (fun page => new (.inl page)) fun copy => new (.inr copy),
        ← twins.output]
      exact same
  constructor
  · calc other.result.output
      _ = { other.store.output with
            table := other.result.output.table
            next := other.copies.next
            pages := other.store.output.pages ++ [other.target] } := by
        rw [inStep.valid'.result_output]
      _ = { call.store.output with
            table := call.result.output.table
            next := call.copies.next
            pages := call.store.output.pages ++ [call.target] } := by
        rw [table, twins.output, copies, target]
      _ = call.result.output := by rw [inStep.valid.result_output]
  · rw [inStep.valid.result_inputs, inStep.valid'.result_inputs, List.map_set, List.map_set,
      twins.copies, copies, document]

end Appending.InStep

namespace Versions

variable {sources others : List Source} {reference : PageReference} {source : Source} {page : Page}

/-- A reference names the same page in both versions. -/
theorem names (versions : Versions sources others) (named : reference.Names sources source page)
    (agree : ∀ other, others[reference.document]? = some other →
      source.table.Agree other.table (source.Reads page)) :
    ∃ other, reference.Names others other page ∧ other.pageIds = source.pageIds := by
  obtain ⟨document, position⟩ := named
  have same := congrArg (·[reference.document]?) versions.pages
  simp only [List.getElem?_map, document, Option.map_some, Option.map_eq_some_iff] at same
  obtain ⟨other, document', ids⟩ := same
  have listed := congrArg (·[reference.page]?) ids
  simp only [Source.pageIds, List.getElem?_map, position, Option.map_some,
    Option.map_eq_some_iff] at listed
  obtain ⟨twin, position', id⟩ := listed
  have loaded := versions.loaded source (List.mem_of_getElem? document)
  have loaded' := versions.loaded' other (List.mem_of_getElem? document')
  have page_eq := loaded.page_eq loaded' (List.mem_of_getElem? position)
    (List.mem_of_getElem? position') id (agree other document')
  exact ⟨other, ⟨document', page_eq ▸ position'⟩, ids⟩

/-- A page is appended to both stores in step. -/
theorem inStep (versions : Versions sources others) {store twin : Store} (twins : Twins store twin)
    (same : store.sources = sources) (same' : twin.sources = others)
    (named : reference.Names sources source page)
    (agree : ∀ other, others[reference.document]? = some other →
      source.table.Agree other.table (source.Reads page)) :
    ∃ input input',
      Appending.InStep (fun n => n) ⟨store, reference.document, input, page⟩
        ⟨twin, reference.document, input', page⟩ := by
  obtain ⟨other, named', ids⟩ := versions.names named agree
  have agree := agree other named'.1
  have loaded := versions.loaded source (List.mem_of_getElem? named.1)
  have loaded' := versions.loaded' other (List.mem_of_getElem? named'.1)
  rw [← same] at named
  rw [← same'] at named'
  obtain ⟨input, found, rfl⟩ := Store.exists_input named
  obtain ⟨input', found', rfl⟩ := Store.exists_input named'
  have copies := congrArg (·[reference.document]?) twins.copies
  simp only [List.getElem?_map, found, found', Option.map_some, Option.some.injEq] at copies
  have valid : Appending.Valid ⟨store, reference.document, input, page⟩ :=
    ⟨found, List.mem_of_getElem? named.2⟩
  refine ⟨input, input', ?_⟩
  exact {
    valid
    valid' := ⟨found', List.mem_of_getElem? named'.2⟩
    alike := {
      page := rfl
      target := congrArg (fun output : Output => (⟨output.next, 0⟩ : ObjectId)) twins.output
      isPage := Source.isPage_congr ids
      listed := valid.listed
      owned := Source.annotations_congr loaded loaded' ids agree
      originals := fun _ meets => Source.copyable_congr ids agree meets }
    entries := Source.flattened_congr agree
    copies := copies.trans (ObjectMap.renumber_self _).symm
    next := congrArg Output.next twins.output
    steady := fun _ _ => rfl }

/-- Appending a page leaves the same output. -/
theorem appendPage (versions : Versions sources others) {store twin : Store}
    (twins : Twins store twin) (same : store.sources = sources) (same' : twin.sources = others)
    (named : reference.Names sources source page)
    (agree : ∀ other, others[reference.document]? = some other →
      source.table.Agree other.table (source.Reads page)) :
    Twins (store.appendPage reference.document page) (twin.appendPage reference.document page) ∧
      (store.appendPage reference.document page).sources = sources ∧
      (twin.appendPage reference.document page).sources = others := by
  obtain ⟨input, input', inStep⟩ := versions.inStep twins same same' named agree
  exact ⟨inStep.twins twins rfl, inStep.valid.result_sources.trans same,
    inStep.valid'.result_sources.trans same'⟩

theorem twins (versions : Versions sources others) (settings : Settings) :
    Twins (Store.ofSources sources settings) (Store.ofSources others settings) where
  output := rfl
  copies := by
    have none (list : List Source) : (Store.ofSources list settings).inputs.map Input.copies =
        (list.map Source.pageIds).map fun _ => ∅ := by
      simp only [Store.ofSources, List.map_map]
      rfl
    rw [none, none, versions.pages]

/-- Where a page is located in one version it is located in the other. -/
theorem locate_eq (versions : Versions sources others) {references : List PageReference}
    (agree : AgreeOn Source.Reads sources others references) {settings : Settings}
    (member : reference ∈ references)
    (located : (Store.ofSources sources settings).locate reference = .ok page) :
    (Store.ofSources others settings).locate reference = .ok page := by
  obtain ⟨source, named⟩ := Store.locate_eq_ok_iff.1 located
  have same := Store.sources_ofSources sources settings
  have same' := Store.sources_ofSources others settings
  rw [Store.sources] at same same'
  rw [same] at named
  obtain ⟨other, named', _⟩ := versions.names named (agree reference member source page named)
  rw [← same'] at named'
  exact Store.locate_eq_ok_iff.2 ⟨other, named'⟩

end Versions

/-- An output depends on what is read for the selected pages, and on nothing else. -/
theorem output_depends_on_reads {sources others : List Source} (versions : Versions sources others)
    {references : List PageReference}
    (inside : ∀ reference ∈ references, reference.InRange (sources.map (·.pages.length)))
    (agree : AgreeOn Source.Reads sources others references) (settings : Settings) :
    ∃ count store twin,
      (Store.ofSources sources settings).assemble references = (.ok count, store) ∧
      (Store.ofSources others settings).assemble references = (.ok count, twin) ∧
      Twins store twin := by
  have same := Store.sources_ofSources sources settings
  have same' := Store.sources_ofSources others settings
  have each : ∀ reference ∈ references,
      ∃ page, (Store.ofSources sources settings).locate reference = .ok page := by
    intro reference member
    apply Store.exists_locate
    rw [Store.counts, same]
    exact inside reference member
  obtain ⟨pages, located⟩ := exists_mapM_eq_ok each
  have located' : references.mapM (Store.ofSources others settings).locate = .ok pages := by
    rw [← located]
    apply mapM_congr
    intro reference member
    obtain ⟨page, found⟩ := each reference member
    rw [found, versions.locate_eq agree member found]
  have named := mapM_eq_ok_iff.1 located
  simp only [Store.locate_eq_ok_iff] at named
  rw [← Store.sources, same] at named
  obtain ⟨twins, _⟩ := Store.appendPages_rel
    (R := fun store twin => Twins store twin ∧ store.sources = sources ∧ twin.sources = others)
    named (fun reference member source page named _ _ before =>
      versions.appendPage before.1 before.2.1 before.2.2 named
        (agree reference member source page named))
    ⟨versions.twins settings, same, same'⟩
  simp only [Store.assemble, located, located']
  exact ⟨_, _, _, rfl, by rw [twins.output], twins⟩

/-- An output depends on what the selected pages reach, as long as they reach no page by way of
another identifier. In particular the contents of other pages make no difference. -/
theorem output_depends_on_reached {sources others : List Source}
    (versions : Versions sources others) {references : List PageReference}
    (inside : ∀ reference ∈ references, reference.InRange (sources.map (·.pages.length)))
    (plain : ∀ reference ∈ references, ∀ source page, reference.Names sources source page →
      source.Plain page)
    (agree : AgreeOn Source.Reaches sources others references) (settings : Settings) :
    ∃ count store twin,
      (Store.ofSources sources settings).assemble references = (.ok count, store) ∧
      (Store.ofSources others settings).assemble references = (.ok count, twin) ∧
      Twins store twin := by
  refine output_depends_on_reads versions inside ?_ settings
  intro reference member source page named other document
  exact (agree reference member source page named other document).mono fun _ reads =>
    (plain reference member source page named).reaches_of_reads reads

def contentStream (content : String) : Object :=
  .stream [(Name.length, .integer (bytes content).length)] ⟨bytes content, false⟩

theorem contentStream_ne : contentStream "q" ≠ contentStream "Q" := by
  intro same
  simp only [contentStream, Object.stream.injEq, StreamData.mk.injEq] at same
  exact absurd same.2.1 (by decide)

/-- Two pages. A link on the first leads to the second, directly or by way of another identifier. -/
def linking (link : ObjectId) (content : String) : Source :=
  let table : Table := OrderedMap.ofList [
    (⟨1, 0⟩, .dictionary [(Name.type, .name Name.catalog), (Name.pages, .reference ⟨2, 0⟩)]),
    (⟨2, 0⟩, .dictionary [(Name.type, .name Name.pages),
      (Name.kids, .array [.reference ⟨3, 0⟩, .reference ⟨4, 0⟩])]),
    (⟨3, 0⟩, .dictionary [(Name.type, .name Name.page),
      (Name.annots, .array [.reference ⟨5, 0⟩])]),
    (⟨4, 0⟩, .dictionary [(Name.type, .name Name.page), (bytes "Contents", .reference ⟨7, 0⟩)]),
    (⟨5, 0⟩, .dictionary [(bytes "Dest", .array [.reference link])]),
    (⟨6, 0⟩, .reference ⟨4, 0⟩),
    (⟨7, 0⟩, contentStream content)]
  ⟨"linking.pdf", table, PageTree.pages table (some (.reference ⟨1, 0⟩))⟩

def linkingPage : Page :=
  ⟨⟨3, 0⟩, [(Name.type, .name Name.page), (Name.annots, .array [.reference ⟨5, 0⟩])]⟩

theorem pages_linking (link : ObjectId) (content : String) :
    (linking link content).pages = [linkingPage, ⟨⟨4, 0⟩,
      [(Name.type, .name Name.page), (bytes "Contents", .reference ⟨7, 0⟩)]⟩] := rfl

theorem referred_linking (link : ObjectId) (content : String) :
    (linking link content).referred linkingPage = [⟨5, 0⟩] := rfl

theorem linking_loaded (link : ObjectId) (content : String) : (linking link content).Loaded :=
  ⟨"linking.pdf", .document ⟨"1.7", some (.reference ⟨1, 0⟩), none, none,
    (linking link content).table⟩, rfl⟩

theorem linking_versions (link : ObjectId) (content other : String) :
    Versions [linking link content] [linking link other] where
  loaded := by simp [linking_loaded]
  loaded' := by simp [linking_loaded]
  pages := by simp [Source.pageIds, pages_linking]

/-- The content of the second page is not reached from the first. -/
theorem follows_linking {link : ObjectId} {content : String} (known : link = ⟨4, 0⟩ ∨ link = ⟨6, 0⟩)
    {id : ObjectId} (follows : (linking link content).Follows [⟨5, 0⟩] id) :
    id = ⟨5, 0⟩ ∨ id = ⟨4, 0⟩ ∨ id = link := by
  have page : (linking link content).isPage ⟨4, 0⟩ = true := rfl
  induction follows with
  | start inside => exact .inl (List.mem_singleton.1 inside)
  | @step via id object _ unlisted found _ refers ih =>
    rcases ih with rfl | rfl | rfl
    · cases found
      exact .inr (.inr (List.mem_singleton.1 refers))
    · exact absurd (page.symm.trans unlisted) (by decide)
    rcases known with rfl | rfl
    · exact absurd (page.symm.trans unlisted) (by decide)
    · cases found
      exact .inr (.inl (List.mem_singleton.1 refers))

theorem consults_linking {link : ObjectId} {content : String} {id : ObjectId}
    (consults : (linking link content).Consults linkingPage id) : id = ⟨3, 0⟩ := by
  cases consults with
  | page chain =>
    induction chain with
    | here => rfl
    | next _ found ih => subst ih; cases found
  | above _ _ climbs =>
    cases climbs with
    | parent entry => cases entry
    | above found => cases found

theorem inRange_linking (link : ObjectId) (content : String) :
    ∀ reference ∈ [(⟨0, 0⟩ : PageReference)],
      reference.InRange ([linking link content].map (·.pages.length)) := by
  intro reference member
  cases List.mem_singleton.1 member
  exact ⟨2, rfl, by decide⟩

theorem names_linking {link : ObjectId} {content : String} {source : Source} {page : Page}
    (named : PageReference.Names [linking link content] ⟨0, 0⟩ source page) :
    source = linking link content ∧ page = linkingPage := by
  obtain ⟨document, position⟩ := named
  cases document
  cases position
  exact ⟨rfl, rfl⟩

theorem agreeOn_linking {link : ObjectId} (content other : String)
    (known : link = ⟨4, 0⟩ ∨ link = ⟨6, 0⟩) :
    AgreeOn Source.Reaches [linking link content] [linking link other] [⟨0, 0⟩] := by
  intro reference member source page named twin document id reaches
  cases List.mem_singleton.1 member
  obtain ⟨rfl, rfl⟩ := names_linking named
  cases document
  cases reaches with
  | entries consults =>
    cases consults_linking consults
    rfl
  | object follows =>
    rw [referred_linking] at follows
    rcases follows_linking known follows with rfl | rfl | rfl
    · rfl
    · rfl
    · rcases known with rfl | rfl <;> rfl

theorem plain_linking (content : String) : (linking ⟨4, 0⟩ content).Plain linkingPage := by
  intro id follows unlisted target found
  rw [referred_linking] at follows
  have page : (linking ⟨4, 0⟩ content).isPage ⟨4, 0⟩ = true := rfl
  rcases follows_linking (.inl rfl) follows with rfl | rfl | rfl
  · cases found
  all_goals exact absurd (page.symm.trans unlisted) (by decide)

/-- With a direct link the content of the second page makes no difference. -/
theorem linking_directly_alike :
    (linking ⟨4, 0⟩ "q").table.get? ⟨7, 0⟩ ≠ (linking ⟨4, 0⟩ "Q").table.get? ⟨7, 0⟩ ∧
      (linking ⟨4, 0⟩ "q").Plain linkingPage ∧
      ∃ count store twin,
        Store.assemble [⟨0, 0⟩] (Store.ofSources [linking ⟨4, 0⟩ "q"] {}) = (.ok count, store) ∧
        Store.assemble [⟨0, 0⟩] (Store.ofSources [linking ⟨4, 0⟩ "Q"] {}) = (.ok count, twin) ∧
        Twins store twin := by
  refine ⟨fun same => contentStream_ne (Option.some.inj same), plain_linking "q", ?_⟩
  refine output_depends_on_reached (linking_versions ..) (inRange_linking _ _) ?_
    (agreeOn_linking "q" "Q" (.inl rfl)) {}
  intro reference member source page named
  cases List.mem_singleton.1 member
  obtain ⟨rfl, rfl⟩ := names_linking named
  exact plain_linking _

def linkingStore (content : String) : Store :=
  (Store.assemble [⟨0, 0⟩] (Store.ofSources [linking ⟨6, 0⟩ content] {})).2

theorem get?_linkingStore (content : String) :
    (linkingStore content).output.table.get? ⟨6, 0⟩ = some (contentStream content) := by
  let scope : CopyScope := ⟨linking ⟨6, 0⟩ content, linkingPage, ⟨3, 0⟩⟩
  let copies := scope.discover { shared := ∅, next := 4 } [⟨5, 0⟩]
  have search : copies = ⟨.ofList [(⟨6, 0⟩, ⟨5, 0⟩), (⟨7, 0⟩, ⟨6, 0⟩)],
      .ofList [(⟨5, 0⟩, ⟨4, 0⟩)], 7,
      [(⟨7, 0⟩, ⟨6, 0⟩), (⟨6, 0⟩, ⟨5, 0⟩), (⟨5, 0⟩, ⟨4, 0⟩)]⟩ :=
    CopyScope.discover_of_explore 3 rfl
  have table : (linkingStore content).output.table =
      ((Output.empty {}).table.insertAll (scope.objectCopies copies)).insert ⟨3, 0⟩
        (scope.pageCopy copies ⟨1, 0⟩) := rfl
  rw [table, search]
  rfl

/-- By way of another identifier the second page is copied, and its content shows, although the
first page does not reach it. -/
theorem linking_indirectly_differs :
    Versions [linking ⟨6, 0⟩ "q"] [linking ⟨6, 0⟩ "Q"] ∧
      (∀ reference ∈ [(⟨0, 0⟩ : PageReference)],
        reference.InRange ([linking ⟨6, 0⟩ "q"].map (·.pages.length))) ∧
      AgreeOn Source.Reaches [linking ⟨6, 0⟩ "q"] [linking ⟨6, 0⟩ "Q"] [⟨0, 0⟩] ∧
      Store.assemble [⟨0, 0⟩] (Store.ofSources [linking ⟨6, 0⟩ "q"] {}) =
        (.ok 1, linkingStore "q") ∧
      Store.assemble [⟨0, 0⟩] (Store.ofSources [linking ⟨6, 0⟩ "Q"] {}) =
        (.ok 1, linkingStore "Q") ∧
      (linkingStore "Q").output.table ≠ (linkingStore "q").output.table := by
  refine ⟨linking_versions .., inRange_linking _ _, agreeOn_linking _ _ (.inr rfl), rfl, rfl, ?_⟩
  intro same
  have content := get?_linkingStore "Q"
  rw [same, get?_linkingStore] at content
  exact contentStream_ne (Option.some.inj content)

end PdfAssembly
