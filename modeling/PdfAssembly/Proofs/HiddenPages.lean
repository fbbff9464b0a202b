import PdfAssembly.Proofs.Listing
import PdfAssembly.Proofs.Repetition

/-! The objects of an output that say that they are pages. Besides its pages these are copies of
what stands for a page of a document without being listed as one: another identifier for a page,
or a page outside the page tree. -/
namespace PdfAssembly

open Pdf

namespace Pdf

def Object.isPage : Object → Bool
  | .dictionary entries => Dictionary.typeName? entries == some Name.page
  | _ => false

theorem Object.isPage_replace {meaning : ObjectId → Object}
    (unnamed : ∀ id, (meaning id).asName? = none) {object : Object}
    (direct : object.asReference? = none) : (object.replace meaning).isPage = object.isPage := by
  cases object with
  | reference id => cases direct
  | dictionary entries =>
    simp only [replace, isPage, typeName?_replaceEntries unnamed]
  | _ => rfl

/-- The identifier stands for a page and is not among those of the document's pages. -/
def Source.Hides (source : Source) (id : ObjectId) : Prop :=
  source.isPage id = false ∧ ∃ object, source.table.resolve id = some object ∧ object.isPage = true

theorem Object.isPageTreeNode_of_isPage {object : Object} (page : object.isPage = true) :
    object.isPageTreeNode = false := by
  cases object with
  | dictionary entries =>
    have type : Dictionary.typeName? entries = some Name.page := by simpa [isPage] using page
    have apart : Name.page ≠ Name.pages := by decide
    simp [isPageTreeNode, type, apart]
  | _ => rfl

/-- A page that is not listed is copied like any other object. -/
theorem Source.hides_iff {source : Source} {id : ObjectId} :
    source.Hides id ↔ ∃ object, source.Copyable id object ∧ object.isPage = true := by
  constructor
  · rintro ⟨unlisted, object, resolved, page⟩
    exact ⟨object, ⟨unlisted, resolved, Object.isPageTreeNode_of_isPage page⟩, page⟩
  · rintro ⟨object, ⟨unlisted, resolved, _⟩, page⟩
    exact ⟨unlisted, object, resolved, page⟩

/-- The search copies nothing but what it is led to. -/
theorem CopyScope.leads_made {scope : CopyScope}
    (listed : scope.source.isPage scope.page.id = true) {start : List ObjectId} (copies : Copies)
    (pending : List ObjectId)
    (led : ∀ id ∈ pending, ∀ object, scope.source.Copyable id object →
      scope.source.Leads start id) :
    ∀ pair ∈ (scope.discover copies pending).made, pair ∉ copies.made →
      scope.source.Leads start pair.1 := by
  induction copies, pending using discover.induct scope with
  | case1 copies =>
    intro pair member absent
    exact absurd (by simpa using member) absent
  | case2 copies id rest skipped ih =>
    rw [discover_cons, skipped]
    exact ih fun other member => led other (List.mem_cons_of_mem _ member)
  | case3 copies id rest object found ih =>
    obtain ⟨original, _⟩ := (uncopied?_eq_some_iff listed).1 found
    have here := led id (by simp) object original
    rw [discover_cons, found]
    intro pair member absent
    by_cases now : pair = (id, ⟨copies.next, 0⟩)
    · subst now
      exact here
    · refine ih ?_ pair member (by simp [now, absent])
      intro other inside further copyable
      rcases List.mem_append.1 inside with referred | later
      · exact .step here original referred copyable
      · exact led other (List.mem_cons_of_mem _ later) further copyable

end Pdf

theorem Appending.Valid.leads_made {call : Appending} (valid : call.Valid) {id copy : ObjectId}
    (made : (id, copy) ∈ call.made) : call.Leads id :=
  CopyScope.leads_made valid.listed _ _ (fun _ inside _ original => .start inside original)
    (id, copy) made (by simp)

namespace Recorded

variable {sources : List Source} {history : List Appending} {store : Store} {call : Appending}

/-- What a page leads to has been copied, if not for this page then for an earlier one. -/
theorem exists_maker_of_leads (recorded : Recorded sources history store) (member : call ∈ history)
    {id : ObjectId} (leads : call.Leads id) :
    ∃ maker ∈ history, maker.source = call.source ∧ ∃ copy, (id, copy) ∈ maker.made := by
  have maker {other : Appending} (inside : other ∈ history) (same : other.source = call.source)
      {id copy : ObjectId} (found : other.copy? id = some copy) :
      ∃ maker ∈ history, maker.source = call.source ∧ ∃ copy, (id, copy) ∈ maker.made := by
    obtain ⟨maker, present, document, _, made, _⟩ := recorded.maker inside found
    exact ⟨maker, present, (recorded.same_source inside present document).trans same, copy, made⟩
  induction leads with
  | start inside original =>
    obtain ⟨copy, found⟩ := (recorded.valid call member).1.exists_copy_of_entries inside original
    exact maker member rfl found
  | step _ via inside original ih =>
    obtain ⟨other, present, same, copy, made⟩ := ih
    rw [← same] at via original
    obtain ⟨next, found⟩ :=
      (recorded.valid other present).1.exists_copy_of_object made via inside original
    exact maker present same found

/-- A copy says that it is a page exactly if its original does. -/
theorem isPage_copy (recorded : Recorded sources history store) (member : call ∈ history)
    {original id : ObjectId} {object : Object} (made : (original, id) ∈ call.made)
    (found : store.output.table.get? id = some object) :
    object.isPage = true ↔ call.source.Hides original := by
  obtain ⟨other, copyable⟩ := (recorded.valid call member).1.tracked.copyable _ made
  rw [recorded.object call member _ _ made, Appending.objectCopy_eq copyable,
    Option.some.injEq] at found
  have direct := Table.asReference?_of_follow copyable.2.1
  rw [← found, Object.isPage_replace (call.scope.asName?_meaning call.copies) direct,
    Source.hides_iff]
  constructor
  · exact fun page => ⟨other, copyable, page⟩
  · rintro ⟨same, again, page⟩
    rwa [copyable.unique again]

theorem isPage_iff (recorded : Recorded sources history store) (sound : store.output.Sound)
    {id : ObjectId} {object : Object} (found : store.output.table.get? id = some object) :
    object.isPage = true ↔ id ∈ store.output.pages ∨
      ∃ call ∈ history, ∃ original, (original, id) ∈ call.made ∧ call.source.Hides original := by
  constructor
  · intro page
    rcases recorded.origin id object found with rfl | rfl | ⟨call, member, rfl | copied⟩
    · obtain ⟨entries, tree, type⟩ := sound.tree
      cases found.symm.trans tree
      rw [Object.isPage, type] at page
      exact absurd page (by decide)
    · cases found.symm.trans sound.root
      exact absurd page (by decide)
    · exact .inl (recorded.mem_pages_iff.2 ⟨call, member, rfl⟩)
    · obtain ⟨⟨original, _⟩, made, rfl⟩ := List.mem_map.1 copied
      exact .inr ⟨call, member, original, made, (recorded.isPage_copy member made found).1 page⟩
  · rintro (listed | ⟨call, member, original, made, hides⟩)
    · obtain ⟨_, entries, present, type⟩ := sound.pages id listed
      cases found.symm.trans present
      simp [Object.isPage, type]
    · exact (recorded.isPage_copy member made found).2 hides

end Recorded

/-- The output of any assembly: its pages say that they are pages, and so do the copies of what
a document hides, but nothing else does. The pages are alone exactly if no page that is appended
leads to something that its document hides. -/
theorem page_objects_iff {sources : List Source} {batches : List (List PageReference)}
    {settings : Settings} {store : Store} (loaded : ∀ source ∈ sources, source.Loaded)
    (done : Store.assembleAll batches (Store.ofSources sources settings) = .ok store) :
    ∃ history, Assembled (Store.ofSources sources settings) history store ∧
      List.Forall₂ (Appending.Answers sources) batches.flatten history ∧
      store.output.pages = history.map Appending.target ∧
      (∀ id object, store.output.table.get? id = some object →
        (object.isPage = true ↔ id ∈ store.output.pages ∨
          ∃ call ∈ history, ∃ original, (original, id) ∈ call.made ∧
            call.source.Hides original)) ∧
      ((∀ id object, store.output.table.get? id = some object → object.isPage = true →
          id ∈ store.output.pages) ↔
        ∀ call ∈ history, ∀ id, call.Leads id → ¬ call.source.Hides id) := by
  obtain ⟨history, assembled, answers⟩ := Assembled.start.assembleAll done
  rw [List.nil_append] at assembled
  rw [Store.sources_ofSources] at answers
  have recorded := assembled.recorded
  have sound := assembled.sound (Output.sound_empty settings) (by simpa using loaded)
  refine ⟨history, assembled, answers, recorded.pages,
    fun id object found => recorded.isPage_iff sound found, ?_, ?_⟩
  · intro alone call member id leads hides
    obtain ⟨maker, present, same, copy, made⟩ := recorded.exists_maker_of_leads member leads
    have found := recorded.object maker present id copy made
    have page := (recorded.isPage_copy present made found).2 (same ▸ hides)
    obtain ⟨other, inside, target⟩ := recorded.mem_pages_iff.1 (alone copy _ found page)
    exact recorded.made_ne_target present inside made target.symm
  · intro none id object found page
    rcases (recorded.isPage_iff sound found).1 page with
      listed | ⟨call, member, original, made, hides⟩
    · exact listed
    · have leads := (recorded.valid call member).1.leads_made made
      exact absurd hides (none call member original leads)

/-- Two pages. A link on the first leads to the second by way of another identifier. -/
def linkedTable : Table := OrderedMap.ofList [
  (⟨1, 0⟩, .dictionary [(Name.type, .name Name.catalog), (Name.pages, .reference ⟨2, 0⟩)]),
  (⟨2, 0⟩, .dictionary [(Name.type, .name Name.pages),
    (Name.kids, .array [.reference ⟨3, 0⟩, .reference ⟨4, 0⟩])]),
  (⟨3, 0⟩, .dictionary [(Name.type, .name Name.page), (Name.annots, .array [.reference ⟨5, 0⟩])]),
  (⟨4, 0⟩, .dictionary [(Name.type, .name Name.page)]),
  (⟨5, 0⟩, .dictionary [(bytes "Dest", .array [.reference ⟨6, 0⟩])]),
  (⟨6, 0⟩, .reference ⟨4, 0⟩)]

def linkedDocument : Document := ⟨"1.7", some (.reference ⟨1, 0⟩), none, none, linkedTable⟩

def linked : Source := ⟨"linked.pdf", linkedTable, linkedDocument.pages⟩

theorem linked_loaded : ∀ source ∈ [linked], source.Loaded := by
  intro source member
  cases List.mem_singleton.1 member
  exact ⟨"linked.pdf", .document linkedDocument, rfl⟩

def linkedStore : Store := (Store.assemble [⟨0, 0⟩] (Store.ofSources [linked] {})).2

theorem linkedStore_table : linkedStore.output.table = .ofList [
    (⟨1, 0⟩, .dictionary (Output.treeEntries [])),
    (⟨2, 0⟩, .dictionary [(Name.type, .name Name.catalog), (Name.pages, .reference ⟨1, 0⟩)]),
    (⟨3, 0⟩, .dictionary [(Name.type, .name Name.page), (Name.annots, .array [.reference ⟨4, 0⟩]),
      (Name.parent, .reference ⟨1, 0⟩)]),
    (⟨4, 0⟩, .dictionary [(bytes "Dest", .array [.reference ⟨5, 0⟩])]),
    (⟨5, 0⟩, .dictionary [(Name.type, .name Name.page)])] := by
  let scope : CopyScope := ⟨linked, ⟨⟨3, 0⟩, [(Name.type, .name Name.page),
    (Name.annots, .array [.reference ⟨5, 0⟩])]⟩, ⟨3, 0⟩⟩
  let copies := scope.discover { shared := ∅, next := 4 } [⟨5, 0⟩]
  have search : copies = ⟨.ofList [(⟨6, 0⟩, ⟨5, 0⟩)], .ofList [(⟨5, 0⟩, ⟨4, 0⟩)], 6,
      [(⟨6, 0⟩, ⟨5, 0⟩), (⟨5, 0⟩, ⟨4, 0⟩)]⟩ := CopyScope.discover_of_explore 2 rfl
  have table : linkedStore.output.table =
      ((Output.empty {}).table.insertAll (scope.objectCopies copies)).insert ⟨3, 0⟩
        (scope.pageCopy copies ⟨1, 0⟩) := rfl
  rw [table, search]
  rfl

theorem linked_page_objects : ∃ history,
    List.Forall₂ (Appending.Answers [linked]) [⟨0, 0⟩] history ∧
      ∀ id object, linkedStore.output.table.get? id = some object →
        (object.isPage = true ↔ id ∈ linkedStore.output.pages ∨
          ∃ call ∈ history, ∃ original, (original, id) ∈ call.made ∧
            call.source.Hides original) := by
  have done : Store.assembleAll [[⟨0, 0⟩]] (Store.ofSources [linked] {}) = .ok linkedStore := rfl
  obtain ⟨history, _, answers, _, objects, _⟩ := page_objects_iff linked_loaded done
  exact ⟨history, answers, objects⟩

/-- The second page is copied although nobody has asked for it. -/
theorem linked_page_rides_along :
    Store.assembleAll [[⟨0, 0⟩]] (Store.ofSources [linked] {}) = .ok linkedStore ∧
      linkedStore.output.pages = [(⟨3, 0⟩ : ObjectId)] ∧
      ∃ object, linkedStore.output.table.get? ⟨5, 0⟩ = some object ∧ object.isPage = true := by
  refine ⟨rfl, rfl, ?_⟩
  rw [linkedStore_table]
  exact ⟨_, rfl, by decide⟩

end PdfAssembly
