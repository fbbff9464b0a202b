import PdfAssembly.Proofs.Independence

/-! Pages that are appended again. The second copy shares with the first all that is not one of
the page's annotations, and leads to the first copy if any of that leads back to the page. -/
namespace PdfAssembly

open Pdf

/-- What references lead to in a document without going on from a page or the page tree. -/
inductive Pdf.Source.Leads (source : Source) (start : List ObjectId) : ObjectId → Prop
  | start {id : ObjectId} : id ∈ start → source.Copyable id object → Leads source start id
  | step {via id : ObjectId} : Leads source start via → source.Copyable via object →
      id ∈ object.references → source.Copyable id other → Leads source start id

namespace Appending

def Leads (call : Appending) (id : ObjectId) : Prop :=
  call.source.Leads (Object.entryReferences call.entries) id

def LeadsBack (call : Appending) (id : ObjectId) : Prop :=
  ∃ last object, call.source.Leads [id] last ∧ call.source.Copyable last object ∧
    call.page.id ∈ object.references

structure Repeats (history : List Appending) (first second : Appending) : Prop where
  document : second.document = first.document
  page : second.page = first.page
  apart : second ≠ first
  earliest : ∀ other ∈ history, other.document = first.document →
    first.target.number ≤ other.target.number

end Appending

variable {sources : List Source} {history : List Appending} {store : Store}
  {first second : Appending}

namespace Recorded

/-- Nothing that the first page of a document refers to was copied before. -/
theorem made_of_copy? (recorded : Recorded sources history store) (left : first ∈ history)
    (repeats : first.Repeats history second) {id copy : ObjectId}
    (found : first.copy? id = some copy) : (id, copy) ∈ first.made := by
  obtain ⟨maker, inside, document, before, made, _⟩ := recorded.maker left found
  have number : maker.target.number = first.target.number :=
    Nat.le_antisymm before (repeats.earliest maker inside document)
  have same : maker.target = first.target :=
    congrArg (ObjectId.mk · 0) number
  rwa [recorded.target_injective inside left same] at made

theorem exists_made_of_leads (recorded : Recorded sources history store) (left : first ∈ history)
    (repeats : first.Repeats history second) {id : ObjectId} (leads : first.Leads id) :
    ∃ copy, first.copy? id = some copy ∧ (id, copy) ∈ first.made := by
  have valid := (recorded.valid first left).1
  have settled : ∃ copy, first.copy? id = some copy := by
    induction leads with
    | start inside original => exact valid.exists_copy_of_entries inside original
    | step _ via inside original ih =>
      obtain ⟨copy, found⟩ := ih
      have made := recorded.made_of_copy? left repeats found
      exact valid.exists_copy_of_object made via inside original
  obtain ⟨copy, found⟩ := settled
  exact ⟨copy, found, recorded.made_of_copy? left repeats found⟩

theorem entries_eq (recorded : Recorded sources history store) (left : first ∈ history)
    (right : second ∈ history) (repeats : first.Repeats history second) :
    second.entries = first.entries := by
  simp only [Appending.entries]
  rw [recorded.same_source left right repeats.document, repeats.page]

theorem owned_eq (recorded : Recorded sources history store) (left : first ∈ history)
    (right : second ∈ history) (repeats : first.Repeats history second) :
    second.owned = first.owned := by
  simp only [Appending.owned, CopyScope.owned, Appending.scope]
  rw [recorded.same_source left right repeats.document, repeats.page]

/-- An annotation of the page has a copy of its own. -/
theorem made_of_owned (recorded : Recorded sources history store) (left : first ∈ history)
    (right : second ∈ history) (repeats : first.Repeats history second) {id copy : ObjectId}
    (mine : id ∈ first.owned) (found : second.copy? id = some copy) :
    (id, copy) ∈ second.made := by
  obtain ⟨maker, _, _, _, made, own, _⟩ := recorded.maker right found
  rw [← recorded.owned_eq left right repeats] at mine
  rwa [own mine] at made

/-- What is no annotation of the page is shared with its first copy. -/
theorem shared_of_leads (recorded : Recorded sources history store) (left : first ∈ history)
    (right : second ∈ history) (repeats : first.Repeats history second) {id copy : ObjectId}
    (leads : first.Leads id) (common : id ∉ first.owned) (found : second.copy? id = some copy) :
    (id, copy) ∈ first.made := by
  obtain ⟨other, original, made⟩ := recorded.exists_made_of_leads left repeats leads
  have alike : id ∉ second.owned := by
    rwa [recorded.owned_eq left right repeats]
  rwa [recorded.shared_copy left right repeats.document common alike original found] at made

end Recorded

/-- Where the references that start from the second copy can lead. -/
inductive Appending.Trace (first second : Appending) : ObjectId → Prop
  | self : Trace first second second.target
  | own {id copy : ObjectId} : first.Leads id → id ∈ first.owned → (id, copy) ∈ second.made →
      Trace first second copy
  | shared {via id copy : ObjectId} : first.Leads via → via ∉ first.owned →
      first.source.Leads [via] id → (id, copy) ∈ first.made → Trace first second copy
  | back {via : ObjectId} : first.Leads via → via ∉ first.owned → first.LeadsBack via →
      Trace first second first.target

namespace Recorded

theorem trace_second (recorded : Recorded sources history store) (left : first ∈ history)
    (right : second ∈ history) (repeats : first.Repeats history second) {id target : ObjectId}
    (leads : ∀ object, first.source.Copyable id object → first.Leads id)
    (refers : target ∈ (second.scope.meaning second.copies id).references) :
    first.Trace second target := by
  rcases CopyScope.mem_references_meaning.1 refers with ⟨_, rfl⟩ | ⟨_, _, found⟩
  · exact .self
  obtain ⟨object, original⟩ := recorded.copyable right found
  rw [recorded.same_source left right repeats.document] at original
  by_cases mine : id ∈ first.owned
  · have made := recorded.made_of_owned left right repeats mine found
    exact .own (leads object original) mine made
  · have made := recorded.shared_of_leads left right repeats (leads object original) mine found
    exact .shared (leads object original) mine (.start (by simp) original) made

theorem trace_first (recorded : Recorded sources history store) (left : first ∈ history)
    (repeats : first.Repeats history second) {via id target : ObjectId} {object : Object}
    (leads : first.Leads via) (common : via ∉ first.owned)
    (inside : first.source.Leads [via] id) (original : first.source.Copyable id object)
    {next : ObjectId} (member : next ∈ object.references)
    (refers : target ∈ (first.scope.meaning first.copies next).references) :
    first.Trace second target := by
  rcases CopyScope.mem_references_meaning.1 refers with ⟨rfl, rfl⟩ | ⟨_, _, found⟩
  · exact .back leads common ⟨id, object, inside, original, member⟩
  · obtain ⟨other, further⟩ := recorded.copyable left found
    exact .shared leads common (.step inside original member further)
      (recorded.made_of_copy? left repeats found)

theorem trace (recorded : Recorded sources history store) (left : first ∈ history)
    (right : second ∈ history) (repeats : first.Repeats history second) {id : ObjectId}
    (meets : store.output.Meets second.target id) : first.Trace second id := by
  have source := recorded.same_source left right repeats.document
  induction meets with
  | own page inside =>
    rw [recorded.page second right, Option.some.injEq] at page
    rw [Appending.pageCopy_entries page] at inside
    obtain ⟨id, listed, refers⟩ := (Object.mem_entryReferences_replaceEntries _ _).1 inside
    rw [recorded.entries_eq left right repeats] at listed
    exact recorded.trace_second left right repeats (fun _ original => .start listed original) refers
  | beyond _ noPage found inside ih =>
    cases ih with
    | self => exact absurd (recorded.mem_pages_iff.2 ⟨second, right, rfl⟩) noPage
    | back => exact absurd (recorded.mem_pages_iff.2 ⟨first, left, rfl⟩) noPage
    | @own id _ leads _ made =>
      obtain ⟨object, original⟩ := (recorded.valid second right).1.tracked.copyable _ made
      rw [recorded.object second right _ _ made, Option.some.injEq,
        Appending.objectCopy_eq original] at found
      subst found
      obtain ⟨next, listed, refers⟩ := (Object.mem_references_replace _ _).1 inside
      have here : first.source.Copyable id object := by
        rw [← source]
        exact original
      exact recorded.trace_second left right repeats
        (fun _ further => .step leads here listed further) refers
    | shared leads common path made =>
      obtain ⟨object, original⟩ := (recorded.valid first left).1.tracked.copyable _ made
      rw [recorded.object first left _ _ made, Option.some.injEq,
        Appending.objectCopy_eq original] at found
      subst found
      obtain ⟨id, listed, refers⟩ := (Object.mem_references_replace _ _).1 inside
      exact recorded.trace_first left repeats leads common path original listed refers

/-- Each object that the page leads to is met from the second copy, as a copy of its own or as one
that the first copy shares. -/
theorem exists_met (recorded : Recorded sources history store) (left : first ∈ history)
    (right : second ∈ history) (repeats : first.Repeats history second) {id : ObjectId}
    (leads : first.Leads id) : ∃ copy, store.output.Meets second.target copy ∧
      (id ∈ first.owned ∧ (id, copy) ∈ second.made ∨ (id, copy) ∈ first.made) := by
  have source := recorded.same_source left right repeats.document
  have valid := (recorded.valid second right).1
  have placed {id copy : ObjectId} (leads : first.Leads id) (found : second.copy? id = some copy) :
      id ∈ first.owned ∧ (id, copy) ∈ second.made ∨ (id, copy) ∈ first.made := by
    by_cases mine : id ∈ first.owned
    · exact .inl ⟨mine, recorded.made_of_owned left right repeats mine found⟩
    · exact .inr (recorded.shared_of_leads left right repeats leads mine found)
  induction leads with
  | start inside original =>
    rw [← recorded.entries_eq left right repeats] at inside
    have here : second.source.Copyable _ _ := source ▸ original
    obtain ⟨copy, found⟩ := valid.exists_copy_of_entries inside here
    refine ⟨copy, recorded.meets_own right inside (recorded.refers_of_copy? right found), ?_⟩
    rw [recorded.entries_eq left right repeats] at inside
    exact placed (.start inside original) found
  | step leads via inside original ih =>
    have lead := Source.Leads.step leads via inside original
    obtain ⟨copy, meets, ⟨mine, made⟩ | made⟩ := ih
    · have there : second.source.Copyable _ _ := source ▸ via
      have here : second.source.Copyable _ _ := source ▸ original
      obtain ⟨next, found⟩ := valid.exists_copy_of_object made there inside here
      exact ⟨next, recorded.meets_beyond right made there meets inside
        (recorded.refers_of_copy? right found), placed lead found⟩
    · obtain ⟨next, found, made'⟩ := recorded.exists_made_of_leads left repeats lead
      exact ⟨next, recorded.meets_beyond left made via meets inside
        (recorded.refers_of_copy? left found), .inr made'⟩

theorem met_of_shared (recorded : Recorded sources history store) (left : first ∈ history)
    (repeats : first.Repeats history second) {via id copy : ObjectId}
    (made : (via, copy) ∈ first.made) (meets : store.output.Meets second.target copy)
    (leads : first.source.Leads [via] id) :
    ∃ copy, store.output.Meets second.target copy ∧ (id, copy) ∈ first.made := by
  have valid := (recorded.valid first left).1
  induction leads with
  | start inside _ =>
    cases List.mem_singleton.1 inside
    exact ⟨copy, meets, made⟩
  | step _ via inside original ih =>
    obtain ⟨copy, meets, made⟩ := ih
    obtain ⟨next, found⟩ := valid.exists_copy_of_object made via inside original
    exact ⟨next, recorded.meets_beyond left made via meets inside
      (recorded.refers_of_copy? left found), recorded.made_of_copy? left repeats found⟩

/-- The second copy of a page leads to the first exactly if something that is no annotation of the
page and that the page leads to leads back to it. -/
theorem repeated_meets_iff (recorded : Recorded sources history store) (left : first ∈ history)
    (right : second ∈ history) (repeats : first.Repeats history second) :
    store.output.Meets second.target first.target ↔
      ∃ id, first.Leads id ∧ id ∉ first.owned ∧ first.LeadsBack id := by
  constructor
  · intro meets
    have apart {id copy : ObjectId} {call : Appending} (member : call ∈ history)
        (made : (id, copy) ∈ call.made) : first.target ≠ copy :=
      fun same => recorded.made_ne_target member left made same.symm
    generalize target : first.target = id at meets
    cases recorded.trace left right repeats meets with
    | self => exact absurd (recorded.target_injective left right target).symm repeats.apart
    | own _ _ made => exact absurd target (apart right made)
    | shared _ _ _ made => exact absurd target (apart left made)
    | back leads common back => exact ⟨_, leads, common, back⟩
  · rintro ⟨id, leads, common, last, object, path, original, back⟩
    obtain ⟨copy, meets, made⟩ := recorded.exists_met left right repeats leads
    have shared : (id, copy) ∈ first.made := made.resolve_left fun own => common own.1
    obtain ⟨lastCopy, there, madeLast⟩ := recorded.met_of_shared left repeats shared meets path
    exact recorded.meets_beyond left madeLast original there back first.refers_self

end Recorded

/-- The output of any assembly: exactly where an object is shared that refers back to the page
that it was copied for does a page lead to another one, and then to an earlier one of the same
document. When the first page of a document is appended again, such an object is one that is no
annotation of the page and leads back to it. -/
theorem assembled_pages_independent_iff {batches : List (List PageReference)}
    {settings : Settings}
    (done : Store.assembleAll batches (Store.ofSources sources settings) = .ok store) :
    ∃ history, Assembled (Store.ofSources sources settings) history store ∧
      List.Forall₂ (Appending.Answers sources) batches.flatten history ∧
      store.output.pages = history.map Appending.target ∧
      ∀ call ∈ history,
        ((∀ id ∈ store.output.pages, store.output.Meets call.target id → id = call.target) ↔
          ∀ maker ∈ history, maker ≠ call → ∀ id copy object, (id, copy) ∈ maker.made →
            maker.source.Copyable id object → store.output.Meets call.target copy →
            maker.page.id ∉ object.references) ∧
        (∀ other ∈ history, store.output.Meets call.target other.target →
          other.document = call.document ∧ other.target.number ≤ call.target.number) ∧
        ∀ first ∈ history, first.Repeats history call →
          (store.output.Meets call.target first.target ↔
            ∃ id, first.Leads id ∧ id ∉ first.owned ∧ first.LeadsBack id) := by
  obtain ⟨history, assembled, answers⟩ := Assembled.start.assembleAll done
  rw [List.nil_append] at assembled
  rw [Store.sources_ofSources] at answers
  have recorded := assembled.recorded
  refine ⟨history, assembled, answers, recorded.pages, ?_⟩
  intro call member
  refine ⟨recorded.independent_iff member, ?_, ?_⟩
  · exact fun other present meets => recorded.met_page member present meets
  · exact fun first left repeats => recorded.repeated_meets_iff left member repeats

theorem form_twice_history : ∃ store history,
    Store.assembleAll [[⟨0, 0⟩, ⟨0, 0⟩]] (Store.ofSources [form] {}) = .ok store ∧
      List.Forall₂ (Appending.Answers [form]) [⟨0, 0⟩, ⟨0, 0⟩] history ∧
      store.output.pages = history.map Appending.target ∧
      ∀ call ∈ history, ∀ other ∈ history, store.output.Meets call.target other.target →
        other.document = call.document ∧ other.target.number ≤ call.target.number := by
  have done : Store.assembleAll [[⟨0, 0⟩, ⟨0, 0⟩]] (Store.ofSources [form] {}) = .ok _ := rfl
  obtain ⟨history, _, answers, pages, independent⟩ := assembled_pages_independent_iff done
  exact ⟨_, history, done, answers, pages, fun call member => (independent call member).2.1⟩

def formPage : Page := ⟨⟨3, 0⟩, [(Name.type, .name Name.page),
  (Name.annots, .array [.reference ⟨4, 0⟩]), (Name.parent, .reference ⟨2, 0⟩)]⟩

def formFirst : Appending := ⟨Store.ofSources [form] {}, 0, ⟨form, ∅⟩, formPage⟩

def formSecond : Appending :=
  ⟨formFirst.result, 0, ⟨form, formFirst.copies.shared⟩, formPage⟩

theorem formFirst_copies : formFirst.copies =
    ⟨.ofList [(⟨5, 0⟩, ⟨5, 0⟩)], .ofList [(⟨4, 0⟩, ⟨4, 0⟩)], 6,
      [(⟨5, 0⟩, ⟨5, 0⟩), (⟨4, 0⟩, ⟨4, 0⟩)]⟩ :=
  CopyScope.discover_of_explore 5 rfl

theorem formFirst_output : formFirst.result.output = { Output.empty {} with
    table := ((Output.empty {}).table.insertAll
      (formFirst.scope.objectCopies formFirst.copies)).insert ⟨3, 0⟩ formFirst.pageCopy
    next := formFirst.copies.next
    pages := [⟨3, 0⟩] } := rfl

theorem formSecond_target : formSecond.target = ⟨6, 0⟩ :=
  congrArg (fun copies : Copies => (⟨copies.next, 0⟩ : ObjectId)) formFirst_copies

theorem formSecond_copies : formSecond.copies =
    ⟨.ofList [(⟨5, 0⟩, ⟨5, 0⟩)], .ofList [(⟨4, 0⟩, ⟨7, 0⟩)], 8, [(⟨4, 0⟩, ⟨7, 0⟩)]⟩ := by
  have scope : formSecond.scope = ⟨form, formPage, formSecond.target⟩ := rfl
  have start : formSecond.copies = formSecond.scope.discover
    ⟨formFirst.copies.shared, ∅, formSecond.target.number + 1, []⟩ [⟨4, 0⟩] := rfl
  rw [start, scope, formSecond_target, formFirst_copies]
  exact CopyScope.discover_of_explore 5 rfl

/-- What appending the page twice leaves in the output: the second widget shares the field, which
knows the first widget only. -/
theorem formSecond_table : formSecond.result.output.table = .ofList [
    (⟨1, 0⟩, .dictionary (Output.treeEntries [])),
    (⟨2, 0⟩, .dictionary [(Name.type, .name Name.catalog), (Name.pages, .reference ⟨1, 0⟩)]),
    (⟨3, 0⟩, .dictionary [(Name.type, .name Name.page), (Name.annots, .array [.reference ⟨4, 0⟩]),
      (Name.parent, .reference ⟨1, 0⟩)]),
    (⟨4, 0⟩, .dictionary [(bytes "P", .reference ⟨3, 0⟩), (Name.parent, .reference ⟨5, 0⟩)]),
    (⟨5, 0⟩, .dictionary [(Name.kids, .array [.reference ⟨4, 0⟩])]),
    (⟨6, 0⟩, .dictionary [(Name.type, .name Name.page), (Name.annots, .array [.reference ⟨7, 0⟩]),
      (Name.parent, .reference ⟨1, 0⟩)]),
    (⟨7, 0⟩, .dictionary [(bytes "P", .reference ⟨6, 0⟩), (Name.parent, .reference ⟨5, 0⟩)])] := by
  have scope : formSecond.scope = ⟨form, formPage, formSecond.target⟩ := rfl
  have table : formSecond.result.output.table =
      ((((Output.empty {}).table.insertAll (formFirst.scope.objectCopies formFirst.copies)).insert
        ⟨3, 0⟩ (formFirst.scope.pageCopy formFirst.copies ⟨1, 0⟩)).insertAll
        (formSecond.scope.objectCopies formSecond.copies)).insert
        formSecond.target (formSecond.scope.pageCopy formSecond.copies ⟨1, 0⟩) := rfl
  rw [table, scope, formSecond_target, formFirst_copies, formSecond_copies]
  rfl

theorem form_twice_dependent :
    Store.assembleAll [[⟨0, 0⟩, ⟨0, 0⟩]] (Store.ofSources [form] {}) = .ok formSecond.result ∧
      formSecond.result.output.pages = [(⟨3, 0⟩ : ObjectId), ⟨6, 0⟩] ∧
      formSecond.result.output.Meets ⟨6, 0⟩ ⟨3, 0⟩ := by
  have pages : formSecond.result.output.pages = [(⟨3, 0⟩ : ObjectId), ⟨6, 0⟩] := by
    have listed : formSecond.result.output.pages = [⟨3, 0⟩, formSecond.target] := rfl
    rw [listed, formSecond_target]
  have beyond {via id : ObjectId} (meets : formSecond.result.output.Meets ⟨6, 0⟩ via)
      {object : Object} (apart : via ∉ [(⟨3, 0⟩ : ObjectId), ⟨6, 0⟩])
      (found : formSecond.result.output.table.get? via = some object)
      (inside : id ∈ object.references) : formSecond.result.output.Meets ⟨6, 0⟩ id :=
    .beyond meets (pages ▸ apart) found inside
  rw [formSecond_table] at beyond
  have widget : formSecond.result.output.Meets ⟨6, 0⟩ ⟨7, 0⟩ :=
    .own (by rw [formSecond_table]; rfl) (by decide)
  have field : formSecond.result.output.Meets ⟨6, 0⟩ ⟨5, 0⟩ :=
    beyond widget (by decide) rfl (by decide)
  have other : formSecond.result.output.Meets ⟨6, 0⟩ ⟨4, 0⟩ :=
    beyond field (by decide) rfl (by decide)
  exact ⟨rfl, pages, beyond other (by decide) rfl (by decide)⟩

end PdfAssembly
