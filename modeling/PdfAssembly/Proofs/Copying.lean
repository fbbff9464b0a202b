import Mathlib.Data.List.Nodup
import PdfAssembly.Proofs.Assembly
import PdfAssembly.Proofs.Attributes
import PdfAssembly.Proofs.PageTree
import PdfAssembly.Proofs.Translation

/-! Appending a page translates it. Its own and inherited entries and every object that they lead
to arrive in the output unchanged but for their references, which lead to the copies of what they
led to before, or nowhere where a page or the page tree would be dragged along. -/
namespace PdfAssembly

open Pdf

namespace Pdf.Object

/-- A dictionary refers to what its values refer to. -/
theorem mem_entryReferences {entries : Dictionary} {key : Bytes} {value : Object}
    (found : entries.get? key = some value) {id : ObjectId} (refers : id ∈ value.references) :
    id ∈ entryReferences entries := by
  induction entries with
  | nil => cases found
  | cons entry rest ih =>
    obtain ⟨name, first⟩ := entry
    rw [entryReferences, List.mem_append]
    by_cases same : name = key
    · simp only [Dictionary.get?, Entries.find?, if_pos same, Option.some.injEq] at found
      exact .inl (found ▸ refers)
    · simp only [Dictionary.get?, Entries.find?, if_neg same] at found
      exact .inr (ih found)

theorem entryReferences_append (left right : List (Bytes × Object)) :
    entryReferences (left ++ right) = entryReferences left ++ entryReferences right := by
  induction left with
  | nil => rfl
  | cons entry rest ih => simp [entryReferences, ih]

theorem replaceEntries_append (meaning : ObjectId → Object) (left right : List (Bytes × Object)) :
    replaceEntries meaning (left ++ right) =
      replaceEntries meaning left ++ replaceEntries meaning right := by
  induction left with
  | nil => rfl
  | cons entry rest ih => simp [replaceEntries, ih]

theorem keys_replaceEntries (meaning : ObjectId → Object) (entries : List (Bytes × Object)) :
    (replaceEntries meaning entries).map (·.1) = entries.map (·.1) := by
  induction entries with
  | nil => rfl
  | cons entry rest ih => simp [replaceEntries, ih]

end Pdf.Object

namespace Appending

/-- What a reference in the document becomes in the copies that a call makes. -/
inductive Means (call : Appending) : ObjectId → Object → Prop
  | self : Means call call.page.id (.reference call.target)
  | page {id : ObjectId} : id ≠ call.page.id → call.source.isPage id = true → Means call id .null
  | missing {id : ObjectId} : call.source.isPage id = false →
      call.source.table.resolve id = none → Means call id .null
  | tree {id : ObjectId} : call.source.isPage id = false →
      call.source.table.resolve id = some object → object.isPageTreeNode = true →
      Means call id .null
  | copy {id copy : ObjectId} : call.source.Copyable id object → call.copy? id = some copy →
      Means call id (.reference copy)

/-- The dictionary that a new page has: the page's own entries but for its parent, then those that
the nodes above it supply, all of them translated, and the pages node of the output as parent. -/
inductive Flattens (call : Appending) : Dictionary → Prop
  | intro {own supplied inherited : Dictionary} :
      TranslatesEntries call.Means (call.page.entries.filter (·.1 ≠ Name.parent)) own →
      Page.Supplies call.source.table call.page.entries
        [Name.resources, Name.mediaBox, Name.cropBox, Name.rotate] supplied →
      TranslatesEntries call.Means supplied inherited →
      Flattens call (own ++ inherited ++ [(Name.parent, .reference Output.pagesNode)])

/-- The page and the objects that a call has added to the output, as they stand in a table. -/
structure Faithful (call : Appending) (history : List Appending) (table : Table) : Prop where
  read : call.page.Read call.source.table
  /-- The call adds the page and the copies made for it, and nothing else. -/
  added : ∀ id, (call.result.output.table.get? id).isSome ↔
    (call.store.output.table.get? id).isSome ∨ id = call.target ∨ id ∈ call.made.map (·.2)
  new : ∀ id, id = call.target ∨ id ∈ call.made.map (·.2) →
    call.store.output.table.get? id = none
  page : ∃ entries, table.get? call.target = some (.dictionary entries) ∧ call.Flattens entries
  object : ∀ id copy, (id, copy) ∈ call.made → ∃ original translation,
    call.source.Copyable id original ∧ table.get? copy = some translation ∧
    Translates call.Means original translation
  original : ∀ id other copy, (id, copy) ∈ call.made → (other, copy) ∈ call.made → id = other
  /-- A copy that the call refers to was made from the same document, for this page alone if the
  original belongs to the page, and otherwise perhaps for an earlier page. -/
  maker : ∀ id copy, call.copy? id = some copy → ∃ maker ∈ history,
    maker.document = call.document ∧ maker.target.number ≤ call.target.number ∧
    (id, copy) ∈ maker.made ∧ (id ∈ call.owned → maker = call) ∧
    (id ∉ call.owned → id ∉ maker.owned)
  /-- Where an original belongs to neither page, two pages of a document share its copy. -/
  shared : ∀ other ∈ history, other.document = call.document → ∀ id copy otherCopy,
    id ∉ call.owned → id ∉ other.owned → call.copy? id = some copy →
    other.copy? id = some otherCopy → copy = otherCopy
  /-- To the page belong the annotations that it lists, and their array if it is an object. -/
  owned : ∀ id, id ∈ call.owned ↔ call.page.entries.get? Name.annots = some (.reference id) ∨
    ∃ items, Page.Lists call.source.table call.page.entries items ∧ .reference id ∈ items
  /-- Pages that are not dragged along are those that loading listed. -/
  listed : ∀ id, call.source.isPage id = true ↔ ∃ page ∈ call.source.pages, page.id = id
  /-- Nodes of a page tree that are not dragged along are dictionaries of this type. -/
  node : ∀ object : Object, object.isPageTreeNode = true ↔ ∃ entries,
    object = .dictionary entries ∧ Dictionary.get? entries Name.type = some (.name Name.pages)

end Appending

variable {sources : List Source} {history : List Appending} {store : Store} {call : Appending}

/-- A copy that a call refers to goes back to the call itself or to an earlier one. -/
theorem Recorded.maker (recorded : Recorded sources history store) (member : call ∈ history)
    {id copy : ObjectId} (found : call.copy? id = some copy) :
    ∃ maker ∈ history, maker.document = call.document ∧
      maker.target.number ≤ call.target.number ∧ (id, copy) ∈ maker.made ∧
      (id ∈ call.owned → maker = call) ∧ (id ∉ call.owned → id ∉ maker.owned) := by
  have tracked := (recorded.valid call member).1.tracked
  rcases (tracked.copy id copy).1 found with made | ⟨common, before⟩
  · exact ⟨call, member, rfl, Nat.le_refl _, made, fun _ => rfl, fun absent => absent⟩
  · obtain ⟨earlier, inside, document, ended, absent, made⟩ :=
      recorded.reused call member id copy before
    have started := (recorded.valid earlier inside).1.target_lt
    exact ⟨earlier, inside, document, by omega, made, fun mine => absurd mine common,
      fun _ => absent⟩

theorem Recorded.same_source (recorded : Recorded sources history store) {other : Appending}
    (left : call ∈ history) (right : other ∈ history) (same : other.document = call.document) :
    other.source = call.source := by
  have first := (recorded.valid call left).2
  have second := (recorded.valid other right).2
  rw [same, first] at second
  exact (Option.some.inj second).symm

/-- Only what is to be copied has a copy. -/
theorem Recorded.copyable (recorded : Recorded sources history store) (member : call ∈ history)
    {id copy : ObjectId} (found : call.copy? id = some copy) :
    ∃ object, call.source.Copyable id object := by
  obtain ⟨maker, inside, document, _, made, _⟩ := recorded.maker member found
  rw [← recorded.same_source member inside document]
  exact (recorded.valid maker inside).1.tracked.copyable _ made

theorem Recorded.exists_input (recorded : Recorded sources history store)
    (member : call ∈ history) : ∃ input, store.inputs[call.document]? = some input := by
  have source := (recorded.valid call member).2
  rw [← recorded.inputs, List.getElem?_map, Option.map_eq_some_iff] at source
  exact ⟨_, source.choose_spec.1⟩

/-- The store still holds the one copy that all pages of the document share. -/
theorem Recorded.get?_copies (recorded : Recorded sources history store) (member : call ∈ history)
    {input : Input} (present : store.inputs[call.document]? = some input) {id copy : ObjectId}
    (absent : id ∉ call.owned) (found : call.copy? id = some copy) :
    input.copies.get? id = some copy := by
  obtain ⟨maker, inside, document, _, made, _, absent'⟩ := recorded.maker member found
  exact (recorded.shared _ _ present id copy).2 ⟨maker, inside, document, absent' absent, made⟩

theorem Recorded.shared_copy (recorded : Recorded sources history store) {other : Appending}
    (left : call ∈ history) (right : other ∈ history) (same : other.document = call.document)
    {id copy otherCopy : ObjectId} (mine : id ∉ call.owned) (yours : id ∉ other.owned)
    (found : call.copy? id = some copy) (otherFound : other.copy? id = some otherCopy) :
    copy = otherCopy := by
  obtain ⟨input, present⟩ := recorded.exists_input left
  have first := recorded.get?_copies left present mine found
  have second := recorded.get?_copies right (same ▸ present) yours otherFound
  exact Option.some.inj (first.symm.trans second)

/-- Where nothing that is to be copied is left without a copy, and nothing else has one, replacing
a reference gives what it means. -/
theorem Appending.means {id : ObjectId} (settled : call.scope.Settled call.copies id)
    (original : ∀ copy, call.copy? id = some copy → ∃ object, call.source.Copyable id object) :
    call.Means id (call.scope.meaning call.copies id) := by
  simp only [CopyScope.meaning]
  split
  · rename_i same
    subst same
    exact .self
  rename_i other
  split
  · rename_i listed
    exact .page other listed
  rename_i unlisted
  rw [Bool.not_eq_true] at unlisted
  split
  · rename_i copy found
    obtain ⟨object, copyable⟩ := original copy found
    exact .copy copyable found
  · rename_i absent
    cases resolved : call.source.table.resolve id with
    | none => exact .missing unlisted resolved
    | some object =>
      cases node : object.isPageTreeNode with
      | true => exact .tree unlisted resolved node
      | false =>
        have present := settled object ⟨unlisted, resolved, node⟩
        simp [absent] at present

theorem Appending.Valid.settled_entries (valid : call.Valid) {id : ObjectId}
    (inside : id ∈ Object.entryReferences call.entries) : call.scope.Settled call.copies id :=
  CopyScope.settled_pending valid.listed _ _ id inside

theorem Appending.Valid.settled_object (valid : call.Valid) {id copy : ObjectId}
    (made : (id, copy) ∈ call.made) {object : Object} (original : call.source.Copyable id object)
    {target : ObjectId} (inside : target ∈ object.references) :
    call.scope.Settled call.copies target :=
  CopyScope.settled_made valid.listed _ _ (id, copy) made (by simp) object original target inside

theorem Appending.Valid.exists_copy_of_entries (valid : call.Valid) {id : ObjectId}
    (inside : id ∈ Object.entryReferences call.entries) {object : Object}
    (original : call.source.Copyable id object) : ∃ copy, call.copy? id = some copy :=
  Option.isSome_iff_exists.1 (valid.settled_entries inside object original)

theorem Appending.Valid.exists_copy_of_object (valid : call.Valid) {id copy target : ObjectId}
    (made : (id, copy) ∈ call.made) {object other : Object}
    (original : call.source.Copyable id object) (inside : target ∈ object.references)
    (further : call.source.Copyable target other) : ∃ copy, call.copy? target = some copy :=
  Option.isSome_iff_exists.1 (valid.settled_object made original inside other further)

theorem Appending.pageCopy_eq (call : Appending) :
    call.pageCopy = .dictionary (Object.replaceEntries (call.scope.meaning call.copies)
      call.entries ++ [(Name.parent, .reference Output.pagesNode)]) := by
  have absent := Page.parent_notMem_flattened call.source.table call.page.entries
  rw [← Object.keys_replaceEntries (call.scope.meaning call.copies)] at absent
  exact congrArg Object.dictionary (Entries.put_of_notMem absent)

/-- The numbers of the page and of the copies made for it are free before. -/
theorem Recorded.get?_new (recorded : Recorded sources history call.store) (valid : call.Valid)
    {id : ObjectId} (new : id = call.target ∨ id ∈ call.made.map (·.2)) :
    call.store.output.table.get? id = none := by
  have above : call.store.output.next ≤ id.number := by
    rcases new with rfl | copy
    · exact Nat.le_refl _
    · obtain ⟨pair, inside, rfl⟩ := List.mem_map.1 copy
      exact Nat.le_of_lt (valid.made_number inside).1
  cases found : call.store.output.table.get? id with
  | none => rfl
  | some object =>
    have := (recorded.bounded id object found).2
    omega

/-- The copy of a page is the page, flattened and translated. -/
theorem Appending.Valid.flattens (valid : call.Valid)
    (originals : ∀ id copy, call.copy? id = some copy → ∃ object, call.source.Copyable id object) :
    ∃ entries, call.pageCopy = .dictionary entries ∧ call.Flattens entries := by
  have meant (id) (inside : id ∈ Object.entryReferences call.entries) :=
    means (valid.settled_entries inside) (originals id)
  have split : call.entries = call.page.entries.filter (·.1 ≠ Name.parent) ++
      Page.supplied call.source.table call.page.entries := Page.flattened_eq ..
  rw [split, Object.entryReferences_append] at meant
  refine ⟨_, call.pageCopy_eq, ?_⟩
  rw [split, Object.replaceEntries_append]
  apply Flattens.intro _ (Page.supplies_supplied ..)
  · apply Object.translates_replaceEntries
    exact fun id inside => meant id (List.mem_append_right _ inside)
  · apply Object.translates_replaceEntries
    exact fun id inside => meant id (List.mem_append_left _ inside)

theorem Recorded.flattened_page (recorded : Recorded sources history store)
    (member : call ∈ history) : ∃ entries,
      store.output.table.get? call.target = some (.dictionary entries) ∧
      call.Flattens entries := by
  obtain ⟨entries, same, flattens⟩ := (recorded.valid call member).1.flattens
    fun _ _ found => recorded.copyable member found
  exact ⟨entries, (recorded.page call member).trans (congrArg some same), flattens⟩

/-- A copy made for a page is its original, translated. -/
theorem Appending.Valid.translates_object (valid : call.Valid)
    (originals : ∀ id copy, call.copy? id = some copy → ∃ object, call.source.Copyable id object)
    {id copy : ObjectId} (made : (id, copy) ∈ call.made) :
    ∃ original, call.source.Copyable id original ∧
      Translates call.Means original (call.objectCopy id) := by
  obtain ⟨original, copyable⟩ := valid.tracked.copyable _ made
  have resolved : call.source.table.resolve id = some original := copyable.2.1
  refine ⟨original, copyable, ?_⟩
  rw [objectCopy, resolved, Option.getD_some]
  apply Object.translates_replace
  intro target inside
  exact means (valid.settled_object made copyable inside) (originals target)

theorem Recorded.translated_object (recorded : Recorded sources history store)
    (member : call ∈ history) {id copy : ObjectId} (made : (id, copy) ∈ call.made) :
    ∃ original translation, call.source.Copyable id original ∧
      store.output.table.get? copy = some translation ∧
      Translates call.Means original translation := by
  obtain ⟨original, copyable, translated⟩ := (recorded.valid call member).1.translates_object
    (fun _ _ found => recorded.copyable member found) made
  exact ⟨original, _, copyable, recorded.object call member id copy made, translated⟩

theorem Appending.Valid.original_unique (valid : call.Valid) {id other copy : ObjectId}
    (left : (id, copy) ∈ call.made) (right : (other, copy) ∈ call.made) : id = other := by
  have pairs := List.inj_on_of_nodup_map valid.nodup_copies left right rfl
  exact congrArg Prod.fst pairs

theorem Assembled.faithful {settings : Settings}
    (assembled : Assembled (Store.ofSources sources settings) history store)
    (loaded : ∀ source ∈ sources, source.Loaded) (member : call ∈ history) :
    call.Faithful history store.output.table := by
  have recorded := assembled.recorded
  have source := (recorded.valid call member).2
  obtain ⟨valid, earlier, before⟩ := assembled.before member
  constructor
  · exact (loaded _ (List.mem_of_getElem? source)).read valid.page
  · exact valid.isSome_get?_result
  · exact fun id new => before.recorded.get?_new valid new
  · exact recorded.flattened_page member
  · exact fun id copy made => recorded.translated_object member made
  · exact fun id other copy left right => valid.original_unique left right
  · exact fun id copy found => recorded.maker member found
  · intro other inside document id copy otherCopy mine yours found otherFound
    exact recorded.shared_copy member inside document mine yours found otherFound
  · exact fun _ => Page.mem_annotations_iff
  · exact fun _ => Source.isPage_eq_true_iff
  · exact fun _ => Object.isPageTreeNode_iff

/-- Assembling lists of references from a fresh store appends the pages that they name, one after
the other, and every one of these pages arrives faithfully. -/
theorem assembled_faithfully {batches : List (List PageReference)} {settings : Settings}
    (loaded : ∀ source ∈ sources, source.Loaded)
    (done : Store.assembleAll batches (Store.ofSources sources settings) = .ok store) :
    ∃ history, Assembled (Store.ofSources sources settings) history store ∧
      List.Forall₂ (Appending.Answers sources) batches.flatten history ∧
      store.output.pages = history.map Appending.target ∧
      ∀ call ∈ history, call.Faithful history store.output.table := by
  obtain ⟨history, assembled, answers⟩ := Assembled.start.assembleAll done
  rw [List.nil_append] at assembled
  rw [Store.sources_ofSources] at answers
  refine ⟨history, assembled, answers, assembled.recorded.pages, ?_⟩
  exact fun call member => assembled.faithful loaded member

/-- One page with one widget. The field of the widget leads back to the page. -/
def formTable : Table := OrderedMap.ofList [
  (⟨1, 0⟩, .dictionary [(Name.type, .name Name.catalog), (Name.pages, .reference ⟨2, 0⟩)]),
  (⟨2, 0⟩, .dictionary [(Name.type, .name Name.pages), (Name.kids, .array [.reference ⟨3, 0⟩])]),
  (⟨3, 0⟩, .dictionary [(Name.type, .name Name.page), (Name.annots, .array [.reference ⟨4, 0⟩]),
    (Name.parent, .reference ⟨2, 0⟩)]),
  (⟨4, 0⟩, .dictionary [(bytes "P", .reference ⟨3, 0⟩), (Name.parent, .reference ⟨5, 0⟩)]),
  (⟨5, 0⟩, .dictionary [(Name.kids, .array [.reference ⟨4, 0⟩])])]

def formDocument : Document := ⟨"1.7", some (.reference ⟨1, 0⟩), none, none, formTable⟩

def form : Source := ⟨"form.pdf", formTable, formDocument.pages⟩

theorem form_loaded : ∀ source ∈ [form], source.Loaded := by
  intro source member
  cases List.mem_singleton.1 member
  exact ⟨"form.pdf", .document formDocument, rfl⟩

/-- A page below two nodes of which each is the parent of the other. -/
def circularTable : Table := OrderedMap.ofList [
  (⟨1, 0⟩, .dictionary [(Name.type, .name Name.catalog), (Name.pages, .reference ⟨2, 0⟩)]),
  (⟨2, 0⟩, .dictionary [(Name.type, .name Name.pages), (Name.kids, .array [.reference ⟨3, 0⟩]),
    (Name.rotate, .integer 90), (Name.mediaBox, .array [.integer 0, .integer 0, .integer 612,
      .integer 792]), (Name.parent, .reference ⟨3, 0⟩)]),
  (⟨3, 0⟩, .dictionary [(Name.type, .name Name.pages), (Name.kids, .array [.reference ⟨4, 0⟩]),
    (Name.parent, .reference ⟨2, 0⟩)]),
  (⟨4, 0⟩, .dictionary [(Name.type, .name Name.page), (Name.rotate, .null),
    (Name.parent, .reference ⟨3, 0⟩)])]

def circularDocument : Document := ⟨"1.7", some (.reference ⟨1, 0⟩), none, none, circularTable⟩

def circular : Source := ⟨"circular.pdf", circularTable, circularDocument.pages⟩

theorem circular_loaded : ∀ source ∈ [circular], source.Loaded := by
  intro source member
  cases List.mem_singleton.1 member
  exact ⟨"circular.pdf", .document circularDocument, rfl⟩

def circularPage : Page := ⟨⟨4, 0⟩, [(Name.type, .name Name.page), (Name.rotate, .null),
  (Name.parent, .reference ⟨3, 0⟩)]⟩

/-- One page of a form, and another page twice, in two steps. The other page has its box from two
levels up, and both of its copies have it for themselves. -/
theorem circular_twice_faithful : ∃ store history,
    Store.assembleAll [[⟨0, 0⟩, ⟨1, 0⟩], [⟨1, 0⟩]] (Store.ofSources [form, circular] {}) =
      .ok store ∧
    List.Forall₂ (Appending.Answers [form, circular]) [⟨0, 0⟩, ⟨1, 0⟩, ⟨1, 0⟩] history ∧
    (∀ call ∈ history, call.Faithful history store.output.table) ∧
    ∀ call ∈ history, call.document = 1 →
      store.output.table.get? call.target = some (.dictionary
        [(Name.type, .name Name.page), (Name.rotate, .null),
          (Name.mediaBox, .array [.integer 0, .integer 0, .integer 612, .integer 792]),
          (Name.parent, .reference Output.pagesNode)]) := by
  have loaded : ∀ source ∈ [form, circular], source.Loaded :=
    List.forall_mem_append.2 ⟨form_loaded, circular_loaded⟩
  have done : Store.assembleAll [[⟨0, 0⟩, ⟨1, 0⟩], [⟨1, 0⟩]]
      (Store.ofSources [form, circular] {}) = .ok _ := rfl
  obtain ⟨history, assembled, answers, _, faithful⟩ := assembled_faithfully loaded done
  refine ⟨_, history, done, answers, faithful, fun call member document => ?_⟩
  obtain ⟨valid, named⟩ := assembled.recorded.valid call member
  rw [document] at named
  have source : call.source = circular := (Option.some.inj named).symm
  have page : call.page = circularPage := by
    have listed := valid.page
    rw [source] at listed
    exact List.mem_singleton.1 listed
  rw [assembled.recorded.page call member, call.pageCopy_eq, Appending.entries, source, page]
  rfl

end PdfAssembly
