import PdfAssembly.Proofs.Reach
import PdfAssembly.Proofs.Sharing

/-! Annotations belong to one page. However often a page is appended and in whatever order the
objects that it leads to are met, each time there are new copies of its annotations, which refer to
the new page and to each other. -/
namespace PdfAssembly

open Pdf

namespace Pdf

theorem Table.resolve_of_get? {table : Table} {id : ObjectId} {object : Object}
    (found : table.get? id = some object) (direct : object.asReference? = none) :
    table.resolve id = some object := by
  unfold resolve follow
  rw [found]
  cases object <;> simp_all [Object.asReference?]

theorem Object.mem_itemReferences {items : List Object} {id : ObjectId}
    (member : .reference id ∈ items) : id ∈ itemReferences items := by
  induction items with
  | nil => simp at member
  | cons item rest ih =>
    rw [itemReferences, List.mem_append]
    rcases List.mem_cons.1 member with rfl | later
    · exact .inl (List.mem_singleton.2 rfl)
    · exact .inr (ih later)

/-- Items are translated one by one. -/
theorem TranslatesItems.forall₂ {means : ObjectId → Object → Prop} {items copies : List Object}
    (translated : TranslatesItems means items copies) :
    List.Forall₂ (Translates means) items copies := by
  induction items generalizing copies with
  | nil =>
    cases translated
    exact .nil
  | cons item rest ih =>
    obtain ⟨⟩ | ⟨first, others⟩ := translated
    exact .cons first (ih others)

end Pdf

namespace Appending

variable {call : Appending}

/-- An annotation of the page, or the array of them where it is an object, if it is to be copied. -/
inductive Annot (call : Appending) (id : ObjectId) : Prop
  | array : call.page.entries.get? Name.annots = some (.reference id) →
      call.source.Copyable id object → Annot call id
  | item : Page.Lists call.source.table call.page.entries items → .reference id ∈ items →
      call.source.Copyable id object → Annot call id

theorem annot_iff {id : ObjectId} :
    call.Annot id ↔ id ∈ call.owned ∧ ∃ object, call.source.Copyable id object := by
  have owned : id ∈ call.owned ↔ _ := Page.mem_annotations_iff
  rw [owned]
  constructor
  · rintro (⟨entry, original⟩ | ⟨lists, member, original⟩)
    · exact ⟨.inl entry, _, original⟩
    · exact ⟨.inr ⟨_, lists, member⟩, _, original⟩
  · rintro ⟨entry | ⟨items, lists, member⟩, object, original⟩
    · exact .array entry original
    · exact .item lists member original

structure Annotated (call : Appending) (history : List Appending) (table : Table) : Prop where
  /-- Each of them is copied once, to an object that was not there before. -/
  copied : ∀ id, call.Annot id → ∃ copy, (id, copy) ∈ call.made ∧
    call.store.output.table.get? copy = none ∧ ∀ other, (id, other) ∈ call.made → other = copy
  /-- Nothing else has this copy, neither here nor when another page is appended. -/
  alone : ∀ id copy, call.Annot id → (id, copy) ∈ call.made → ∀ other ∈ history,
    other.target ≠ copy ∧ ∀ otherId, (otherId, copy) ∈ other.made → other = call ∧ otherId = id
  /-- The copy of the page lists the copies of what the page lists, in this order. -/
  listed : ∀ items, Page.Lists call.source.table call.page.entries items → ∃ entries copies,
    table.get? call.target = some (.dictionary entries) ∧ Page.Lists table entries copies ∧
    List.Forall₂ (Translates call.Means) items copies ∧
    ∀ id copy, call.Annot id → (id, copy) ∈ call.made → ∀ position : Nat,
      items[position]? = some (.reference id) ↔ copies[position]? = some (.reference copy)
  /-- At any depth, the copies differ from the originals in nothing but their references. -/
  wired : ∀ id copy, call.Annot id → (id, copy) ∈ call.made → ∃ original translation,
    call.source.Copyable id original ∧ table.get? copy = some translation ∧
    Translates call.Means original translation
  /-- References to the page, and no others, become references to its copy. -/
  page : ∀ id object, call.Means id object →
    (id = call.page.id ↔ object = .reference call.target)
  /-- References to an annotation, and no others, become references to its copy made here. -/
  annot : ∀ id copy, call.Annot id → (id, copy) ∈ call.made → ∀ other object,
    call.Means other object → (other = id ↔ object = .reference copy)

end Appending

variable {sources : List Source} {history : List Appending} {store : Store} {call : Appending}

/-- Loading takes no array for a page. -/
theorem Pdf.Source.Loaded.copyable_array {source : Source} (loaded : source.Loaded) {id : ObjectId}
    {items : List Object} (resolved : source.table.resolve id = some (.array items)) :
    source.Copyable id (.array items) := by
  refine ⟨?_, resolved, rfl⟩
  cases listed : source.isPage id with
  | false => rfl
  | true =>
    obtain ⟨entries, other⟩ := loaded.resolve_listed listed
    cases resolved.symm.trans other

namespace Appending.Valid

/-- A reference to what is copied becomes a reference to the copy. -/
theorem means_copy (valid : call.Valid) {id copy : ObjectId} {object original : Object}
    (copyable : call.source.Copyable id original) (found : call.copy? id = some copy)
    (means : call.Means id object) : object = .reference copy := by
  obtain ⟨unlisted, resolved, noNode⟩ := copyable
  cases means with
  | self => exact absurd (valid.listed.symm.trans unlisted) (by decide)
  | page _ listed => exact absurd (listed.symm.trans unlisted) (by decide)
  | missing _ absent => cases absent.symm.trans resolved
  | tree _ same node =>
    cases same.symm.trans resolved
    exact absurd (node.symm.trans noNode) (by decide)
  | copy _ again => exact congrArg Object.reference (Option.some.inj (again.symm.trans found))

theorem made_of_owned (valid : call.Valid) {id copy : ObjectId} (mine : id ∈ call.owned)
    (found : call.copy? id = some copy) : (id, copy) ∈ call.made :=
  ((valid.tracked.copy id copy).1 found).resolve_right fun shared => shared.1 mine

/-- The page's array of annotations is copied if it is an object. -/
theorem exists_copy_of_array (valid : call.Valid) {id : ObjectId} {object : Object}
    (entry : call.page.entries.get? Name.annots = some (.reference id))
    (original : call.source.Copyable id object) : ∃ copy, (id, copy) ∈ call.made := by
  have kept : call.entries.get? Name.annots = some (.reference id) :=
    Page.get?_flattened (by decide) entry
  obtain ⟨copy, found⟩ := valid.exists_copy_of_entries
    (Object.mem_entryReferences kept (List.mem_singleton.2 rfl)) original
  have mine := (annot_iff.1 (.array entry original)).1
  exact ⟨copy, valid.made_of_owned mine found⟩

theorem exists_copy_of_annot (valid : call.Valid) (loaded : call.source.Loaded)
    {id : ObjectId} (annot : call.Annot id) : ∃ copy, (id, copy) ∈ call.made := by
  have mine := (annot_iff.1 annot).1
  cases annot with
  | array entry original => exact valid.exists_copy_of_array entry original
  | item lists member original =>
    have inside := Object.mem_itemReferences member
    cases lists with
    | inline entry =>
      have kept : call.entries.get? Name.annots = _ := Page.get?_flattened (by decide) entry
      obtain ⟨copy, found⟩ := valid.exists_copy_of_entries
        (Object.mem_entryReferences kept inside) original
      exact ⟨copy, valid.made_of_owned mine found⟩
    | indirect entry resolved =>
      have array := loaded.copyable_array resolved
      obtain ⟨arrayCopy, made⟩ := valid.exists_copy_of_array entry array
      obtain ⟨copy, found⟩ := valid.exists_copy_of_object made array inside original
      exact ⟨copy, valid.made_of_owned mine found⟩

end Appending.Valid

namespace Recorded

/-- Only the page itself becomes its copy. -/
theorem means_page (recorded : Recorded sources history store) (member : call ∈ history)
    {id : ObjectId} {object : Object} (means : call.Means id object) :
    id = call.page.id ↔ object = .reference call.target := by
  have listed : call.source.isPage call.page.id = true := (recorded.valid call member).1.listed
  have other (unlisted : call.source.isPage id = false) : id ≠ call.page.id := by
    rintro rfl
    exact absurd (listed.symm.trans unlisted) (by decide)
  cases means with
  | self => simp
  | page apart => simp [apart]
  | missing unlisted | tree unlisted => simp [other unlisted]
  | copy original found =>
    obtain ⟨maker, inside, _, _, made, _⟩ := recorded.maker member found
    have apart := recorded.made_ne_target inside member made
    simpa [other original.1] using apart

/-- Only an annotation of the page becomes the copy that is made of it. -/
theorem means_annot (recorded : Recorded sources history store) (member : call ∈ history)
    {id copy : ObjectId} (annot : call.Annot id) (made : (id, copy) ∈ call.made)
    {other : ObjectId} {object : Object} (means : call.Means other object) :
    other = id ↔ object = .reference copy := by
  have valid := (recorded.valid call member).1
  obtain ⟨original, copyable⟩ := (Appending.annot_iff.1 annot).2
  constructor
  · rintro rfl
    exact valid.means_copy copyable (valid.copy?_of_made made) means
  · rintro rfl
    cases means with
    | self => exact absurd rfl (recorded.made_ne_target member member made)
    | copy _ found =>
      obtain ⟨maker, inside, _, _, again, _⟩ := recorded.maker member found
      exact (recorded.made_unique inside member again made).2

/-- What a page has itself its copy has in translation. -/
theorem exists_entry (recorded : Recorded sources history store) (member : call ∈ history)
    {key : Bytes} {value : Object} (apart : key ≠ Name.parent)
    (own : call.page.entries.get? key = some value) : ∃ (entries : Dictionary) (copy : Object),
      store.output.table.get? call.target = some (.dictionary entries) ∧
      entries.get? key = some copy ∧ Translates call.Means value copy := by
  have kept : call.entries.get? key = some value := Page.get?_flattened apart own
  refine ⟨_, value.replace (call.scope.meaning call.copies),
    (recorded.page call member).trans (congrArg some call.pageCopy_eq), ?_, ?_⟩
  · rw [call.get?_pageCopy call.pageCopy_eq apart, kept]
    rfl
  · have valid := (recorded.valid call member).1
    exact valid.translates_entry (fun _ _ found => recorded.copyable member found) kept

/-- The copy of the page lists the translations of what the page lists. -/
theorem exists_listed (recorded : Recorded sources history store) (member : call ∈ history)
    (loaded : call.source.Loaded) {items : List Object}
    (lists : Page.Lists call.source.table call.page.entries items) : ∃ entries copies,
      store.output.table.get? call.target = some (.dictionary entries) ∧
      Page.Lists store.output.table entries copies ∧
      TranslatesItems call.Means items copies := by
  have valid := (recorded.valid call member).1
  cases lists with
  | inline own =>
    obtain ⟨entries, copy, page, entry, translated⟩ :=
      recorded.exists_entry member (by decide) own
    obtain ⟨⟩ | ⟨⟩ | translated := translated
    · contradiction
    exact ⟨entries, _, page, .inline entry, translated⟩
  | indirect own resolved =>
    obtain ⟨entries, copy, page, entry, translated⟩ :=
      recorded.exists_entry member (by decide) own
    have array := loaded.copyable_array resolved
    obtain ⟨arrayCopy, made⟩ := valid.exists_copy_of_array own array
    obtain ⟨⟩ | means := translated
    · contradiction
    cases valid.means_copy array (valid.copy?_of_made made) means
    obtain ⟨original, translation, copyable, found, inside⟩ :=
      recorded.translated_object member made
    cases copyable.unique array
    obtain ⟨⟩ | ⟨⟩ | inside := inside
    · contradiction
    exact ⟨entries, _, page, .indirect entry (Table.resolve_of_get? found rfl), inside⟩

/-- What is translated to the copy of an annotation is a reference to the annotation. -/
theorem translates_annot_iff (recorded : Recorded sources history store)
    (member : call ∈ history) {id copy : ObjectId} (annot : call.Annot id)
    (made : (id, copy) ∈ call.made) {item translation : Object}
    (translated : Translates call.Means item translation) :
    item = .reference id ↔ translation = .reference copy := by
  cases translated with
  | plain plain =>
    have direct (id : ObjectId) : item ≠ .reference id := by
      rintro rfl
      contradiction
    simp [direct]
  | reference means =>
    rw [Object.reference.injEq]
    exact recorded.means_annot member annot made means
  | array | dictionary | stream => simp

/-- At the places of an annotation, and there only, is its copy. -/
theorem listed_at_iff (recorded : Recorded sources history store) (member : call ∈ history)
    {id copy : ObjectId} (annot : call.Annot id) (made : (id, copy) ∈ call.made)
    {items copies : List Object} (translated : List.Forall₂ (Translates call.Means) items copies)
    (position : Nat) :
    items[position]? = some (.reference id) ↔ copies[position]? = some (.reference copy) := by
  induction translated generalizing position with
  | nil => simp
  | cons first _ ih =>
    cases position with
    | zero => simpa using recorded.translates_annot_iff member annot made first
    | succ position => simpa using ih position

theorem annotated (recorded : Recorded sources history store) (member : call ∈ history)
    (before : Recorded sources earlier call.store)
    (loaded : call.source.Loaded) : call.Annotated history store.output.table := by
  have valid := (recorded.valid call member).1
  constructor
  · intro id annot
    obtain ⟨copy, made⟩ := valid.exists_copy_of_annot loaded annot
    refine ⟨copy, made, before.get?_new valid (.inr (List.mem_map.2 ⟨_, made, rfl⟩)), ?_⟩
    exact fun other again => valid.copy_unique again made
  · intro id copy _ made other present
    refine ⟨(recorded.made_ne_target member present made).symm, fun otherId again => ?_⟩
    exact recorded.made_unique present member again made
  · intro items lists
    obtain ⟨entries, copies, page, listed, translated⟩ := recorded.exists_listed member loaded lists
    have translated := translated.forall₂
    refine ⟨entries, copies, page, listed, translated, ?_⟩
    exact fun id copy annot made => recorded.listed_at_iff member annot made translated
  · exact fun id copy _ made => recorded.translated_object member made
  · exact fun id object means => recorded.means_page member means
  · exact fun id copy annot made other object means =>
      recorded.means_annot member annot made means

end Recorded

/-- Whatever lists of pages of loaded documents are assembled, every page of the output has its
annotations for itself: the copies of them were made when it was appended, it lists them in the
order of the original, and they refer to it and to each other. -/
theorem annotations_belong_to_page (loaded : ∀ source ∈ sources, source.Loaded)
    (settings : Settings) (batches : List (List PageReference)) :
    let start := Store.ofSources sources settings
    let store := Store.performAll (batches.map .assemble) start
    ∃ history, Assembled start history store ∧
      List.Forall₂ (Appending.Answers sources) (Store.appended (batches.map .assemble) start)
        history ∧
      ∀ call ∈ history, call.page.Read call.source.table ∧
        call.Annotated history store.output.table := by
  intro start store
  obtain ⟨history, assembled, answers⟩ := start.assembled_batches batches
  rw [Store.sources_ofSources] at answers
  refine ⟨history, assembled, answers, fun call member => ?_⟩
  have recorded := assembled.recorded
  obtain ⟨valid, place⟩ := recorded.valid call member
  have loaded := loaded _ (List.mem_of_getElem? place)
  obtain ⟨_, _, before⟩ := assembled.before member
  exact ⟨loaded.read valid.page, recorded.annotated member before.recorded loaded⟩

/-- The widget of the form has two copies when the page is appended twice. -/
theorem form_widgets_apart :
    let store := Store.performAll [.assemble [⟨0, 0⟩], .assemble [⟨0, 0⟩]]
      (Store.ofSources [form] {})
    ∃ (first second : Appending) (widget other : ObjectId),
      first.Annotated [first, second] store.output.table ∧
      second.Annotated [first, second] store.output.table ∧
      (⟨4, 0⟩, widget) ∈ first.made ∧ (⟨4, 0⟩, other) ∈ second.made ∧ widget ≠ other := by
  obtain ⟨history, assembled, answers, annotated⟩ :=
    annotations_belong_to_page form_loaded {} [[⟨0, 0⟩], [⟨0, 0⟩]]
  have twice : List.Forall₂ (Appending.Answers [form]) [⟨0, 0⟩, ⟨0, 0⟩] history := answers
  obtain ⟨first, _, left, more, rfl⟩ := List.forall₂_cons_left_iff.1 twice
  obtain ⟨second, _, right, none, rfl⟩ := List.forall₂_cons_left_iff.1 more
  cases none
  have widget {call : Appending} (answer : Appending.Answers [form] ⟨0, 0⟩ call) :
      call.Annot ⟨4, 0⟩ := by
    obtain ⟨_, source, page⟩ := answer
    have source : form = call.source := Option.some.inj source
    rw [← source] at page
    have page : formPage = call.page := Option.some.inj page
    have lists : Page.Lists form.table formPage.entries [.reference ⟨4, 0⟩] := .inline rfl
    have original : form.Copyable ⟨4, 0⟩ (.dictionary
      [(bytes "P", .reference ⟨3, 0⟩), (Name.parent, .reference ⟨5, 0⟩)]) := ⟨rfl, rfl, rfl⟩
    rw [source, page] at lists
    rw [source] at original
    exact .item lists (List.mem_singleton.2 rfl) original
  have one := (annotated first (by simp)).2
  have two := (annotated second (by simp)).2
  obtain ⟨mine, made, _⟩ := one.copied _ (widget left)
  obtain ⟨yours, again, _⟩ := two.copied _ (widget right)
  refine ⟨first, second, mine, yours, one, two, made, again, ?_⟩
  rintro rfl
  obtain ⟨rfl, _⟩ := (one.alone _ _ (widget left) made second (by simp)).2 _ again
  exact absurd assembled.recorded.nodup_targets (by simp)

end PdfAssembly
