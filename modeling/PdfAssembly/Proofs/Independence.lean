import PdfAssembly.Proofs.Copying

/-! Which pages of the output lead to other pages. A page never leads to a later one or to one of
another document; it leads to an earlier one exactly where it shares an object that was copied
for that page and refers back to it. -/
namespace PdfAssembly

open Pdf

/-- What is met on the way from a page along references, neither going up to the page tree nor
going on from a page. -/
inductive Pdf.Output.Meets (output : Output) (page : ObjectId) : ObjectId → Prop
  | own {id : ObjectId} : output.table.get? page = some (.dictionary entries) →
      id ∈ Object.entryReferences (entries.filter (·.1 ≠ Name.parent)) → Meets output page id
  | beyond {via id : ObjectId} : Meets output page via → via ∉ output.pages →
      output.table.get? via = some object → id ∈ object.references → Meets output page id

variable {sources : List Source} {history : List Appending} {store : Store}
  {call maker : Appending}

namespace Pdf.CopyScope

theorem mem_references_meaning {scope : CopyScope} {copies : Copies} {id target : ObjectId} :
    target ∈ (scope.meaning copies id).references ↔
      id = scope.page.id ∧ target = scope.target ∨
      id ≠ scope.page.id ∧ scope.source.isPage id = false ∧
        scope.copy? copies id = some target := by
  simp only [meaning]
  by_cases self : id = scope.page.id
  · simp [self, Object.references]
  · cases listed : scope.source.isPage id with
    | true => simp [self, Object.references]
    | false => cases scope.copy? copies id <;> simp [self, Object.references, eq_comm]

end Pdf.CopyScope

namespace Appending

/-- The entries of the new page other than its parent are copies of what it had or inherited. -/
theorem pageCopy_entries {entries : Dictionary} (page : call.pageCopy = .dictionary entries) :
    entries.filter (·.1 ≠ Name.parent) =
      Object.replaceEntries (call.scope.meaning call.copies) call.entries := by
  rw [pageCopy_eq] at page
  cases page
  have absent := Page.parent_notMem_flattened call.source.table call.page.entries
  rw [← Object.keys_replaceEntries (call.scope.meaning call.copies)] at absent
  rw [List.filter_append, List.filter_eq_self.2]
  · simp
  · intro entry inside
    simp only [decide_eq_true_eq]
    intro same
    exact absent (List.mem_map.2 ⟨entry, inside, same⟩)

/-- References back to the page lead to its copy. -/
theorem refers_self (call : Appending) :
    call.target ∈ (call.scope.meaning call.copies call.page.id).references :=
  CopyScope.mem_references_meaning.2 (.inl ⟨rfl, rfl⟩)

theorem objectCopy_eq {id : ObjectId} {object : Object}
    (original : call.source.Copyable id object) :
    call.objectCopy id = object.replace (call.scope.meaning call.copies) := by
  have resolved : call.source.table.resolve id = some object := original.2.1
  simp [objectCopy, resolved]

end Appending

namespace Recorded

/-- Of two calls in a history one has ended before the other begins. -/
theorem disjoint (recorded : Recorded sources history store) (left : maker ∈ history)
    (right : call ∈ history) : maker = call ∨ maker.copies.next ≤ call.target.number ∨
      call.copies.next ≤ maker.target.number := by
  have order {a b : Appending} (before : a.copies.next ≤ b.target.number) :
      a = b ∨ a.copies.next ≤ b.target.number ∨ b.copies.next ≤ a.target.number :=
    .inr (.inl before)
  have reverse {a b : Appending} (before : a.copies.next ≤ b.target.number) :
      b = a ∨ b.copies.next ≤ a.target.number ∨ a.copies.next ≤ b.target.number :=
    .inr (.inr before)
  exact List.Pairwise.forall_of_forall_of_flip (fun _ _ => .inl rfl) (recorded.ordered.imp order)
    (recorded.ordered.imp reverse) left right

theorem target_injective (recorded : Recorded sources history store) (left : maker ∈ history)
    (right : call ∈ history) (same : maker.target = call.target) : maker = call := by
  have first := (recorded.valid maker left).1.target_lt
  have second := (recorded.valid call right).1.target_lt
  rw [same] at first
  rcases recorded.disjoint left right with equal | before | after
  · exact equal
  · omega
  · rw [same] at after
    omega

/-- Copies of objects have other identifiers than pages. -/
theorem made_ne_target (recorded : Recorded sources history store) (left : maker ∈ history)
    (right : call ∈ history) {pair : ObjectId × ObjectId} (made : pair ∈ maker.made) :
    pair.2 ≠ call.target := by
  obtain ⟨above, below, _⟩ := (recorded.valid maker left).1.made_number made
  have extent := (recorded.valid call right).1.target_lt
  intro same
  rw [same] at above below
  rcases recorded.disjoint left right with rfl | before | after <;> omega

theorem mem_pages_iff (recorded : Recorded sources history store) {id : ObjectId} :
    id ∈ store.output.pages ↔ ∃ call ∈ history, call.target = id := by
  rw [recorded.pages, List.mem_map]

/-- Where the original of a new page's reference is copied, the page leads to the copy. -/
theorem meets_own (recorded : Recorded sources history store) (member : call ∈ history)
    {id target : ObjectId} (listed : id ∈ Object.entryReferences call.entries)
    (refers : target ∈ (call.scope.meaning call.copies id).references) :
    store.output.Meets call.target target := by
  apply Output.Meets.own (recorded.page call member)
  rw [Appending.pageCopy_entries rfl]
  exact (Object.mem_entryReferences_replaceEntries _ _).2 ⟨id, listed, refers⟩

theorem meets_beyond (recorded : Recorded sources history store) (member : call ∈ history)
    {page id copy : ObjectId} {object : Object} (made : (id, copy) ∈ call.made)
    (original : call.source.Copyable id object) (meets : store.output.Meets page copy)
    {next target : ObjectId} (listed : next ∈ object.references)
    (refers : target ∈ (call.scope.meaning call.copies next).references) :
    store.output.Meets page target := by
  have noPage : copy ∉ store.output.pages := by
    intro inside
    obtain ⟨other, present, same⟩ := recorded.mem_pages_iff.1 inside
    exact recorded.made_ne_target member present made same.symm
  apply Output.Meets.beyond meets noPage (recorded.object call member id copy made)
  rw [Appending.objectCopy_eq original]
  exact (Object.mem_references_replace _ _).2 ⟨next, listed, refers⟩

/-- What is copied is referred to by its copy. -/
theorem refers_of_copy? (recorded : Recorded sources history store) (member : call ∈ history)
    {id copy : ObjectId} (found : call.copy? id = some copy) :
    copy ∈ (call.scope.meaning call.copies id).references := by
  obtain ⟨object, unlisted, _⟩ := recorded.copyable member found
  have listed := (recorded.valid call member).1.listed
  apply CopyScope.mem_references_meaning.2
  refine .inr ⟨?_, unlisted, found⟩
  rintro rfl
  exact absurd (listed.symm.trans unlisted) (by decide)

/-- What the copies of a call refer to is its own page, or a copy made by it or before it. -/
theorem referred (recorded : Recorded sources history store) (member : call ∈ history)
    {id target : ObjectId} (refers : target ∈ (call.scope.meaning call.copies id).references) :
    ∃ maker ∈ history, maker.document = call.document ∧
      maker.target.number ≤ call.target.number ∧
      (target = maker.target ∨ target ∈ maker.made.map (·.2)) := by
  rcases CopyScope.mem_references_meaning.1 refers with ⟨_, self⟩ | ⟨_, _, found⟩
  · exact ⟨call, member, rfl, Nat.le_refl _, .inl self⟩
  · obtain ⟨maker, inside, document, before, made, _⟩ := recorded.maker member found
    exact ⟨maker, inside, document, before, .inr (List.mem_map.2 ⟨_, made, rfl⟩)⟩

theorem met (recorded : Recorded sources history store) (member : call ∈ history) {id : ObjectId}
    (meets : store.output.Meets call.target id) :
    ∃ maker ∈ history, maker.document = call.document ∧
      maker.target.number ≤ call.target.number ∧
      (id = maker.target ∨ id ∈ maker.made.map (·.2)) := by
  induction meets with
  | own page inside =>
    rw [recorded.page call member, Option.some.injEq] at page
    rw [Appending.pageCopy_entries page] at inside
    obtain ⟨id, _, refers⟩ := (Object.mem_entryReferences_replaceEntries _ _).1 inside
    exact recorded.referred member refers
  | beyond _ noPage found inside ih =>
    obtain ⟨maker, present, document, before, origin⟩ := ih
    rcases origin with rfl | copy
    · exact absurd (recorded.mem_pages_iff.2 ⟨maker, present, rfl⟩) noPage
    obtain ⟨⟨original, _⟩, made, rfl⟩ := List.mem_map.1 copy
    rw [recorded.object maker present original _ made, Option.some.injEq] at found
    subst found
    obtain ⟨id, _, refers⟩ := (Object.mem_references_replace _ _).1 inside
    obtain ⟨earlier, other, document', before', rest⟩ := recorded.referred present refers
    exact ⟨earlier, other, document'.trans document, Nat.le_trans before' before, rest⟩

/-- A page leads to no later page and to none of another document. -/
theorem met_page (recorded : Recorded sources history store) (member : call ∈ history)
    (present : maker ∈ history) (meets : store.output.Meets call.target maker.target) :
    maker.document = call.document ∧ maker.target.number ≤ call.target.number := by
  obtain ⟨other, inside, document, before, origin⟩ := recorded.met member meets
  rcases origin with same | copy
  · rw [recorded.target_injective present inside same]
    exact ⟨document, before⟩
  · obtain ⟨pair, made, same⟩ := List.mem_map.1 copy
    exact absurd same (recorded.made_ne_target inside present made)

/-- The one page that a copy may refer to is the page that it was made for, and it does so
exactly if its original refers to that page's original. -/
theorem target_mem_references_iff (recorded : Recorded sources history store)
    (left : maker ∈ history) (right : call ∈ history) {id : ObjectId} {object : Object}
    (original : maker.source.Copyable id object) :
    call.target ∈ (maker.objectCopy id).references ↔
      call = maker ∧ maker.page.id ∈ object.references := by
  rw [Appending.objectCopy_eq original, Object.mem_references_replace]
  constructor
  · rintro ⟨source, inside, refers⟩
    rcases CopyScope.mem_references_meaning.1 refers with ⟨rfl, self⟩ | ⟨_, _, found⟩
    · exact ⟨recorded.target_injective right left self, inside⟩
    · obtain ⟨earlier, present, _, _, made, _⟩ := recorded.maker left found
      exact absurd rfl (recorded.made_ne_target present right made)
  · rintro ⟨rfl, inside⟩
    exact ⟨_, inside, call.refers_self⟩

/-- A page leads to no other page as long as it shares no copy that was made for another page and
whose original refers to that page. -/
theorem independent_iff (recorded : Recorded sources history store) (member : call ∈ history) :
    (∀ id ∈ store.output.pages, store.output.Meets call.target id → id = call.target) ↔
      ∀ maker ∈ history, maker ≠ call → ∀ id copy object, (id, copy) ∈ maker.made →
        maker.source.Copyable id object → store.output.Meets call.target copy →
        maker.page.id ∉ object.references := by
  constructor
  · intro independent maker inside other id copy object made original meets refers
    have reaches := recorded.meets_beyond inside made original meets refers maker.refers_self
    have page := recorded.mem_pages_iff.2 ⟨maker, inside, rfl⟩
    exact other (recorded.target_injective inside member (independent _ page reaches))
  · intro unshared id page meets
    obtain ⟨other, present, rfl⟩ := recorded.mem_pages_iff.1 page
    cases meets with
    | own found inside =>
      rw [recorded.page call member, Option.some.injEq] at found
      rw [Appending.pageCopy_entries found] at inside
      obtain ⟨id, _, refers⟩ := (Object.mem_entryReferences_replaceEntries _ _).1 inside
      rcases CopyScope.mem_references_meaning.1 refers with ⟨_, self⟩ | ⟨_, _, copied⟩
      · exact self
      · obtain ⟨maker, inside, _, _, made, _⟩ := recorded.maker member copied
        exact absurd rfl (recorded.made_ne_target inside present made)
    | beyond meets noPage found inside =>
      obtain ⟨maker, known, _, _, origin⟩ := recorded.met member meets
      rcases origin with rfl | copy
      · exact absurd (recorded.mem_pages_iff.2 ⟨maker, known, rfl⟩) noPage
      obtain ⟨⟨id, _⟩, made, rfl⟩ := List.mem_map.1 copy
      obtain ⟨object, original⟩ := (recorded.valid maker known).1.tracked.copyable _ made
      rw [recorded.object maker known id _ made, Option.some.injEq] at found
      subst found
      obtain ⟨rfl, refers⟩ := (recorded.target_mem_references_iff known present original).1 inside
      by_cases same : other = call
      · rw [same]
      · exact absurd refers (unshared other known same id _ object made original meets)

end Recorded

end PdfAssembly
