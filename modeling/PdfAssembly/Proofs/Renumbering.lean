import PdfAssembly.Proofs.HiddenPages

/-! Pages copied twice in step: the same search under other numbers. What a search does depends on
nothing but the identifiers that it meets, and the numbers that it hands out are those that are
free. -/
namespace PdfAssembly

open Pdf

namespace Pdf

def ObjectId.renumber (f : Nat → Nat) (id : ObjectId) : ObjectId := ⟨f id.number, id.generation⟩

theorem ObjectId.renumber_injective {f : Nat → Nat} (injective : Function.Injective f) :
    Function.Injective (renumber f) := by
  rintro ⟨number, generation⟩ ⟨other, otherGeneration⟩ same
  obtain ⟨numbers, generations⟩ := ObjectId.mk.inj same
  exact congrArg₂ ObjectId.mk (injective numbers) generations

namespace Object

mutual

theorem replace_replace (first second : ObjectId → Object) (object : Object) :
    (object.replace first).replace second = object.replace fun id => (first id).replace second := by
  cases object with
  | array items => exact congrArg array (replaceItems_replaceItems first second items)
  | dictionary entries =>
    exact congrArg dictionary (replaceEntries_replaceEntries first second entries)
  | stream entries data =>
    exact congrArg (stream · data) (replaceEntries_replaceEntries first second entries)
  | _ => rfl

theorem replaceItems_replaceItems (first second : ObjectId → Object) (items : List Object) :
    replaceItems second (replaceItems first items) =
      replaceItems (fun id => (first id).replace second) items := by
  cases items with
  | nil => rfl
  | cons item rest =>
    simp only [replaceItems]
    rw [replace_replace first second item, replaceItems_replaceItems first second rest]

theorem replaceEntries_replaceEntries (first second : ObjectId → Object)
    (entries : List (Bytes × Object)) :
    replaceEntries second (replaceEntries first entries) =
      replaceEntries (fun id => (first id).replace second) entries := by
  cases entries with
  | nil => rfl
  | cons entry rest =>
    obtain ⟨key, value⟩ := entry
    simp only [replaceEntries]
    rw [replace_replace first second value, replaceEntries_replaceEntries first second rest]

end

mutual

theorem replace_congr {first second : ObjectId → Object} (object : Object)
    (same : ∀ id ∈ object.references, first id = second id) :
    object.replace first = object.replace second := by
  cases object with
  | reference id => exact same id (by simp [references])
  | array items => exact congrArg array (replaceItems_congr items same)
  | dictionary entries => exact congrArg dictionary (replaceEntries_congr entries same)
  | stream entries data => exact congrArg (stream · data) (replaceEntries_congr entries same)
  | _ => rfl

theorem replaceItems_congr {first second : ObjectId → Object} (items : List Object)
    (same : ∀ id ∈ itemReferences items, first id = second id) :
    replaceItems first items = replaceItems second items := by
  cases items with
  | nil => rfl
  | cons item rest =>
    simp only [replaceItems]
    rw [replace_congr item fun id member => same id (List.mem_append_left _ member),
      replaceItems_congr rest fun id member => same id (List.mem_append_right _ member)]

theorem replaceEntries_congr {first second : ObjectId → Object} (entries : List (Bytes × Object))
    (same : ∀ id ∈ entryReferences entries, first id = second id) :
    replaceEntries first entries = replaceEntries second entries := by
  cases entries with
  | nil => rfl
  | cons entry rest =>
    obtain ⟨key, value⟩ := entry
    simp only [replaceEntries]
    rw [replace_congr value fun id member => same id (List.mem_append_left _ member),
      replaceEntries_congr rest fun id member => same id (List.mem_append_right _ member)]

end

mutual

theorem replace_reference (object : Object) : object.replace reference = object := by
  cases object with
  | array items => exact congrArg array (replaceItems_reference items)
  | dictionary entries => exact congrArg dictionary (replaceEntries_reference entries)
  | stream entries data => exact congrArg (stream · data) (replaceEntries_reference entries)
  | _ => rfl

theorem replaceItems_reference (items : List Object) : replaceItems reference items = items := by
  cases items with
  | nil => rfl
  | cons item rest =>
    simp only [replaceItems]
    rw [replace_reference item, replaceItems_reference rest]

theorem replaceEntries_reference (entries : List (Bytes × Object)) :
    replaceEntries reference entries = entries := by
  cases entries with
  | nil => rfl
  | cons entry rest =>
    obtain ⟨key, value⟩ := entry
    simp only [replaceEntries]
    rw [replace_reference value, replaceEntries_reference rest]

end

def renumber (f : Nat → Nat) (object : Object) : Object :=
  object.replace fun id => .reference (id.renumber f)

@[simp] theorem renumber_self (object : Object) : object.renumber (fun n => n) = object :=
  replace_reference object

end Object

def Copies.renumber (f : Nat → Nat) (copies : Copies) : Copies where
  shared := copies.shared.mapValues (ObjectId.renumber f)
  own := copies.own.mapValues (ObjectId.renumber f)
  next := f copies.next
  made := copies.made.map fun pair => (pair.1, pair.2.renumber f)

inductive Source.Meets (source : Source) (start : List ObjectId) : ObjectId → Prop
  | start {id : ObjectId} : id ∈ start → Meets source start id
  | step {via id : ObjectId} : Meets source start via → source.Copyable via object →
      id ∈ object.references → Meets source start id

theorem Source.Leads.meets {source : Source} {start : List ObjectId} {id : ObjectId}
    (leads : source.Leads start id) : source.Meets start id := by
  induction leads with
  | start inside _ => exact .start inside
  | step _ original inside _ ih => exact .step ih original inside

end Pdf

theorem OrderedMap.mapValues_insert [Key κ] (f : α → β) (map : OrderedMap κ α) (key : κ)
    (value : α) : (map.insert key value).mapValues f = (map.mapValues f).insert key (f value) := by
  ext1 other
  simp only [get?_mapValues, get?_insert]
  split <;> rfl

namespace Pdf.CopyScope

/-- Two scopes that copy alike what these references lead to, for a page whose copies have
different numbers. -/
structure Alike (f : Nat → Nat) (start : List ObjectId) (scope other : CopyScope) : Prop where
  page : other.page.id = scope.page.id
  target : other.target = scope.target.renumber f
  isPage : ∀ id, other.source.isPage id = scope.source.isPage id
  listed : scope.source.isPage scope.page.id = true
  owned : other.owned = scope.owned
  originals : ∀ id, scope.source.Meets start id → ∀ object,
    other.source.Copyable id object ↔ scope.source.Copyable id object

namespace Alike

variable {f : Nat → Nat} {start : List ObjectId} {scope other : CopyScope} {copies : Copies}

theorem copy?_renumber (alike : Alike f start scope other) (copies : Copies) (id : ObjectId) :
    other.copy? (copies.renumber f) id = (scope.copy? copies id).map (ObjectId.renumber f) := by
  simp only [copy?, alike.owned, Copies.renumber, OrderedMap.get?_mapValues]
  split <;> rfl

theorem register_renumber (alike : Alike f start scope other)
    (steady : f (copies.next + 1) = f copies.next + 1) (id : ObjectId) :
    other.register (copies.renumber f) id = (scope.register copies id).renumber f := by
  simp only [register, alike.owned]
  split <;> simp [Copies.renumber, OrderedMap.mapValues_insert, ObjectId.renumber, steady]

theorem uncopied?_renumber (alike : Alike f start scope other) (copies : Copies) {id : ObjectId}
    (meets : scope.source.Meets start id) :
    other.uncopied? (copies.renumber f) id = scope.uncopied? copies id := by
  have listed : other.source.isPage other.page.id = true := by
    rw [alike.page, alike.isPage, alike.listed]
  ext object
  rw [uncopied?_eq_some_iff listed, uncopied?_eq_some_iff alike.listed, alike.originals id meets,
    alike.copy?_renumber, Option.map_eq_none_iff]

/-- Both searches meet the same identifiers and hand out corresponding numbers. -/
theorem discover_renumber (alike : Alike f start scope other) (copies : Copies)
    (steady : ∀ n, copies.next ≤ n → f (n + 1) = f n + 1) (pending : List ObjectId)
    (meets : ∀ id ∈ pending, scope.source.Meets start id) :
    other.discover (copies.renumber f) pending = (scope.discover copies pending).renumber f := by
  induction copies, pending using discover.induct scope with
  | case1 copies => simp
  | case2 copies id rest skipped ih =>
    obtain ⟨here, later⟩ := List.forall_mem_cons.1 meets
    rw [discover_cons, discover_cons, alike.uncopied?_renumber copies here, skipped]
    exact ih steady later
  | case3 copies id rest object found ih =>
    obtain ⟨here, later⟩ := List.forall_mem_cons.1 meets
    rw [discover_cons, discover_cons, alike.uncopied?_renumber copies here, found]
    dsimp only
    rw [alike.register_renumber (steady _ (Nat.le_refl _))]
    have original := ((uncopied?_eq_some_iff alike.listed).1 found).1
    refine ih ?_ (List.forall_mem_append.2 ⟨fun next member => .step here original member, later⟩)
    intro n above
    rw [next_register] at above
    exact steady n (Nat.le_of_succ_le above)

theorem meaning_renumber (alike : Alike f start scope other) (copies : Copies) (id : ObjectId) :
    other.meaning (copies.renumber f) id = (scope.meaning copies id).renumber f := by
  simp only [meaning, alike.page, alike.isPage, alike.target, alike.copy?_renumber]
  split
  · rfl
  split
  · rfl
  cases scope.copy? copies id <;> rfl

end Alike

end Pdf.CopyScope

structure Appending.InStep (f : Nat → Nat) (call other : Appending) : Prop where
  valid : call.Valid
  valid' : other.Valid
  alike : call.scope.Alike f (Object.entryReferences call.entries) other.scope
  entries : other.entries = call.entries
  copies : other.input.copies = call.input.copies.mapValues (ObjectId.renumber f)
  next : other.store.output.next = f call.store.output.next
  steady : ∀ n, call.store.output.next ≤ n → f (n + 1) = f n + 1

namespace Appending.InStep

variable {f : Nat → Nat} {call other : Appending}

theorem copies_eq (inStep : call.InStep f other) : other.copies = call.copies.renumber f := by
  have start : ({ shared := other.input.copies, next := other.store.output.next + 1 } : Copies) =
      Copies.renumber f { shared := call.input.copies, next := call.store.output.next + 1 } := by
    simp only [Copies.renumber, inStep.copies, inStep.next, inStep.steady _ (Nat.le_refl _)]
    rfl
  rw [Appending.copies, start, inStep.entries]
  refine inStep.alike.discover_renumber _ ?_ _ fun id member => .start member
  exact fun n above => inStep.steady n (Nat.le_of_succ_le above)

theorem target_eq (inStep : call.InStep f other) : other.target = call.target.renumber f :=
  inStep.alike.target

theorem made_eq (inStep : call.InStep f other) :
    other.made = call.made.map fun pair => (pair.1, pair.2.renumber f) := by
  rw [made, inStep.copies_eq]
  rfl

theorem meaning_eq (inStep : call.InStep f other) (id : ObjectId) :
    other.scope.meaning other.copies id = (call.scope.meaning call.copies id).renumber f := by
  rw [inStep.copies_eq, inStep.alike.meaning_renumber]

theorem pageCopy_eq (inStep : call.InStep f other)
    (tree : Output.pagesNode.renumber f = Output.pagesNode) :
    other.pageCopy = call.pageCopy.renumber f := by
  rw [Appending.pageCopy_eq, Appending.pageCopy_eq, inStep.entries]
  simp only [Object.renumber, Object.replace, Object.replaceEntries_append,
    Object.replaceEntries_replaceEntries, Object.replaceEntries, tree]
  congr 3
  exact funext inStep.meaning_eq

theorem objectCopy_eq (inStep : call.InStep f other) {id copy : ObjectId}
    (made : (id, copy) ∈ call.made) : other.objectCopy id = (call.objectCopy id).renumber f := by
  obtain ⟨object, original⟩ := inStep.valid.tracked.copyable _ made
  have meets := (inStep.valid.leads_made made).meets
  have same := (inStep.alike.originals id meets object).2 original
  rw [Appending.objectCopy_eq original, Appending.objectCopy_eq same, Object.renumber,
    Object.replace_replace]
  exact congrArg object.replace (funext inStep.meaning_eq)

/-- What is new has the same content under corresponding numbers. -/
theorem get?_new (inStep : call.InStep f other)
    (tree : Output.pagesNode.renumber f = Output.pagesNode) {id : ObjectId}
    (new : id = call.target ∨ id ∈ call.made.map (·.2)) :
    other.result.output.table.get? (id.renumber f) =
      (call.result.output.table.get? id).map (Object.renumber f) := by
  rcases new with rfl | copy
  · rw [← inStep.target_eq, inStep.valid.get?_target, inStep.valid'.get?_target,
      inStep.pageCopy_eq tree]
    rfl
  · obtain ⟨⟨original, _⟩, made, rfl⟩ := List.mem_map.1 copy
    have made' : (original, _) ∈ other.made :=
      inStep.made_eq ▸ List.mem_map.2 ⟨_, made, rfl⟩
    rw [inStep.valid.get?_made made, inStep.valid'.get?_made made', inStep.objectCopy_eq made]
    rfl

theorem new_of_new (inStep : call.InStep f other) {id : ObjectId}
    (new : id = other.target ∨ id ∈ other.made.map (·.2)) :
    ∃ original, (original = call.target ∨ original ∈ call.made.map (·.2)) ∧
      original.renumber f = id := by
  rcases new with rfl | copy
  · exact ⟨call.target, .inl rfl, inStep.target_eq.symm⟩
  · rw [inStep.made_eq, List.map_map] at copy
    obtain ⟨pair, made, rfl⟩ := List.mem_map.1 copy
    exact ⟨pair.2, .inr (List.mem_map.2 ⟨pair, made, rfl⟩), rfl⟩

theorem get?_old (inStep : call.InStep f other) (injective : Function.Injective f) {id : ObjectId}
    (old : ¬ (id = call.target ∨ id ∈ call.made.map (·.2))) :
    other.result.output.table.get? (id.renumber f) =
      other.store.output.table.get? (id.renumber f) := by
  have old' : ¬ (id.renumber f = other.target ∨ id.renumber f ∈ other.made.map (·.2)) := by
    intro new
    obtain ⟨original, before, same⟩ := inStep.new_of_new new
    exact old (ObjectId.renumber_injective injective same ▸ before)
  exact inStep.valid'.get?_other (fun page => old' (.inl page)) fun copy => old' (.inr copy)

end Appending.InStep

/-- What appending a page to two stores keeps is kept by appending one page after the other. -/
theorem Store.appendPages_rel {R : Store → Store → Prop} {sources : List Source}
    {references : List PageReference} {pages : List Page}
    (located : List.Forall₂ (fun reference page =>
      ∃ source, reference.Names sources source page) references pages)
    (keeps : ∀ reference ∈ references, ∀ source page, reference.Names sources source page →
      ∀ store other, R store other →
        R (store.appendPage reference.document page) (other.appendPage reference.document page))
    {store other : Store} (start : R store other) :
    R
      ((references.zip pages).foldl
        (fun store (reference, page) => store.appendPage reference.document page) store)
      ((references.zip pages).foldl
        (fun store (reference, page) => store.appendPage reference.document page) other) := by
  induction located generalizing store other with
  | nil => exact start
  | cons named _ ih =>
    obtain ⟨source, named⟩ := named
    obtain ⟨first, later⟩ := List.forall_mem_cons.1 keeps
    exact ih later (first source _ named store other start)

end PdfAssembly
