import PdfAssembly.Proofs.Atomicity
import PdfAssembly.Proofs.Repetition

/-! Assembling adds to an output and disturbs nothing in it. What comes with a page has numbers
that are handed out in one go, above those of all objects and of all that saving took before. -/
namespace PdfAssembly

open Pdf

variable {start store : Store} {history : List Appending} {taken : List Nat}

namespace Appending

variable {call : Appending}

def issued (call : Appending) : List ObjectId := call.target :: call.made.map (·.2)

theorem Valid.mem_issued_iff (valid : call.Valid) {id : ObjectId} :
    id ∈ call.issued ↔ id.generation = 0 ∧ call.store.output.next ≤ id.number ∧
      id.number < call.result.output.next := by
  have grown := valid.target_lt
  rw [issued, List.mem_cons, valid.mem_made_iff, valid.next_result]
  constructor
  · rintro (rfl | ⟨generation, above, below⟩)
    · exact ⟨rfl, Nat.le_refl _, grown⟩
    · exact ⟨generation, Nat.le_of_lt above, below⟩
  · rintro ⟨generation, above, below⟩
    rcases Nat.eq_or_lt_of_le above with first | later
    · refine .inl ?_
      cases id
      simp_all [target]
    · exact .inr ⟨generation, later, below⟩

theorem Valid.isSome_get?_iff (valid : call.Valid) (id : ObjectId) :
    (call.result.output.table.get? id).isSome ↔
      (call.store.output.table.get? id).isSome ∨ id ∈ call.issued := by
  rw [valid.isSome_get?_result, issued, List.mem_cons]

/-- Only the table, its numbers and the pages change. -/
theorem Valid.document_result (valid : call.Valid) : call.result.output.document =
    { call.store.output.document with table := call.result.output.table } := by
  rw [valid.result_output]
  rfl

end Appending

namespace Assembled

/-- The identifiers handed out on the way are all those from the first free number on. -/
theorem mem_issued_iff (assembled : Assembled start history store) {id : ObjectId} :
    id ∈ history.flatMap Appending.issued ↔ id.generation = 0 ∧
      start.output.next ≤ id.number ∧ id.number < store.output.next := by
  induction assembled with
  | start =>
    simp only [List.flatMap_nil, List.not_mem_nil, false_iff]
    omega
  | append earlier valid ih =>
    have grown := earlier.kept.1
    have further := valid.target_lt
    rw [List.flatMap_append, List.flatMap_singleton, List.mem_append, ih, valid.mem_issued_iff]
    rw [← valid.next_result] at further
    simp only [Appending.target] at further
    omega

theorem isSome_get?_iff (assembled : Assembled start history store) (id : ObjectId) :
    (store.output.table.get? id).isSome ↔
      (start.output.table.get? id).isSome ∨ id ∈ history.flatMap Appending.issued := by
  induction assembled with
  | start => simp
  | append _ valid ih =>
    rw [valid.isSome_get?_iff, ih, List.flatMap_append, List.flatMap_singleton, List.mem_append,
      or_assoc]

theorem document (assembled : Assembled start history store) :
    store.output.document = { start.output.document with table := store.output.table } := by
  induction assembled with
  | start => rfl
  | append _ valid ih => rw [valid.document_result, ih]

end Assembled

structure Store.Extended (taken : List Nat) (history : List Appending) (before after : Store) :
    Prop where
  kept : ∀ id object, before.output.table.get? id = some object →
    after.output.table.get? id = some object
  /-- The trailer, like all but the objects, stays as it is. -/
  trailer : after.output.document = { before.output.document with table := after.output.table }
  pages : before.output.pages <+: after.output.pages
  added : ∀ id, (after.output.table.get? id).isSome ↔
    (before.output.table.get? id).isSome ∨ id ∈ history.flatMap Appending.issued
  /-- Nothing else was handed out. -/
  issued : ∀ id, id ∈ history.flatMap Appending.issued ↔ id.generation = 0 ∧
    before.output.next ≤ id.number ∧ id.number < after.output.next
  above : ∀ id ∈ history.flatMap Appending.issued,
    (∀ old, (before.output.table.get? old).isSome → old.number < id.number) ∧
      ∀ number ∈ taken, number < id.number

theorem Assembled.extended (assembled : Assembled start history store)
    (sound : start.output.Sound) (numbered : start.output.Numbered taken) :
    Store.Extended taken history start store where
  kept := by
    intro id object found
    rw [assembled.kept.2 id (sound.bounded id object found).2, found]
  trailer := assembled.document
  pages := ⟨_, assembled.pages.symm⟩
  added := assembled.isSome_get?_iff
  issued := fun _ => assembled.mem_issued_iff
  above := by
    intro id member
    have new := (assembled.mem_issued_iff.1 member).2.1
    constructor
    · intro old present
      obtain ⟨object, found⟩ := Option.isSome_iff_exists.1 present
      exact Nat.lt_of_lt_of_le (sound.bounded old object found).2 new
    · exact fun number used => Nat.lt_of_lt_of_le (numbered.inside number used).2 new

/-- Whatever was done with a store of loaded documents before, assembling a list of references
leaves every object, the trailer and the pages as they are, and what it adds has numbers that
neither an object nor a save has used. -/
theorem assembling_disturbs_nothing {sources : List Source}
    (loaded : ∀ source ∈ sources, source.Loaded) (settings : Settings)
    (operations : List Operation) (references : List PageReference) :
    let start := Store.ofSources sources settings
    let before := Store.performAll operations start
    ∃ history, Assembled before history (before.assemble references).2 ∧
      List.Forall₂ (Appending.Answers sources) (before.accepted references) history ∧
      Store.Extended (Store.taken operations start) history before
        (before.assemble references).2 := by
  intro start before
  obtain ⟨_, session, _⟩ := Session.ofSources sources settings operations
  have fresh := Output.sound_empty settings
  have loaded : ∀ source ∈ start.sources, source.Loaded := by simpa [start] using loaded
  have sound := session.sound fresh loaded
  have numbered := session.numbered (Output.numbered_empty settings) fresh loaded
  obtain ⟨history, assembled, answers⟩ := before.assembled_accepted references
  rw [session.sources, Store.sources_ofSources] at answers
  exact ⟨history, assembled, answers, assembled.extended sound numbered⟩

/-- A save of the form takes a number for itself, and the page that is appended again comes
behind it. -/
theorem form_extended_after_save :
    let before := Store.performAll [.assemble [⟨0, 0⟩], .save ⟨2024, 2, 29, 12, 0, 0, 0⟩]
      (Store.ofSources [form] {})
    ∃ call : Appending, Store.Extended [7] [call] before (before.assemble [⟨0, 0⟩]).2 ∧
      7 < call.target.number := by
  have taken : Store.taken [.assemble [⟨0, 0⟩], .save ⟨2024, 2, 29, 12, 0, 0, 0⟩]
      (Store.ofSources [form] {}) = [7] := by
    change Store.taken _ ⟨formFirst.result.inputs, formFirst.result.output⟩ = _
    rw [formFirst_output, formFirst_copies]
    rfl
  obtain ⟨history, _, answers, extended⟩ := assembling_disturbs_nothing form_loaded {}
    [.assemble [⟨0, 0⟩], .save ⟨2024, 2, 29, 12, 0, 0, 0⟩] [⟨0, 0⟩]
  rw [taken] at extended
  have once : List.Forall₂ (Appending.Answers [form]) [⟨0, 0⟩] history := answers
  obtain ⟨call, _, _, none, rfl⟩ := List.forall₂_cons_left_iff.1 once
  cases none
  refine ⟨call, extended, (extended.above call.target ?_).2 7 (by simp)⟩
  simp [Appending.issued]

end PdfAssembly
