import PdfAssembly.Proofs.Numbering
import PdfAssembly.Proofs.Repetition

/-! No reference in an output leads nowhere. While a page is copied its objects refer to numbers
whose objects are still to come; once it is appended all of them are there. -/
namespace PdfAssembly

open Pdf

namespace Pdf.Object

theorem itemReferences_map_reference (ids : List ObjectId) :
    itemReferences (ids.map .reference) = ids := by
  induction ids with
  | nil => rfl
  | cons id rest ih => simp [itemReferences, references, ih]

/-- Setting an entry brings in no references but those of its value. -/
theorem mem_entryReferences_set {key : Bytes} {value : Object} {entries : Dictionary}
    {target : ObjectId} (member : target ∈ entryReferences (Dictionary.set key value entries)) :
    target ∈ value.references ∨ target ∈ entryReferences entries := by
  simp only [Dictionary.set] at member
  fun_induction Entries.put key value entries with
  | case1 => simpa [entryReferences] using member
  | case2 old rest =>
    rcases List.mem_append.1 member with new | later
    · exact .inl new
    · exact .inr (List.mem_append_right _ later)
  | case3 name old rest apart ih =>
    rcases List.mem_append.1 member with first | later
    · exact .inr (List.mem_append_left _ first)
    · exact (ih later).imp_right (List.mem_append_right _)

end Pdf.Object

namespace Pdf.Output

variable {output : Output}

def Closed (output : Output) : Prop :=
  ∀ id object, output.table.get? id = some object →
    ∀ target ∈ object.references, (output.table.get? target).isSome

theorem closed_empty (settings : Settings) : (empty settings).Closed := by
  intro id object found target member
  rcases eq_of_get?_empty found with rfl | rfl <;> cases found
  · simp [Object.references, Object.entryReferences, treeEntries, Object.itemReferences] at member
  · simp only [Object.references, Object.entryReferences, List.nil_append, List.append_nil,
      List.mem_singleton] at member
    subst member
    rfl

theorem Closed.insert (closed : output.Closed) {id : ObjectId} {object : Object}
    (inside : ∀ target ∈ object.references, (output.table.get? target).isSome) :
    Closed { output with table := output.table.insert id object } := by
  intro other value found target member
  rw [isSome_get?_insert]
  simp only [OrderedMap.get?_insert] at found
  split at found
  · cases found
    exact .inr (inside target member)
  · exact .inr (closed other value found target member)

theorem Closed.turnPage (closed : output.Closed) {position : Nat} {turn : Turn} {after : Output}
    (done : output.turnPage position turn = .ok after) : after.Closed := by
  obtain ⟨id, entries, _, found, rfl⟩ := turnPage_eq_ok_iff.1 done
  apply closed.insert
  intro target member
  rcases Object.mem_entryReferences_set member with new | old
  · simp [Object.references] at new
  · exact closed id _ found target old

theorem Closed.listPages (closed : output.Closed) (sound : output.Sound) :
    output.listPages.Closed := by
  obtain ⟨entries, found, _⟩ := sound.tree
  simp only [Output.listPages, found]
  apply closed.insert
  intro target member
  rcases Object.mem_entryReferences_set member with new | member
  · simp [Object.references] at new
  rcases Object.mem_entryReferences_set member with kid | old
  · rw [Object.references, Object.itemReferences_map_reference] at kid
    obtain ⟨page, present, _⟩ := (sound.pages target kid).2
    exact Option.isSome_of_eq_some present
  · exact closed _ _ found target old

theorem references_infoEntries (settings : Settings) (moment : Moment) :
    (Object.dictionary (infoEntries settings moment)).references = [] := by
  simp only [infoEntries]
  split <;> rfl

theorem Closed.writeInfo (closed : output.Closed) (moment : Moment) :
    (output.writeInfo moment).2.Closed := by
  have written (id : ObjectId) :
      Closed { output with
        table := output.table.insert id (.dictionary (infoEntries output.settings moment)) } := by
    apply closed.insert
    simp [references_infoEntries]
  unfold Output.writeInfo
  dsimp only
  split
  · exact written _
  · exact written _

theorem references_deflated (object : Object) :
    (deflated object).references ⊆ object.references := by
  intro target member
  cases object with
  | stream entries data =>
    simp only [deflated] at member
    split at member
    · rcases Object.mem_entryReferences_set member with new | member
      · simp [Object.references] at new
      rcases Object.mem_entryReferences_set member with new | old
      · simp [Object.references] at new
      · exact old
    · exact member
  | _ => exact member

theorem Closed.deflateStreams (closed : output.Closed) : output.deflateStreams.Closed := by
  intro id object found target member
  rw [isSome_get?_deflateStreams]
  obtain ⟨original, present, rfl | rfl⟩ := of_get?_deflateStreams found
  · exact closed id object present target member
  · exact closed id original present target (references_deflated original member)

theorem Closed.save (closed : output.Closed) (sound : output.Sound) (moment : Moment) :
    (output.save moment).2.Closed :=
  ((closed.listPages sound).writeInfo moment).deflateStreams

structure Intact (output : Output) (taken : List Nat) : Prop where
  references : ∀ id object, output.table.get? id = some object →
    ∀ target ∈ object.references, (output.table.get? target).isSome
  root : ∃ id, output.document.root = some (.reference id) ∧ (output.table.get? id).isSome
  info : ∀ object, output.document.info = some object →
    ∃ id, object = .reference id ∧ (output.table.get? id).isSome
  numbers : ∀ id, (output.table.get? id).isSome ↔
    id.generation = 0 ∧ 0 < id.number ∧ id.number < output.next ∧ id.number ∉ taken
  /-- No two saves take the same number, and none takes one of an object. -/
  taken : taken.Nodup ∧ ∀ number ∈ taken, 0 < number ∧ number < output.next
  distinct : output.pages.Nodup
  pages : ∀ id ∈ output.pages, ∃ entries, output.table.get? id = some (.dictionary entries)

theorem Closed.intact (closed : output.Closed) (sound : output.Sound) {taken : List Nat}
    (numbered : output.Numbered taken) : output.Intact taken where
  references := closed
  root := ⟨catalog, rfl, Option.isSome_of_eq_some sound.root⟩
  info := by
    intro object known
    obtain ⟨id, same, rfl⟩ := Option.map_eq_some_iff.1 known
    exact ⟨id, rfl, numbered.isSome_info sound same⟩
  numbers := numbered.present
  taken := ⟨numbered.distinct, numbered.inside⟩
  distinct := sound.distinct
  pages := by
    intro id page
    obtain ⟨entries, found, _⟩ := (sound.pages id page).2
    exact ⟨entries, found⟩

end Pdf.Output

/-- What objects refer to is there, and so are the copies that pages to come will refer to. -/
structure Store.Closed (store : Store) : Prop where
  output : store.output.Closed
  copies : ∀ input ∈ store.inputs, ∀ id copy, input.copies.get? id = some copy →
    (store.output.table.get? copy).isSome

namespace Store

variable {store : Store}

theorem closed_ofSources (sources : List Source) (settings : Settings) :
    (ofSources sources settings).Closed where
  output := Output.closed_empty settings
  copies := by
    intro input member
    obtain ⟨source, _, rfl⟩ := List.mem_map.1 member
    simp

theorem Closed.turnPage (closed : store.Closed) {position : Nat} {turn : Turn} {output : Output}
    (done : store.output.turnPage position turn = .ok output) :
    Closed { store with output } where
  output := closed.output.turnPage done
  copies := by
    intro input member id copy found
    exact (Output.isSome_get?_turnPage done copy).2 (closed.copies input member id copy found)

theorem Closed.save (closed : store.Closed) (sound : store.output.Sound) (moment : Moment) :
    (store.save moment).2.Closed where
  output := closed.output.save sound moment
  copies := by
    intro input member id copy found
    exact (sound.isSome_get?_save moment copy).2 (.inr (closed.copies input member id copy found))

end Store

namespace Appending.Valid

variable {call : Appending}

/-- A copy that the new objects refer to was there before or is made along with them. -/
theorem isSome_copy (valid : call.Valid) (closed : call.store.Closed) {id copy : ObjectId}
    (found : call.copy? id = some copy) : (call.result.output.table.get? copy).isSome := by
  rw [valid.isSome_get?_result]
  rcases (valid.tracked.copy id copy).1 found with made | ⟨_, before⟩
  · exact .inr (.inr (List.mem_map.2 ⟨(id, copy), made, rfl⟩))
  · exact .inl (closed.copies call.input (List.mem_of_getElem? valid.input) id copy before)

theorem isSome_referred (valid : call.Valid) (closed : call.store.Closed) {id target : ObjectId}
    (refers : target ∈ (call.scope.meaning call.copies id).references) :
    (call.result.output.table.get? target).isSome := by
  rcases CopyScope.mem_references_meaning.1 refers with ⟨_, rfl⟩ | ⟨_, _, found⟩
  · exact Option.isSome_of_eq_some valid.get?_target
  · exact valid.isSome_copy closed found

theorem closed (valid : call.Valid) (sound : call.store.output.Sound)
    (closed : call.store.Closed) : call.result.Closed where
  output := by
    intro id object found target member
    have kept (other : ObjectId) (before : (call.store.output.table.get? other).isSome) :
        (call.result.output.table.get? other).isSome :=
      (valid.isSome_get?_result other).2 (.inl before)
    -- New objects refer to what is there by now, old ones to what was there before.
    by_cases page : id = call.target
    · subst page
      rw [valid.get?_target, call.pageCopy_eq] at found
      cases found
      simp only [Object.references, Object.entryReferences_append, List.mem_append] at member
      rcases member with own | parent
      · obtain ⟨source, _, refers⟩ := (Object.mem_entryReferences_replaceEntries _ _).1 own
        exact valid.isSome_referred closed refers
      · obtain rfl : target = Output.pagesNode := by
          simpa [Object.entryReferences, Object.references] using parent
        obtain ⟨tree, present, _⟩ := sound.tree
        exact kept _ (Option.isSome_of_eq_some present)
    by_cases copy : id ∈ call.made.map (·.2)
    · obtain ⟨⟨original, _⟩, made, rfl⟩ := List.mem_map.1 copy
      obtain ⟨value, copyable⟩ := valid.tracked.copyable _ made
      rw [valid.get?_made made, objectCopy_eq copyable] at found
      cases found
      obtain ⟨source, _, refers⟩ := (Object.mem_references_replace _ _).1 member
      exact valid.isSome_referred closed refers
    · rw [valid.get?_other page copy] at found
      exact kept target (closed.output id object found target member)
  copies := by
    intro input member id copy found
    rw [valid.result_inputs] at member
    rw [valid.isSome_get?_result]
    rcases List.mem_or_eq_of_mem_set member with old | rfl
    · exact .inl (closed.copies input old id copy found)
    rcases (valid.tracked.shared id copy).1 found with before | ⟨_, made⟩
    · exact .inl (closed.copies call.input (List.mem_of_getElem? valid.input) id copy before)
    · exact .inr (.inr (List.mem_map.2 ⟨(id, copy), made, rfl⟩))

end Appending.Valid

theorem Session.closed {start store : Store} {history : List Appending} {taken : List Nat}
    (session : Session start history taken store) (fresh : start.Closed)
    (before : start.output.Sound) (loaded : ∀ source ∈ start.sources, source.Loaded) :
    store.Closed := by
  induction session with
  | start => exact fresh
  | append earlier valid ih => exact valid.closed (earlier.sound before loaded) ih
  | turn _ done ih => exact ih.turnPage done
  | save earlier ih => exact ih.save (earlier.sound before loaded) _

/-- Whatever is done with a store of loaded documents, its output is intact, and of the numbers
handed out only one for each save belongs to no object. -/
theorem output_intact {sources : List Source} (loaded : ∀ source ∈ sources, source.Loaded)
    (settings : Settings) (operations : List Operation) :
    (Store.performAll operations (Store.ofSources sources settings)).output.Intact
      (Store.taken operations (Store.ofSources sources settings)) := by
  obtain ⟨history, session, _⟩ := Session.start.performAll operations
  rw [List.nil_append, List.nil_append] at session
  have loaded : ∀ source ∈ (Store.ofSources sources settings).sources, source.Loaded := by
    simpa using loaded
  have fresh := Output.sound_empty settings
  have closed := session.closed (Store.closed_ofSources sources settings) fresh loaded
  exact closed.output.intact (session.sound fresh loaded)
    (session.numbered (Output.numbered_empty settings) fresh loaded)

/-- The form's page with its two objects takes three numbers, the information dictionary one. -/
theorem form_saved_twice_intact :
    (Store.performAll [.assemble [⟨0, 0⟩], .save ⟨2024, 2, 29, 12, 0, 0, 0⟩,
      .save ⟨2024, 3, 1, 12, 0, 0, 0⟩] (Store.ofSources [form] {})).output.Intact [7, 8] := by
  have output : formFirst.result.output = { Output.empty {} with
      table := ((Output.empty {}).table.insertAll
        (formFirst.scope.objectCopies formFirst.copies)).insert ⟨3, 0⟩ formFirst.pageCopy
      next := formFirst.copies.next
      pages := [⟨3, 0⟩] } := rfl
  have taken : Store.taken [.assemble [⟨0, 0⟩], .save ⟨2024, 2, 29, 12, 0, 0, 0⟩,
      .save ⟨2024, 3, 1, 12, 0, 0, 0⟩] (Store.ofSources [form] {}) = [7, 8] := by
    change Store.taken _ ⟨formFirst.result.inputs, formFirst.result.output⟩ = _
    rw [output, formFirst_copies]
    rfl
  exact taken ▸ output_intact form_loaded {} _

end PdfAssembly
