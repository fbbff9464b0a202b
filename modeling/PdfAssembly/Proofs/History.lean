import PdfAssembly.Proofs.Discovery
import PdfAssembly.Store

/-! The history of an output: which page of which document was appended when, and which copies
were made for it. Every object of the output, and every copy that later pages share, goes back to
one of these moments. -/
namespace PdfAssembly

open Pdf

namespace Pdf.Output

def Bounded (output : Output) : Prop :=
  ∀ id object, output.table.get? id = some object → id.generation = 0 ∧ id.number < output.next

theorem eq_of_get?_empty {settings : Settings} {id : ObjectId} {object : Object}
    (found : (empty settings).table.get? id = some object) : id = pagesNode ∨ id = catalog := by
  have member : id ∈ [pagesNode, catalog] :=
    OrderedMap.mem_keys_iff.2 (Option.isSome_of_eq_some found)
  simpa using member

theorem bounded_empty (settings : Settings) : (empty settings).Bounded := by
  intro id object found
  rcases eq_of_get?_empty found with rfl | rfl <;> exact ⟨rfl, by simp [pagesNode, catalog, empty]⟩

end Pdf.Output

/-- A page being appended to the output of a store. -/
structure Appending where
  /-- The store as it is before. -/
  store : Store
  document : Nat
  input : Input
  page : Page

namespace Appending

variable {call : Appending}

def source (call : Appending) : Source := call.input.source

def target (call : Appending) : ObjectId := ⟨call.store.output.next, 0⟩

def scope (call : Appending) : CopyScope := ⟨call.source, call.page, call.target⟩

def entries (call : Appending) : Dictionary :=
  Page.flattened call.source.table call.page.entries

def copies (call : Appending) : Copies :=
  call.scope.discover { shared := call.input.copies, next := call.store.output.next + 1 }
    (Object.entryReferences call.entries)

def made (call : Appending) : List (ObjectId × ObjectId) := call.copies.made

def copy? (call : Appending) (id : ObjectId) : Option ObjectId := call.scope.copy? call.copies id

def owned (call : Appending) : List ObjectId := call.scope.owned

def pageCopy (call : Appending) : Object := call.scope.pageCopy call.copies Output.pagesNode

def objectCopy (call : Appending) (id : ObjectId) : Object :=
  ((call.source.table.resolve id).getD .null).replace (call.scope.meaning call.copies)

def result (call : Appending) : Store := call.store.appendPage call.document call.page

structure Valid (call : Appending) : Prop where
  input : call.store.inputs[call.document]? = some call.input
  page : call.page ∈ call.source.pages

theorem Valid.listed (valid : call.Valid) : call.scope.source.isPage call.scope.page.id = true := by
  apply List.any_eq_true.2
  exact ⟨call.page, valid.page, by simp [scope]⟩

theorem Valid.tracked (valid : call.Valid) :
    CopyScope.Tracked call.scope call.input.copies (call.store.output.next + 1) call.copies :=
  CopyScope.tracked_discover valid.listed _ (CopyScope.tracked_start ..)

theorem Valid.result_output (valid : call.Valid) :
    call.result.output = { call.store.output with
      table := (call.store.output.table.insertAll (call.scope.objectCopies call.copies)).insert
        call.target call.pageCopy
      next := call.copies.next
      pages := call.store.output.pages ++ [call.target] } := by
  simp only [result, Store.appendPage, valid.input]
  rfl

theorem Valid.next_result (valid : call.Valid) : call.result.output.next = call.copies.next := by
  rw [valid.result_output]

theorem Valid.pages_result (valid : call.Valid) :
    call.result.output.pages = call.store.output.pages ++ [call.target] := by
  rw [valid.result_output]

theorem Valid.result_inputs (valid : call.Valid) :
    call.result.inputs = call.store.inputs.set call.document
      { call.input with copies := call.copies.shared } := by
  simp only [result, Store.appendPage, valid.input]
  rfl

/-- Appending leaves the loaded documents as they are. -/
theorem Valid.result_sources (valid : call.Valid) :
    call.result.inputs.map (·.source) = call.store.inputs.map (·.source) := by
  rw [valid.result_inputs, List.map_set]
  apply List.ext_getElem?
  intro document
  rw [List.getElem?_set]
  split
  · rename_i same
    subst same
    have source : (call.store.inputs.map (·.source))[call.document]? = some call.source := by
      simp [valid.input, source]
    rw [if_pos (List.getElem?_eq_some_iff.1 source).1, source]
    rfl
  · rfl

theorem keys_objectCopies (call : Appending) :
    (call.scope.objectCopies call.copies).map (·.1) = call.made.map (·.2) := by
  simp [CopyScope.objectCopies, made]

theorem Valid.nodup_copies (valid : call.Valid) : (call.made.map (·.2)).Nodup :=
  valid.tracked.nodup_copies

/-- The numbers of a page and of the copies made for it are new. -/
theorem Valid.made_number (valid : call.Valid) {pair : ObjectId × ObjectId}
    (member : pair ∈ call.made) :
    call.target.number < pair.2.number ∧ pair.2.number < call.copies.next ∧
      pair.2.generation = 0 := by
  obtain ⟨above, below, generation⟩ := valid.tracked.numbered pair member
  exact ⟨above, below, generation⟩

theorem Valid.target_lt (valid : call.Valid) : call.target.number < call.copies.next := by
  have := valid.tracked.next
  simp only [target]
  omega

theorem Valid.get?_target (valid : call.Valid) :
    call.result.output.table.get? call.target = some call.pageCopy := by
  simp [valid.result_output]

theorem Valid.get?_made (valid : call.Valid) {id copy : ObjectId}
    (member : (id, copy) ∈ call.made) :
    call.result.output.table.get? copy = some (call.objectCopy id) := by
  have apart : call.target ≠ copy := by
    intro same
    have := (valid.made_number member).1
    rw [same] at this
    exact Nat.lt_irrefl _ this
  have distinct := valid.nodup_copies
  rw [← keys_objectCopies] at distinct
  rw [valid.result_output]
  simp only [OrderedMap.get?_insert_ne _ _ apart]
  exact OrderedMap.get?_insertAll_of_mem _ distinct
    (List.mem_map.2 ⟨(id, copy), member, rfl⟩)

/-- Everything else in the table stays as it is. -/
theorem Valid.get?_other (valid : call.Valid) {id : ObjectId} (noPage : id ≠ call.target)
    (noCopy : id ∉ call.made.map (·.2)) :
    call.result.output.table.get? id = call.store.output.table.get? id := by
  rw [← keys_objectCopies] at noCopy
  rw [valid.result_output]
  simp only [OrderedMap.get?_insert_ne _ _ (Ne.symm noPage)]
  exact OrderedMap.get?_insertAll_of_notMem _ noCopy

theorem Valid.get?_old (valid : call.Valid) {id : ObjectId}
    (old : id.number < call.store.output.next) :
    call.result.output.table.get? id = call.store.output.table.get? id := by
  apply valid.get?_other
  · rintro rfl
    exact Nat.lt_irrefl _ old
  · intro member
    obtain ⟨pair, inside, rfl⟩ := List.mem_map.1 member
    have := (valid.made_number inside).1
    simp only [target] at this
    omega

theorem Valid.isSome_get?_result (valid : call.Valid) (id : ObjectId) :
    (call.result.output.table.get? id).isSome ↔
      (call.store.output.table.get? id).isSome ∨ id = call.target ∨ id ∈ call.made.map (·.2) := by
  by_cases page : id = call.target
  · subst page
    simp [valid.get?_target]
  by_cases copy : id ∈ call.made.map (·.2)
  · obtain ⟨pair, inside, rfl⟩ := List.mem_map.1 copy
    simp [valid.get?_made inside, copy]
  · simp [valid.get?_other page copy, page, copy]

theorem Valid.bounded (valid : call.Valid) (bounded : call.store.output.Bounded) :
    call.result.output.Bounded := by
  intro id object found
  have grown := valid.target_lt
  rw [valid.next_result]
  rcases (valid.isSome_get?_result id).1 (Option.isSome_of_eq_some found) with before | rfl | copy
  · obtain ⟨original, present⟩ := Option.isSome_iff_exists.1 before
    obtain ⟨generation, below⟩ := bounded id original present
    exact ⟨generation, Nat.lt_trans below grown⟩
  · exact ⟨rfl, grown⟩
  · obtain ⟨pair, inside, rfl⟩ := List.mem_map.1 copy
    obtain ⟨_, below, generation⟩ := valid.made_number inside
    exact ⟨generation, below⟩

end Appending

/-- The stores that appending pages to a store leads to, each with all that was appended. -/
inductive Assembled (start : Store) : List Appending → Store → Prop
  | start : Assembled start [] start
  | append : Assembled start history call.store → call.Valid →
      Assembled start (history ++ [call]) call.result

namespace Assembled

variable {start store : Store} {history : List Appending} {call : Appending}

theorem sources (assembled : Assembled start history store) :
    store.inputs.map (·.source) = start.inputs.map (·.source) := by
  induction assembled with
  | start => rfl
  | append _ valid ih => exact valid.result_sources.trans ih

theorem trans {middle : Store} {later : List Appending} (first : Assembled start history middle)
    (second : Assembled middle later store) : Assembled start (history ++ later) store := by
  induction second with
  | start => simpa using first
  | append _ valid ih =>
    rw [← List.append_assoc]
    exact .append ih valid

/-- The store before a page of the history was appended has a history of its own. -/
theorem before (assembled : Assembled start history store) (member : call ∈ history) :
    call.Valid ∧ ∃ earlier, Assembled start earlier call.store := by
  induction assembled with
  | start => simp at member
  | append previous valid ih =>
    rcases List.mem_append.1 member with old | new
    · exact ih old
    · cases List.mem_singleton.1 new
      exact ⟨valid, _, previous⟩

/-- From the store after a page of the history was appended the rest of the history leads on. -/
theorem after (assembled : Assembled start history store) (member : call ∈ history) :
    ∃ later, Assembled call.result later store := by
  induction assembled with
  | start => simp at member
  | append _ valid ih =>
    rcases List.mem_append.1 member with old | new
    · obtain ⟨later, rest⟩ := ih old
      exact ⟨_, .append rest valid⟩
    · cases List.mem_singleton.1 new
      exact ⟨[], .start⟩

end Assembled

/-- What the output and the shared copies of a store owe to its history. -/
structure Recorded (sources : List Source) (history : List Appending) (store : Store) : Prop where
  inputs : store.inputs.map (·.source) = sources
  valid : ∀ call ∈ history, call.Valid ∧ sources[call.document]? = some call.source
  pages : store.output.pages = history.map Appending.target
  start : Output.catalog.number < store.output.next
  bounded : store.output.Bounded
  ended : ∀ call ∈ history,
    Output.catalog.number < call.target.number ∧ call.copies.next ≤ store.output.next
  ordered : history.Pairwise fun earlier later => earlier.copies.next ≤ later.target.number
  page : ∀ call ∈ history, store.output.table.get? call.target = some call.pageCopy
  object : ∀ call ∈ history, ∀ id copy, (id, copy) ∈ call.made →
    store.output.table.get? copy = some (call.objectCopy id)
  origin : ∀ id object, store.output.table.get? id = some object →
    id = Output.pagesNode ∨ id = Output.catalog ∨
      ∃ call ∈ history, id = call.target ∨ id ∈ call.made.map (·.2)
  shared : ∀ document input, store.inputs[document]? = some input → ∀ id copy,
    input.copies.get? id = some copy ↔
      ∃ call ∈ history, call.document = document ∧ id ∉ call.owned ∧ (id, copy) ∈ call.made
  reused : ∀ call ∈ history, ∀ id copy, call.input.copies.get? id = some copy →
    ∃ earlier ∈ history, earlier.document = call.document ∧
      earlier.copies.next ≤ call.target.number ∧ id ∉ earlier.owned ∧ (id, copy) ∈ earlier.made

theorem recorded_fresh (sources : List Source) (settings : Settings) :
    Recorded sources [] (Store.ofSources sources settings) where
  inputs := by simp [Store.ofSources, Function.comp_def]
  valid := by simp
  pages := rfl
  start := Nat.lt_succ_self 2
  bounded := Output.bounded_empty settings
  ended := by simp
  ordered := .nil
  page := by simp
  object := by simp
  origin := by
    intro id object found
    rcases Output.eq_of_get?_empty found with rfl | rfl
    · exact .inl rfl
    · exact .inr (.inl rfl)
  shared := by
    intro document input found id copy
    obtain ⟨source, _, rfl⟩ : ∃ source, sources[document]? = some source ∧
        { source := source } = input := by simpa [Store.ofSources] using found
    simp
  reused := by simp

namespace Recorded

variable {sources : List Source} {history : List Appending} {call other : Appending}

/-- The numbers of what was appended before are not handed out again. -/
theorem old_target (recorded : Recorded sources history call.store) (member : other ∈ history) :
    other.target.number < call.store.output.next :=
  Nat.lt_of_lt_of_le (recorded.valid other member).1.target_lt (recorded.ended other member).2

theorem old_made (recorded : Recorded sources history call.store) (member : other ∈ history)
    {pair : ObjectId × ObjectId} (made : pair ∈ other.made) :
    pair.2.number < call.store.output.next :=
  Nat.lt_of_lt_of_le ((recorded.valid other member).1.made_number made).2.1
    (recorded.ended other member).2

/-- What is new in the table after a page is appended belongs to this page. -/
theorem origin_append (recorded : Recorded sources history call.store) (valid : call.Valid)
    {id : ObjectId} {object : Object}
    (found : call.result.output.table.get? id = some object) :
    id = Output.pagesNode ∨ id = Output.catalog ∨
      ∃ other ∈ history ++ [call], id = other.target ∨ id ∈ other.made.map (·.2) := by
  rcases (valid.isSome_get?_result id).1 (Option.isSome_of_eq_some found) with before | new
  · obtain ⟨original, present⟩ := Option.isSome_iff_exists.1 before
    rcases recorded.origin id original present with tree | catalog | ⟨other, old, origin⟩
    · exact .inl tree
    · exact .inr (.inl catalog)
    · exact .inr (.inr ⟨other, List.mem_append_left _ old, origin⟩)
  · exact .inr (.inr ⟨call, by simp, new⟩)

/-- The shared copies of a document come from all pages of it so far, those of the page that is
appended included. -/
theorem shared_append (recorded : Recorded sources history call.store) (valid : call.Valid)
    {document : Nat} {input : Input} (found : call.result.inputs[document]? = some input)
    (id copy : ObjectId) : input.copies.get? id = some copy ↔
      ∃ other ∈ history ++ [call], other.document = document ∧ id ∉ other.owned ∧
        (id, copy) ∈ other.made := by
  have split : (∃ other ∈ history ++ [call], other.document = document ∧ id ∉ other.owned ∧
        (id, copy) ∈ other.made) ↔
      (∃ other ∈ history, other.document = document ∧ id ∉ other.owned ∧
        (id, copy) ∈ other.made) ∨
      call.document = document ∧ id ∉ call.owned ∧ (id, copy) ∈ call.made := by
    simp only [List.mem_append, List.mem_singleton, or_and_right, exists_or, exists_eq_left]
  rw [valid.result_inputs, List.getElem?_set] at found
  rw [split]
  split at found
  · rename_i same
    subst same
    have extent : call.document < call.store.inputs.length :=
      (List.getElem?_eq_some_iff.1 valid.input).1
    rw [if_pos extent] at found
    cases found
    rw [valid.tracked.shared, recorded.shared _ _ valid.input]
    simp [Appending.owned, Appending.made]
  · rename_i apart
    rw [recorded.shared _ _ found]
    simp [apart]

theorem append (recorded : Recorded sources history call.store) (valid : call.Valid) :
    Recorded sources (history ++ [call]) call.result where
  inputs := valid.result_sources.trans recorded.inputs
  valid := by
    refine List.forall_mem_append.2 ⟨recorded.valid, List.forall_mem_singleton.2 ⟨valid, ?_⟩⟩
    simp [← recorded.inputs, valid.input, Appending.source]
  pages := by simp [valid.pages_result, recorded.pages]
  start := by
    rw [valid.next_result]
    exact Nat.lt_trans recorded.start valid.target_lt
  bounded := valid.bounded recorded.bounded
  ended := by
    rw [valid.next_result]
    refine List.forall_mem_append.2
      ⟨?_, List.forall_mem_singleton.2 ⟨recorded.start, Nat.le_refl _⟩⟩
    intro other old
    obtain ⟨above, below⟩ := recorded.ended other old
    exact ⟨above, Nat.le_trans below (Nat.le_of_lt valid.target_lt)⟩
  ordered := by
    apply List.pairwise_append.2
    refine ⟨recorded.ordered, List.pairwise_singleton .., ?_⟩
    intro earlier old later new
    cases List.mem_singleton.1 new
    exact (recorded.ended earlier old).2
  page := by
    refine List.forall_mem_append.2 ⟨?_, List.forall_mem_singleton.2 valid.get?_target⟩
    intro other old
    rw [valid.get?_old (recorded.old_target old)]
    exact recorded.page other old
  object := by
    refine List.forall_mem_append.2 ⟨?_, List.forall_mem_singleton.2 ?_⟩
    · intro other old id copy made
      rw [valid.get?_old (recorded.old_made old made)]
      exact recorded.object other old id copy made
    · exact fun id copy made => valid.get?_made made
  origin := fun id object found => recorded.origin_append valid found
  shared := fun document input found => recorded.shared_append valid found
  reused := by
    refine List.forall_mem_append.2 ⟨?_, List.forall_mem_singleton.2 ?_⟩
    · intro other old id copy found
      obtain ⟨earlier, before, made⟩ := recorded.reused other old id copy found
      exact ⟨earlier, List.mem_append_left _ before, made⟩
    · intro id copy found
      obtain ⟨earlier, before, document, made⟩ :=
        (recorded.shared _ _ valid.input id copy).1 found
      exact ⟨earlier, List.mem_append_left _ before, document,
        (recorded.ended earlier before).2, made⟩

end Recorded

theorem Assembled.recorded {sources : List Source} {settings : Settings}
    {history : List Appending} {store : Store}
    (assembled : Assembled (Store.ofSources sources settings) history store) :
    Recorded sources history store := by
  generalize fresh : Store.ofSources sources settings = start at assembled
  induction assembled with
  | start => exact fresh ▸ recorded_fresh sources settings
  | append _ valid ih => exact ih.append valid

end PdfAssembly
