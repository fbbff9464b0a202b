import PdfAssembly.Proofs.Turns

/-! Working with a store: assembling, turning, running pipelines and saving, in any order, whether
they succeed or not. All of it comes down to three kinds of steps: a page is appended, a page is
turned, or the output is saved. -/
namespace PdfAssembly

open Pdf

inductive Operation
  | assemble (references : List PageReference)
  | applyTurns (turns : TurnMap)
  | run (selection rotation : List String)
  | save (moment : Moment)

namespace Store

def perform (store : Store) : Operation → Store
  | .assemble references => (store.assemble references).2
  | .applyTurns turns => (store.applyTurns turns).2
  | .run selection rotation => (Pipeline.run selection rotation store).2
  | .save moment => (store.save moment).2

def performAll : List Operation → Store → Store
  | [], store => store
  | operation :: later, store => performAll later (store.perform operation)

/-- The references of a list that is assembled; a list that is refused has none. -/
def accepted (store : Store) (references : List PageReference) : List PageReference :=
  match store.assemble references with
  | (.ok _, _) => references
  | (.error _, _) => []

def appendedBy (store : Store) : Operation → List PageReference
  | .assemble references => store.accepted references
  | .run selection _ =>
    match Pipeline.selected selection store with
    | .ok references => store.accepted references
    | .error _ => []
  | .applyTurns _ | .save _ => []

def appended : List Operation → Store → List PageReference
  | [], _ => []
  | operation :: later, store =>
    store.appendedBy operation ++ appended later (store.perform operation)

def takenBy (store : Store) : Operation → List Nat
  | .save moment => [(store.save moment).1.streamNumber]
  | .assemble _ | .applyTurns _ | .run _ _ => []

def taken : List Operation → Store → List Nat
  | [], _ => []
  | operation :: later, store => store.takenBy operation ++ taken later (store.perform operation)

end Store

/-- Assembling appends the pages of a list that is accepted and none of one that is refused. -/
theorem Store.assembled_accepted (store : Store) (references : List PageReference) :
    ∃ history, Assembled store history (store.assemble references).2 ∧
      List.Forall₂ (Appending.Answers store.sources) (store.accepted references) history := by
  simp only [Store.accepted]
  split
  · rename_i count final done
    obtain ⟨history, assembled, answers, _⟩ := Assembled.start.assemble done
    rw [List.nil_append] at assembled
    exact ⟨history, done ▸ assembled, answers⟩
  · rename_i failure final done
    exact ⟨[], by simpa only [done, Store.assemble_error done] using Assembled.start, .nil⟩

/-- So does assembling one list after the other, whether they are accepted or not. -/
theorem Store.assembled_batches (batches : List (List PageReference)) (store : Store) :
    ∃ history, Assembled store history (store.performAll (batches.map .assemble)) ∧
      List.Forall₂ (Appending.Answers store.sources)
        (Store.appended (batches.map .assemble) store) history := by
  induction batches generalizing store with
  | nil => exact ⟨[], .start, .nil⟩
  | cons references batches ih =>
    obtain ⟨first, middle, answers⟩ := store.assembled_accepted references
    obtain ⟨later, last, others⟩ := ih (store.assemble references).2
    rw [Store.sources, middle.sources] at others
    exact ⟨first ++ later, middle.trans last, List.rel_append answers others⟩

def Store.Shares (store : Store) : Prop :=
  ∀ input ∈ store.inputs, ∀ id copy, input.copies.get? id = some copy →
    ∃ object, input.source.Copyable id object

theorem Store.shares_ofSources (sources : List Source) (settings : Settings) :
    (ofSources sources settings).Shares := by
  intro input member id copy found
  obtain ⟨source, _, rfl⟩ := List.mem_map.1 member
  simp at found

namespace Appending

variable {call : Appending}

theorem Valid.shares (valid : call.Valid) (before : call.store.Shares) : call.result.Shares := by
  intro input member id copy found
  rw [valid.result_inputs] at member
  rcases List.mem_or_eq_of_mem_set member with old | rfl
  · exact before input old id copy found
  rcases (valid.tracked.shared id copy).1 found with earlier | ⟨_, made⟩
  · exact before call.input (List.mem_of_getElem? valid.input) id copy earlier
  · exact valid.tracked.copyable _ made

theorem Valid.copyable (valid : call.Valid) (shares : call.store.Shares) {id copy : ObjectId}
    (found : call.copy? id = some copy) : ∃ object, call.source.Copyable id object := by
  rcases (valid.tracked.copy id copy).1 found with made | ⟨_, earlier⟩
  · exact valid.tracked.copyable _ made
  · exact shares call.input (List.mem_of_getElem? valid.input) id copy earlier

end Appending

/-- The stores that single steps lead to, with the pages appended on the way and the numbers that
saving took. -/
inductive Session (start : Store) : List Appending → List Nat → Store → Prop
  | start : Session start [] [] start
  | append : Session start history taken call.store → call.Valid →
      Session start (history ++ [call]) taken call.result
  | turn : Session start history taken store → store.output.turnPage position turn = .ok output →
      Session start history taken { store with output }
  | save : Session start history taken store →
      Session start history (taken ++ [(store.save moment).1.streamNumber]) (store.save moment).2

namespace Session

variable {start store final : Store} {history later : List Appending} {taken : List Nat}

theorem sources (session : Session start history taken store) : store.sources = start.sources := by
  induction session with
  | start => rfl
  | append _ valid ih => exact valid.result_sources.trans ih
  | turn _ _ ih => exact ih
  | save _ ih => exact ih

/-- The store before a page of the history was appended has a session of its own. -/
theorem before {call : Appending} (session : Session start history taken store)
    (member : call ∈ history) :
    call.Valid ∧ ∃ earlier used, Session start earlier used call.store := by
  induction session with
  | start => simp at member
  | append previous valid ih =>
    rcases List.mem_append.1 member with old | new
    · exact ih old
    · cases List.mem_singleton.1 new
      exact ⟨valid, _, _, previous⟩
  | turn _ _ ih => exact ih member
  | save _ ih => exact ih member

theorem shares (session : Session start history taken store) (fresh : start.Shares) :
    store.Shares := by
  induction session with
  | start => exact fresh
  | append _ valid ih => exact valid.shares ih
  | turn _ _ ih => exact ih
  | save _ ih => exact ih

theorem assembled (session : Session start history taken store)
    (assembled : Assembled store later final) : Session start (history ++ later) taken final := by
  induction assembled with
  | start => simpa using session
  | append _ valid ih =>
    rw [← List.append_assoc]
    exact .append ih valid

theorem turnPages (session : Session start history taken store) (turns : List (Nat × Turn)) :
    Session start history taken
      { store with output := (Store.turnPages turns store.output).2 } := by
  induction turns generalizing store with
  | nil => exact session
  | cons pair turns ih =>
    obtain ⟨position, turn⟩ := pair
    cases step : store.output.turnPage position turn with
    | error failure => simpa only [Store.turnPages, step] using session
    | ok output => simpa only [Store.turnPages, step] using ih (.turn session step)

theorem assemble (session : Session start history taken store)
    (references : List PageReference) : ∃ later,
      Session start (history ++ later) taken (store.assemble references).2 ∧
      List.Forall₂ (Appending.Answers start.sources) (store.accepted references) later := by
  obtain ⟨later, assembled, answers⟩ := store.assembled_accepted references
  rw [session.sources] at answers
  exact ⟨later, session.assembled assembled, answers⟩

theorem run (session : Session start history taken store) (selection rotation : List String) :
    ∃ later, Session start (history ++ later) taken (Pipeline.run selection rotation store).2 ∧
      List.Forall₂ (Appending.Answers start.sources)
        (store.appendedBy (.run selection rotation)) later := by
  simp only [Pipeline.run, Store.appendedBy]
  cases Pipeline.selected selection store with
  | error failure => exact ⟨[], by simpa using session, .nil⟩
  | ok references =>
    obtain ⟨later, assembled, answers⟩ := session.assemble references
    refine ⟨later, ?_, answers⟩
    simp only [Assembler.assemble]
    cases done : store.assemble references with
    | mk result final =>
      rw [done] at assembled
      cases result with
      | error failure => exact assembled
      | ok count =>
        dsimp only
        -- The pages stay appended when the rotation is refused or a turn fails.
        cases Rotation.resolve rotation count with
        | error error => exact assembled
        | ok turns =>
          have turned := assembled.turnPages turns.entries
          simp only [Assembler.applyTurns, Store.applyTurns]
          split
          · exact assembled
          · cases made : Store.turnPages turns.entries final.output with
            | mk result output =>
              rw [made] at turned
              cases result <;> exact turned

theorem perform (session : Session start history taken store) (operation : Operation) :
    ∃ later, Session start (history ++ later) (taken ++ store.takenBy operation)
        (store.perform operation) ∧
      List.Forall₂ (Appending.Answers start.sources) (store.appendedBy operation) later := by
  cases operation with
  | assemble references =>
    rw [Store.takenBy, List.append_nil]
    exact session.assemble references
  | applyTurns turns =>
    refine ⟨[], ?_, .nil⟩
    rw [Store.takenBy, List.append_nil, List.append_nil]
    exact session.turnPages turns.entries
  | run selection rotation =>
    rw [Store.takenBy, List.append_nil]
    exact session.run selection rotation
  | save moment =>
    refine ⟨[], ?_, .nil⟩
    rw [List.append_nil]
    exact .save session

/-- Operations are steps, and the pages appended by them are those that references name. -/
theorem performAll (session : Session start history taken store) (operations : List Operation) :
    ∃ later, Session start (history ++ later) (taken ++ Store.taken operations store)
        (Store.performAll operations store) ∧
      List.Forall₂ (Appending.Answers start.sources) (Store.appended operations store) later := by
  induction operations generalizing history taken store with
  | nil =>
    refine ⟨[], ?_, .nil⟩
    rw [Store.taken, List.append_nil, List.append_nil]
    exact session
  | cons operation operations ih =>
    obtain ⟨first, middle, answers⟩ := session.perform operation
    obtain ⟨later, last, others⟩ := ih middle
    refine ⟨first ++ later, ?_, List.rel_append answers others⟩
    simpa only [Store.taken, Store.performAll, List.append_assoc] using last

/-- All that is done with a fresh store is a session. -/
theorem ofSources (sources : List Source) (settings : Settings) (operations : List Operation) :
    let start := Store.ofSources sources settings
    ∃ history, Session start history (Store.taken operations start)
        (Store.performAll operations start) ∧
      List.Forall₂ (Appending.Answers sources) (Store.appended operations start) history := by
  intro start
  obtain ⟨history, session, answers⟩ := Session.start.performAll operations
  rw [List.nil_append, List.nil_append] at session
  rw [Store.sources_ofSources] at answers
  exact ⟨history, session, answers⟩

end Session

end PdfAssembly
