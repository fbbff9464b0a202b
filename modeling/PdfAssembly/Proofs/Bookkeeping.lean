import PdfAssembly.Pipeline.Ledger
import PdfAssembly.Proofs.DryRun

/-! A ledger keeps the books of a store. Whatever is asked of both, in any order and with saves in
between, they answer alike and their outputs have one size, so that a store refuses nothing that
a list of page counts would not refuse. -/
namespace PdfAssembly

open Pdf

inductive Request
  | plan (selection rotation : List String)
  | run (selection rotation : List String)
  | save (moment : Moment)

inductive Answer
  | planned (result : Except Failure Plan)
  | completed (result : Except Failure Summary)
  | saved

def Answer.failure? : Answer → Option Failure
  | planned (.error failure) | completed (.error failure) => some failure
  | _ => none

namespace Pipeline

def respond [Assembler σ] (save : Moment → σ → σ) (state : σ) : Request → Answer × σ
  | .plan selection rotation => (.planned (plan selection rotation state), state)
  | .run selection rotation =>
    let (result, state) := run selection rotation state
    (.completed result, state)
  | .save moment => (.saved, save moment state)

/-- The answers to requests that are made one after the other, each with the number of pages that
the output has then. -/
def transcript (respond : σ → Request → Answer × σ) (size : σ → Nat) :
    List Request → σ → List (Answer × Nat)
  | [], _ => []
  | request :: later, state =>
    let (answer, state) := respond state request
    (answer, size state) :: transcript respond size later state

end Pipeline

namespace Store

def respond : Store → Request → Answer × Store :=
  Pipeline.respond fun moment store => (store.save moment).2

def transcript : List Request → Store → List (Answer × Nat) :=
  Pipeline.transcript respond (·.output.pages.length)

end Store

namespace Ledger

def respond : Ledger → Request → Answer × Ledger := Pipeline.respond fun _ ledger => ledger

def transcript : List Request → Ledger → List (Answer × Nat) :=
  Pipeline.transcript respond (·.output.length)

/-- The ledger has the documents that it has counts for, tells its true size and refuses nothing. -/
structure Honest (ledger : Ledger) : Prop where
  documents : ledger.claimedDocuments = none
  size : ledger.reportedSize = none
  steps : ledger.refused = none

variable {ledger : Ledger}

theorem Honest.pageCounts_eq (honest : ledger.Honest) :
    Pipeline.pageCounts ledger = .ok ledger.counts := by
  apply Pipeline.pageCounts_eq_ok_iff.2
  constructor
  · simp [Assembler.documentCount, honest.documents]
  · intro document inside
    simp [Assembler.pageCount, List.getElem?_eq_getElem inside]

theorem Honest.append_eq (honest : ledger.Honest) (pages : List PageReference) :
    ledger.append pages = (.ok (ledger.output.length + pages.length),
      { ledger with output := ledger.output ++ pages.map (·, none) }) := by
  simp [Ledger.append, honest.steps, honest.size]

/-- Turns of pages that exist are all made, and the number of pages stays. -/
theorem setTurns_of_inside {output : List (PageReference × Option Turn)}
    {turns : List (Nat × Turn)} (inside : ∀ pair ∈ turns, pair.1 < output.length) :
    ∃ after, setTurns output turns = (.ok (), after) ∧ after.length = output.length := by
  induction turns generalizing output with
  | nil => exact ⟨output, rfl, rfl⟩
  | cons pair turns ih =>
    obtain ⟨page, turn⟩ := pair
    obtain ⟨here, later⟩ := List.forall_mem_cons.1 inside
    obtain ⟨⟨reference, old⟩, found⟩ : ∃ entry, output[page]? = some entry :=
      ⟨_, List.getElem?_eq_getElem here⟩
    have still : ∀ pair ∈ turns, pair.1 < (output.set page (reference, some turn)).length := by
      rwa [List.length_set]
    obtain ⟨after, done, size⟩ := ih still
    refine ⟨after, ?_, by rw [size, List.length_set]⟩
    rw [setTurns, found]
    exact done

theorem Honest.turn_eq (honest : ledger.Honest) {turns : TurnMap}
    (below : turns.Below ledger.output.length) : ∃ after : Ledger,
    ledger.turn turns = (.ok (), after) ∧ after.Honest ∧ after.counts = ledger.counts ∧
      after.output.length = ledger.output.length := by
  have inside : ∀ pair ∈ turns.entries, pair.1 < ledger.output.length := by
    rintro ⟨page, turn⟩ member
    exact below page turn (OrderedMap.get?_eq_some_iff.2 member)
  obtain ⟨output, done, size⟩ := setTurns_of_inside inside
  refine ⟨{ ledger with output, turnRequests := ledger.turnRequests + 1 }, ?_, ?_, rfl, size⟩
  · simp [Ledger.turn, honest.steps, done]
  · exact ⟨honest.documents, honest.size, honest.steps⟩

structure Mirrors (ledger : Ledger) (store : Store) : Prop where
  honest : ledger.Honest
  counts : ledger.counts = store.counts
  size : ledger.output.length = store.output.pages.length
  sound : store.output.Sound
  loaded : ∀ source ∈ store.sources, source.Loaded

variable {store : Store} {selection rotation : List String}

theorem mirrors_fresh {sources : List Source} (loaded : ∀ source ∈ sources, source.Loaded)
    (settings : Settings) :
    Mirrors { counts := sources.map (·.pages.length) } (Store.ofSources sources settings) where
  honest := ⟨rfl, rfl, rfl⟩
  counts := by simp [Store.counts]
  size := rfl
  sound := Output.sound_empty settings
  loaded := by simpa using loaded

theorem Mirrors.selected_eq (mirrors : ledger.Mirrors store) :
    Pipeline.selected selection ledger = Pipeline.selected selection store := by
  simp [Pipeline.selected, mirrors.honest.pageCounts_eq, store.pageCounts_eq, mirrors.counts]

theorem Mirrors.plan_eq (mirrors : ledger.Mirrors store) :
    Pipeline.plan selection rotation ledger = Pipeline.plan selection rotation store := by
  simp only [Pipeline.plan, mirrors.selected_eq]

/-- What is selected is appended to both. -/
theorem Mirrors.assemble (mirrors : ledger.Mirrors store) {pages : List PageReference}
    (chosen : Pipeline.selected selection store = .ok pages) : ∃ count ledger' store',
    Assembler.assemble pages ledger = (.ok count, ledger') ∧
      Assembler.assemble pages store = (.ok count, store') ∧
      ledger'.output.length = count ∧ ledger'.Mirrors store' := by
  obtain ⟨history, final, assembled, answers, done⟩ := Pipeline.assemble_selected chosen
  have grown := assembled.length_pages answers
  have sources : final.sources = store.sources := assembled.sources
  have appended := mirrors.honest.append_eq pages
  rw [mirrors.size] at appended
  refine ⟨_, _, final, appended, done, by simp [mirrors.size], ?_⟩
  constructor
  · exact ⟨mirrors.honest.documents, mirrors.honest.size, mirrors.honest.steps⟩
  · rw [Store.counts, sources]
    exact mirrors.counts
  · simp [grown, mirrors.size]
  · exact assembled.sound mirrors.sound mirrors.loaded
  · rw [sources]
    exact mirrors.loaded

theorem Mirrors.applyTurns (mirrors : ledger.Mirrors store) {turns : TurnMap}
    (below : turns.Below ledger.output.length) : ∃ ledger' store',
    Assembler.applyTurns turns ledger = (.ok (), ledger') ∧
      Assembler.applyTurns turns store = (.ok (), store') ∧ ledger'.Mirrors store' := by
  obtain ⟨after, made, honest, counts, size⟩ := mirrors.honest.turn_eq below
  have inside : ∀ pair ∈ turns.entries, pair.1 < store.output.pages.length := by
    rintro ⟨page, turn⟩ member
    exact mirrors.size ▸ below page turn (OrderedMap.get?_eq_some_iff.2 member)
  obtain ⟨output, done, turned⟩ := mirrors.sound.turnPages inside
  have sound := mirrors.sound.after_turnPages turns.entries
  rw [done] at sound
  have pages : output.pages = store.output.pages := by rw [turned.rest]
  refine ⟨after, { store with output }, made, ?_, honest, counts.trans mirrors.counts, ?_, sound,
    mirrors.loaded⟩
  · simp [Assembler.applyTurns, Store.applyTurns, done]
  · rw [size, mirrors.size, pages]

/-- A run ends alike on both, also when it fails after pages were appended, and nothing but a
specification makes it fail. -/
theorem Mirrors.run (mirrors : ledger.Mirrors store) (selection rotation : List String) :
    ∃ result ledger' store', Pipeline.run selection rotation ledger = (result, ledger') ∧
      Pipeline.run selection rotation store = (result, store') ∧ ledger'.Mirrors store' ∧
      ∀ failure, result = .error failure → ∃ error, failure = .spec error := by
  simp only [Pipeline.run, mirrors.selected_eq]
  cases chosen : Pipeline.selected selection store with
  | error failure =>
    obtain ⟨error, rfl⟩ := Pipeline.spec_of_selected_error store.pageCounts_eq chosen
    exact ⟨_, _, _, rfl, rfl, mirrors, by simp⟩
  | ok pages =>
    obtain ⟨count, ledger', store', appended, done, size, mirrors'⟩ := mirrors.assemble chosen
    simp only [appended, done]
    cases resolved : Rotation.resolve rotation count with
    | error error => exact ⟨_, _, _, rfl, rfl, mirrors', by simp⟩
    | ok turns =>
      dsimp only
      split
      · exact ⟨_, _, _, rfl, rfl, mirrors', by simp⟩
      · have below := Rotation.below_resolve resolved
        rw [← size] at below
        obtain ⟨ledger'', store'', made, turned, mirrors''⟩ := mirrors'.applyTurns below
        simp only [made, turned]
        exact ⟨_, _, _, rfl, rfl, mirrors'', by simp⟩

/-- Saving changes neither the documents of a store nor how many pages its output has. -/
theorem Mirrors.save (mirrors : ledger.Mirrors store) (moment : Moment) :
    ledger.Mirrors (store.save moment).2 where
  honest := mirrors.honest
  counts := mirrors.counts
  size := mirrors.size.trans (congrArg List.length (Output.pages_save store.output moment).symm)
  sound := mirrors.sound.save moment
  loaded := mirrors.loaded

/-- Both answer a request alike, and then the ledger still mirrors the store. -/
theorem Mirrors.respond (mirrors : ledger.Mirrors store) (request : Request) :
    ∃ answer ledger' store', ledger.respond request = (answer, ledger') ∧
      store.respond request = (answer, store') ∧ ledger'.Mirrors store' ∧
      ∀ failure, answer.failure? = some failure → ∃ error, failure = .spec error := by
  cases request with
  | plan selection rotation =>
    refine ⟨_, _, _, congrArg (Answer.planned · , ledger) mirrors.plan_eq, rfl, mirrors, ?_⟩
    cases planned : Pipeline.plan selection rotation store with
    | error other =>
      simpa [Answer.failure?] using Pipeline.spec_of_plan_error store.pageCounts_eq planned
    | ok plan => simp [Answer.failure?]
  | run selection rotation =>
    obtain ⟨result, ledger', store', left, right, mirrors', reason⟩ :=
      mirrors.run selection rotation
    refine ⟨.completed result, ledger', store', ?_, ?_, mirrors', ?_⟩
    · simp only [Ledger.respond, Pipeline.respond, left]
    · simp only [Store.respond, Pipeline.respond, right]
    · cases result with
      | error other => simpa [Answer.failure?] using reason
      | ok summary => simp [Answer.failure?]
  | save moment =>
    exact ⟨.saved, ledger, _, rfl, rfl, mirrors.save moment, by simp [Answer.failure?]⟩

theorem Mirrors.transcript (mirrors : ledger.Mirrors store) (requests : List Request) :
    store.transcript requests = ledger.transcript requests ∧
      ∀ entry ∈ store.transcript requests, ∀ failure,
        entry.1.failure? = some failure → ∃ error, failure = .spec error := by
  induction requests generalizing ledger store with
  | nil => exact ⟨rfl, by simp [Store.transcript, Pipeline.transcript]⟩
  | cons request later ih =>
    obtain ⟨answer, ledger', store', left, right, mirrors', reason⟩ := mirrors.respond request
    obtain ⟨same, reasons⟩ := ih mirrors'
    have here : store.transcript (request :: later) =
        (answer, store'.output.pages.length) :: store'.transcript later := by
      simp only [Store.transcript, Pipeline.transcript, right]
    have there : ledger.transcript (request :: later) =
        (answer, ledger'.output.length) :: ledger'.transcript later := by
      simp only [Ledger.transcript, Pipeline.transcript, left]
    rw [here, there, mirrors'.size, same]
    rw [same] at reasons
    exact ⟨rfl, List.forall_mem_cons.2 ⟨reason, reasons⟩⟩

end Ledger

/-- A store of loaded documents gives the same answers as a ledger of their page counts, and its
output always has as many pages as the ledger says. Hence plans and runs fail only because of
what their specifications say, and never because a page cannot be found, copied or turned. -/
theorem ledger_keeps_books {sources : List Source} (loaded : ∀ source ∈ sources, source.Loaded)
    (settings : Settings) (requests : List Request) :
    let store := Store.ofSources sources settings
    store.transcript requests =
        Ledger.transcript requests { counts := sources.map (·.pages.length) } ∧
      ∀ entry ∈ store.transcript requests, ∀ failure, entry.1.failure? = some failure →
        ∃ error, failure = .spec error :=
  (Ledger.mirrors_fresh loaded settings).transcript requests

/-- The second run names a page that the form lacks. The third one fails after it has appended a
page, which the fourth one then counts. -/
def formRequests : List Request :=
  [.run ["1:1,1"] ["2:90"], .save ⟨2024, 2, 29, 12, 0, 0, 0⟩, .run ["1:2"] [],
    .run ["1"] ["4:90"], .run ["1"] ["4,1:180"], .plan ["1"] ["2:90"]]

theorem form_answers_from_books :
    (Store.ofSources [form] {}).transcript formRequests = [
      (.completed (.ok ⟨2, 1⟩), 2), (.saved, 2),
      (.completed (.error (.spec (.invalidPageIndex .selection "2"))), 2),
      (.completed (.error (.spec (.invalidPageIndex .rotation "4:90"))), 3),
      (.completed (.ok ⟨4, 2⟩), 4),
      (.planned (.error (.spec (.invalidPageIndex .rotation "2:90"))), 4)] :=
  (ledger_keeps_books form_loaded {} formRequests).1

end PdfAssembly
