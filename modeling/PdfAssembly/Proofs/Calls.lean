import PdfAssembly.Pipeline.Ledger
import PdfAssembly.Proofs.Bounds
import PdfAssembly.Proofs.DryRun

/-! What a run asks of the assembler that it works on, whatever this is, whatever it reports and
wherever it fails. Pages are appended once and turned once at most; the first step that fails ends
the run, and the assembler is left as it was after the last thing asked of it. -/
namespace PdfAssembly

inductive Call
  | assemble (pages : List PageReference)
  | applyTurns (turns : TurnMap)

/-- An assembler with all that has been asked of it, in order. -/
structure Observed (σ : Type) where
  state : σ
  calls : List Call := []

variable {σ : Type} [Assembler σ]

def Call.after (state : σ) : Call → σ
  | assemble pages => (Assembler.assemble pages state).2
  | applyTurns turns => (Assembler.applyTurns turns state).2

instance : Assembler (Observed σ) where
  documentCount observed := Assembler.documentCount observed.state
  pageCount observed := Assembler.pageCount observed.state
  assemble pages observed :=
    let (result, state) := Assembler.assemble pages observed.state
    (result, ⟨state, observed.calls ++ [.assemble pages]⟩)
  applyTurns turns observed :=
    let (result, state) := Assembler.applyTurns turns observed.state
    (result, ⟨state, observed.calls ++ [.applyTurns turns]⟩)

theorem assemble_observed (pages : List PageReference) (observed : Observed σ) :
    Assembler.assemble pages observed = ((Assembler.assemble pages observed.state).1,
      ⟨(Assembler.assemble pages observed.state).2, observed.calls ++ [.assemble pages]⟩) := rfl

theorem applyTurns_observed (turns : TurnMap) (observed : Observed σ) :
    Assembler.applyTurns turns observed = ((Assembler.applyTurns turns observed.state).1,
      ⟨(Assembler.applyTurns turns observed.state).2, observed.calls ++ [.applyTurns turns]⟩) := rfl

namespace Pipeline

variable {selection rotation : List String} {state : σ}

/-- The ways in which a run can end: what it has called by then, what it answers and the state
that it leaves. -/
inductive Ends (selection rotation : List String) (state : σ) :
    List Call → Except Failure Summary → σ → Prop
  | unselected (failure : Failure) : selected selection state = .error failure →
      Ends selection rotation state [] (.error failure) state
  | unassembled (pages : List PageReference) (failure : Failure) (left : σ) :
      selected selection state = .ok pages →
      Assembler.assemble pages state = (.error failure, left) →
      Ends selection rotation state [.assemble pages] (.error failure) left
  | unresolved (pages : List PageReference) (count : Nat) (error : SpecError) (left : σ) :
      selected selection state = .ok pages →
      Assembler.assemble pages state = (.ok count, left) →
      Rotation.resolve rotation count = .error error →
      Ends selection rotation state [.assemble pages] (.error (.spec error)) left
  | upright (pages : List PageReference) (count : Nat) (turns : TurnMap) (left : σ) :
      selected selection state = .ok pages →
      Assembler.assemble pages state = (.ok count, left) →
      Rotation.resolve rotation count = .ok turns → turns.isEmpty = true →
      Ends selection rotation state [.assemble pages] (.ok ⟨count, 0⟩) left
  | unturned (pages : List PageReference) (count : Nat) (turns : TurnMap) (failure : Failure)
      (appended left : σ) :
      selected selection state = .ok pages →
      Assembler.assemble pages state = (.ok count, appended) →
      Rotation.resolve rotation count = .ok turns → turns.isEmpty = false →
      Assembler.applyTurns turns appended = (.error failure, left) →
      Ends selection rotation state [.assemble pages, .applyTurns turns] (.error failure) left
  | turned (pages : List PageReference) (count : Nat) (turns : TurnMap) (appended left : σ) :
      selected selection state = .ok pages →
      Assembler.assemble pages state = (.ok count, appended) →
      Rotation.resolve rotation count = .ok turns → turns.isEmpty = false →
      Assembler.applyTurns turns appended = (.ok (), left) →
      Ends selection rotation state [.assemble pages, .applyTurns turns]
        (.ok ⟨count, turns.size⟩) left

/-- Being observed changes neither the answer nor the state, and there are no other ways to end. -/
theorem run_ends (selection rotation : List String) (state : σ) : ∃ calls result left,
    run selection rotation (Observed.mk state []) = (result, ⟨left, calls⟩) ∧
      run selection rotation state = (result, left) ∧
      Ends selection rotation state calls result left := by
  have seen : selected selection (Observed.mk state []) = selected selection state := rfl
  simp only [run, seen]
  cases chosen : selected selection state with
  | error failure => exact ⟨_, _, _, rfl, rfl, .unselected _ chosen⟩
  | ok pages =>
    dsimp only
    rw [assemble_observed]
    rcases asked : Assembler.assemble pages state with ⟨_ | count, appended⟩
    · exact ⟨_, _, _, rfl, rfl, .unassembled _ _ _ chosen asked⟩
    dsimp only
    cases resolved : Rotation.resolve rotation count with
    | error error => exact ⟨_, _, _, rfl, rfl, .unresolved _ _ _ _ chosen asked resolved⟩
    | ok turns =>
      dsimp only
      cases none : turns.isEmpty with
      | true => exact ⟨_, _, _, rfl, rfl, .upright _ _ _ _ chosen asked resolved none⟩
      | false =>
        simp only [applyTurns_observed, Bool.false_eq_true, if_false]
        rcases made : Assembler.applyTurns turns appended with ⟨_ | _, left⟩
        · exact ⟨_, _, _, rfl, rfl, .unturned _ _ _ _ _ _ chosen asked resolved none made⟩
        · exact ⟨_, _, _, rfl, rfl, .turned _ _ _ _ _ chosen asked resolved none made⟩

/-- The answer of a run: that of the first of its steps that fails, in this order, or else the
count that was reported and the number of pages that were to be turned. -/
def answer (selection rotation : List String) (state : σ) : Except Failure Summary := do
  let counts ← pageCounts state
  let pages ← liftSpec (Selection.resolve selection counts)
  let count ← (Assembler.assemble pages state).1
  let turns ← liftSpec (Rotation.resolve rotation count)
  if turns.isEmpty = false then
    (Assembler.applyTurns turns (Assembler.assemble pages state).2).1
  return ⟨count, turns.size⟩

structure Respects (selection rotation : List String) (state : σ) (calls : List Call)
    (result : Except Failure Summary) (left : σ) : Prop where
  /-- The selection is resolved against one page count for each document. -/
  counted : ∀ counts, pageCounts state = .ok counts ↔
    Assembler.documentCount state = counts.length ∧
      ∀ document (inside : document < counts.length),
        Assembler.pageCount state document = .ok counts[document]
  /-- The first document that has none decides how counting fails. -/
  uncounted : ∀ failure, pageCounts state = .error failure ↔
    ∃ document < Assembler.documentCount state,
      Assembler.pageCount state document = .error failure ∧
      ∀ earlier < document, ∃ count, Assembler.pageCount state earlier = .ok count
  /-- Pages are appended once at most, and turned once at most after that. -/
  order : ∃ pages turns, calls <+: [.assemble pages, .applyTurns turns]
  /-- Pages are appended as soon as the selection resolves, and they are what it resolves to. -/
  assembled : ∀ pages, .assemble pages ∈ calls ↔
    ∃ counts, pageCounts state = .ok counts ∧ Selection.resolve selection counts = .ok pages
  /-- Pages are turned as soon as some are appended and there is a turn to be made. -/
  turned : ∀ turns, .applyTurns turns ∈ calls ↔ ∃ pages count, .assemble pages ∈ calls ∧
    (Assembler.assemble pages state).1 = .ok count ∧
    Rotation.resolve rotation count = .ok turns ∧ turns.isEmpty = false
  /-- Only pages are turned that there are according to the count that was reported. -/
  below : ∀ pages turns count, .assemble pages ∈ calls → .applyTurns turns ∈ calls →
    (Assembler.assemble pages state).1 = .ok count → turns.Below count
  answered : result = answer selection rotation state
  after : left = calls.foldl Call.after state
  /-- If nothing can be selected, nothing has changed. -/
  untouched : ∀ failure, selected selection state = .error failure → calls = [] ∧ left = state
  /-- If the rotation does not resolve, pages have been appended and none is turned. -/
  unturned : ∀ pages count error, selected selection state = .ok pages →
    (Assembler.assemble pages state).1 = .ok count →
    Rotation.resolve rotation count = .error error →
    calls = [.assemble pages] ∧ left = (Assembler.assemble pages state).2

theorem pageCounts_eq_error_iff {failure : Failure} : pageCounts state = .error failure ↔
    ∃ document < Assembler.documentCount state,
      Assembler.pageCount state document = .error failure ∧
      ∀ earlier < document, ∃ count, Assembler.pageCount state earlier = .ok count := by
  simp only [pageCounts, mapM_eq_error_iff, comesTo_range]
  constructor
  · rintro ⟨document, ⟨inside, earlier⟩, failed⟩
    exact ⟨document, inside, failed, earlier⟩
  · rintro ⟨document, inside, failed, earlier⟩
    exact ⟨document, ⟨inside, earlier⟩, failed⟩

theorem selected_eq_ok {pages : List PageReference} :
    selected selection state = .ok pages ↔
      ∃ counts, pageCounts state = .ok counts ∧ Selection.resolve selection counts = .ok pages := by
  simp only [selected, bind_eq_ok_iff, liftSpec_eq_ok_iff]

theorem answer_eq (selection rotation : List String) (state : σ) :
    answer selection rotation state = (do
      let pages ← selected selection state
      let count ← (Assembler.assemble pages state).1
      let turns ← liftSpec (Rotation.resolve rotation count)
      if turns.isEmpty = false then
        (Assembler.applyTurns turns (Assembler.assemble pages state).2).1
      return ⟨count, turns.size⟩) := by
  simp only [answer, selected, bind_assoc]

theorem size_eq_zero {turns : TurnMap} (none : turns.isEmpty = true) : turns.size = 0 :=
  List.length_eq_zero_iff.2 (List.isEmpty_iff.1 none)

namespace Ends

variable {calls : List Call} {result : Except Failure Summary} {left : σ}

theorem order (ending : Ends selection rotation state calls result left) :
    ∃ pages turns, calls <+: [.assemble pages, .applyTurns turns] := by
  cases ending with
  | unselected => exact ⟨[], ∅, List.nil_prefix⟩
  | unassembled pages | unresolved pages | upright pages => exact ⟨pages, ∅, by simp⟩
  | unturned pages _ turns | turned pages _ turns => exact ⟨pages, turns, List.prefix_rfl⟩

theorem assembles_iff (ending : Ends selection rotation state calls result left)
    (pages : List PageReference) :
    .assemble pages ∈ calls ↔ selected selection state = .ok pages := by
  cases ending with
  | unselected _ failed => simp [failed]
  | unassembled _ _ _ chosen | unresolved _ _ _ _ chosen | upright _ _ _ _ chosen =>
    simp [chosen, eq_comm]
  | unturned _ _ _ _ _ _ chosen | turned _ _ _ _ _ chosen => simp [chosen, eq_comm]

theorem turns_iff (ending : Ends selection rotation state calls result left) (turns : TurnMap) :
    .applyTurns turns ∈ calls ↔ ∃ pages count, .assemble pages ∈ calls ∧
      (Assembler.assemble pages state).1 = .ok count ∧
      Rotation.resolve rotation count = .ok turns ∧ turns.isEmpty = false := by
  cases ending with
  | unselected => simp
  | unassembled _ _ _ _ asked => simp [asked]
  | unresolved _ _ _ _ _ asked resolved => simp [asked, resolved]
  | upright _ _ _ _ _ asked resolved none =>
    simp only [List.mem_singleton, reduceCtorEq, false_iff]
    rintro ⟨_, _, same, counted, found, some⟩
    simp_all
  | unturned _ _ _ _ _ _ _ asked resolved some | turned _ _ _ _ _ _ asked resolved some =>
    simp only [List.mem_cons, reduceCtorEq, Call.applyTurns.injEq, false_or, List.not_mem_nil,
      or_false, Call.assemble.injEq]
    constructor
    · rintro rfl
      exact ⟨_, _, rfl, by rw [asked], resolved, some⟩
    · rintro ⟨_, _, rfl, counted, found, _⟩
      simp_all

theorem answered (ending : Ends selection rotation state calls result left) :
    result = answer selection rotation state := by
  rw [answer_eq]
  cases ending with
  | unselected _ failed => rw [failed]; rfl
  | unassembled _ _ _ chosen asked => simp [chosen, asked, bind, Except.bind]
  | unresolved _ _ _ _ chosen asked resolved =>
    simp [chosen, asked, resolved, liftSpec, bind, Except.bind]
  | upright _ _ _ _ chosen asked resolved none =>
    simp [chosen, asked, resolved, none, liftSpec, bind, Except.bind, pure, Except.pure,
      size_eq_zero none]
  | unturned _ _ _ _ _ _ chosen asked resolved some made
  | turned _ _ _ _ _ chosen asked resolved some made =>
    simp [chosen, asked, resolved, some, made, liftSpec, bind, Except.bind, pure, Except.pure]

theorem after (ending : Ends selection rotation state calls result left) :
    left = calls.foldl Call.after state := by
  cases ending with
  | unselected => rfl
  | unassembled _ _ _ _ asked | unresolved _ _ _ _ _ asked | upright _ _ _ _ _ asked =>
    simp [Call.after, asked]
  | unturned _ _ _ _ _ _ _ asked _ _ made | turned _ _ _ _ _ _ asked _ _ made =>
    simp [Call.after, asked, made]

end Ends

/-- Whatever it works on, a run respects it. -/
theorem run_respects_assembler (selection rotation : List String) (state : σ) :
    ∃ calls result left,
      run selection rotation (Observed.mk state []) = (result, ⟨left, calls⟩) ∧
      run selection rotation state = (result, left) ∧
      Respects selection rotation state calls result left := by
  obtain ⟨calls, result, left, observed, done, ending⟩ := run_ends selection rotation state
  refine ⟨calls, result, left, observed, done, ?_⟩
  exact {
    counted := fun _ => pageCounts_eq_ok_iff
    uncounted := fun _ => pageCounts_eq_error_iff
    order := ending.order
    assembled := fun pages => (ending.assembles_iff pages).trans selected_eq_ok
    turned := ending.turns_iff
    below := by
      intro pages turns count appended turned counted
      obtain ⟨other, reported, present, asked, resolved, _⟩ := (ending.turns_iff turns).1 turned
      have same := (ending.assembles_iff other).1 present
      rw [(ending.assembles_iff pages).1 appended] at same
      cases same
      rw [counted] at asked
      cases asked
      exact Rotation.below_resolve resolved
    answered := ending.answered
    after := ending.after
    untouched := by
      intro failure failed
      cases ending <;> simp_all
    unturned := by
      intro pages count error chosen counted failed
      cases ending <;> simp_all }

end Pipeline

namespace Ledger

variable {ledger : Ledger} {selection rotation : List String} {pages : List PageReference}

/-- Where a ledger claims documents that it has no counts for, nothing is selected. -/
theorem run_of_claimed {claimed : Nat} (claims : ledger.claimedDocuments = some claimed)
    (beyond : ledger.counts.length < claimed) : Pipeline.run selection rotation ledger =
      (.error (.documentOutOfRange ledger.counts.length ledger.counts.length), ledger) := by
  have failed : Pipeline.pageCounts ledger =
      .error (.documentOutOfRange ledger.counts.length ledger.counts.length) := by
    apply Pipeline.pageCounts_eq_error_iff.2
    refine ⟨ledger.counts.length, ?_, ?_, fun earlier below => ⟨ledger.counts[earlier], ?_⟩⟩
    · simpa [Assembler.documentCount, claims] using beyond
    · simp [Assembler.pageCount]
    · simp [Assembler.pageCount, below]
  simp only [Pipeline.run, Pipeline.selected, failed]
  rfl

/-- A ledger that refuses to append pages stays as it is. -/
theorem run_of_refused_assemble (refuses : ledger.refused = some .assemble)
    (chosen : Pipeline.selected selection ledger = .ok pages) :
    Pipeline.run selection rotation ledger =
      (.error (.pdf (.reported "assemble failed")), ledger) := by
  simp [Pipeline.run, chosen, Assembler.assemble, append, refuses]

/-- The size that is reported decides whether a rotation resolves, whatever the true size is. The
pages that were appended stay. -/
theorem run_of_reported {size : Nat} {error : SpecError} (reports : ledger.reportedSize = some size)
    (accepts : ledger.refused ≠ some .assemble)
    (chosen : Pipeline.selected selection ledger = .ok pages)
    (unresolved : Rotation.resolve rotation size = .error error) :
    Pipeline.run selection rotation ledger =
      (.error (.spec error), { ledger with output := ledger.output ++ pages.map (·, none) }) := by
  simp [Pipeline.run, chosen, Assembler.assemble, append, accepts, reports, unresolved]

-- Two pages are appended, but with one reported there is no second one to turn.
example : Pipeline.run ["1:1-2"] ["2:90"] ({ counts := [2], reportedSize := some 1 } : Ledger) =
    (.error (.spec (.invalidPageIndex .rotation "2:90")),
      { counts := [2], reportedSize := some 1,
        output := [(⟨0, 0⟩, none), (⟨0, 1⟩, none)] }) := by rfl

/-- A ledger that refuses to turn pages has appended them all the same. -/
theorem run_of_refused_turns {turns : TurnMap} (refuses : ledger.refused = some .applyTurns)
    (chosen : Pipeline.selected selection ledger = .ok pages)
    (resolved : Rotation.resolve rotation
      (ledger.reportedSize.getD (ledger.output.length + pages.length)) = .ok turns)
    (some_turn : turns.isEmpty = false) : Pipeline.run selection rotation ledger =
      (.error (.pdf (.reported "apply failed")),
        { ledger with output := ledger.output ++ pages.map (·, none),
                      turnRequests := ledger.turnRequests + 1 }) := by
  simp [Pipeline.run, chosen, Assembler.assemble, append, refuses, resolved, some_turn,
    Assembler.applyTurns, turn]

end Ledger

end PdfAssembly
