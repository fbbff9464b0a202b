import PdfAssembly.Cli.Program
import PdfAssembly.Proofs.Bounds
import PdfAssembly.Proofs.Copying
import PdfAssembly.Proofs.Saving
import PdfAssembly.Proofs.Turns

/-! What a plan promises, a run does: both fail alike, and otherwise the file that is written has
the planned pages with the planned turns. -/
namespace PdfAssembly

open Pdf

theorem turnsAt_of_notMem {position : Nat} {turns : List (Nat × Turn)}
    (absent : position ∉ turns.map (·.1)) : turnsAt position turns = [] := by
  simp only [turnsAt, List.map_eq_nil_iff, List.filter_eq_nil_iff, decide_eq_true_eq]
  rintro pair member rfl
  exact absent (List.mem_map.2 ⟨pair, member, rfl⟩)

/-- A page has one turn at most. -/
theorem turnsAt_entries (turns : TurnMap) (position : Nat) :
    turnsAt position turns.entries = (turns.get? position).toList := by
  have distinct : (turns.entries.map (·.1)).Nodup := turns.nodup_keys
  simp only [OrderedMap.get?]
  generalize turns.entries = entries at distinct ⊢
  induction entries with
  | nil => rfl
  | cons entry rest ih =>
    obtain ⟨other, turn⟩ := entry
    obtain ⟨fresh, others⟩ := List.nodup_cons.1 distinct
    by_cases same : other = position
    · subst same
      rw [turnsAt_cons_self, turnsAt_of_notMem fresh]
      simp [Entries.find?]
    · simpa [turnsAt_cons_ne same, Entries.find?, same] using ih others

/-- Page counts are known if every document tells its own. -/
theorem Pipeline.pageCounts_eq_ok_iff [Assembler σ] {state : σ} {counts : List Nat} :
    pageCounts state = .ok counts ↔ Assembler.documentCount state = counts.length ∧
      ∀ document (inside : document < counts.length),
        Assembler.pageCount state document = .ok counts[document] := by
  rw [pageCounts, mapM_eq_ok_iff, List.forall₂_iff_get]
  constructor
  · rintro ⟨documents, each⟩
    refine ⟨by simpa using documents, fun document inside => ?_⟩
    simpa using each document (documents ▸ inside) inside
  · rintro ⟨documents, each⟩
    refine ⟨by simpa using documents, fun document _ inside => ?_⟩
    simpa using each document inside

namespace Store

def counts (store : Store) : List Nat := store.sources.map (·.pages.length)

theorem pageCounts_eq (store : Store) : Pipeline.pageCounts store = .ok store.counts := by
  apply Pipeline.pageCounts_eq_ok_iff.2
  constructor
  · simp [counts, sources, Assembler.documentCount]
  · intro document inside
    have present : document < store.inputs.length := by simpa [counts, sources] using inside
    simp [Assembler.pageCount, pageCount, counts, sources, List.getElem?_eq_getElem present]

/-- Pages that exist are located. -/
theorem exists_locate {store : Store} {reference : PageReference}
    (inside : reference.InRange store.counts) : ∃ page, store.locate reference = .ok page := by
  obtain ⟨count, found, below⟩ := inside
  rw [counts, List.getElem?_map, Option.map_eq_some_iff] at found
  obtain ⟨source, document, rfl⟩ := found
  exact ⟨_, locate_eq_ok_iff.2 ⟨source, document, List.getElem?_eq_getElem below⟩⟩

/-- Pages that exist are all appended. -/
theorem assemble_of_inRange {store : Store} {references : List PageReference}
    (inside : ∀ reference ∈ references, reference.InRange store.counts) :
    ∃ history final, store.assemble references = (.ok final.output.pages.length, final) ∧
      Assembled store history final ∧
      List.Forall₂ (Appending.Answers store.sources) references history := by
  obtain ⟨pages, located⟩ := exists_mapM_eq_ok fun reference member =>
    exists_locate (inside reference member)
  obtain ⟨final, done⟩ :
      ∃ final, store.assemble references = (.ok final.output.pages.length, final) := by
    simp only [assemble, located]
    exact ⟨_, rfl⟩
  obtain ⟨history, assembled, answers, _⟩ := Assembled.start.assemble done
  exact ⟨history, final, done, by simpa using assembled, answers⟩

end Store

structure Fulfilled (sources : List Source) (settings : Settings) (plan : Plan)
    (history : List Appending) (store : Store) (output : Output) : Prop where
  assembled : Assembled (Store.ofSources sources settings) history store
  answers : List.Forall₂ (Appending.Answers sources) plan.pages history
  below : plan.turns.Below plan.pages.length
  turned : Output.Turned plan.turns.entries store.output output

namespace Pipeline

variable {sources : List Source} {settings : Settings} {selection rotation : List String}

theorem liftSpec_eq_ok_iff {result : Except SpecError α} {value : α} :
    liftSpec result = .ok value ↔ result = .ok value := by
  cases result <;> simp [liftSpec]

theorem selected_eq_ok_iff [Assembler σ] {state : σ} {counts : List Nat}
    {pages : List PageReference} (counted : pageCounts state = .ok counts) :
    selected selection state = .ok pages ↔ Selection.resolve selection counts = .ok pages := by
  simp [selected, counted, bind_eq_ok_iff, liftSpec_eq_ok_iff]

/-- With page counts that are known, only a specification can be at fault. -/
theorem spec_of_selected_error [Assembler σ] {state : σ} {counts : List Nat} {failure : Failure}
    (counted : pageCounts state = .ok counts)
    (failed : selected selection state = .error failure) : ∃ error, failure = .spec error := by
  simp only [selected, counted, bind, Except.bind] at failed
  cases resolved : Selection.resolve selection counts with
  | error error => exact ⟨error, by simpa [resolved, liftSpec, eq_comm] using failed⟩
  | ok pages => simp [resolved, liftSpec] at failed

theorem spec_of_plan_error [Assembler σ] {state : σ} {counts : List Nat} {failure : Failure}
    (counted : pageCounts state = .ok counts)
    (failed : plan selection rotation state = .error failure) : ∃ error, failure = .spec error := by
  simp only [plan] at failed
  cases chosen : selected selection state with
  | error other =>
    rw [chosen] at failed
    cases failed
    exact spec_of_selected_error counted chosen
  | ok pages =>
    rw [chosen] at failed
    cases resolved : Rotation.resolve rotation pages.length with
    | error error =>
      simp only [resolved, liftSpec, bind, Except.bind, Except.error.injEq] at failed
      exact ⟨error, failed.symm⟩
    | ok turns => simp [resolved, liftSpec, bind, Except.bind, pure, Except.pure] at failed

/-- What is selected can be appended, and the output grows by as many pages. -/
theorem assemble_selected {store : Store} {pages : List PageReference}
    (chosen : selected selection store = .ok pages) :
    ∃ history final, Assembled store history final ∧
      List.Forall₂ (Appending.Answers store.sources) pages history ∧
      Assembler.assemble pages store =
        (.ok (store.output.pages.length + pages.length), final) := by
  have resolved := (selected_eq_ok_iff store.pageCounts_eq).1 chosen
  have inside := Selection.inRange_resolve resolved
  obtain ⟨history, final, done, assembled, answers⟩ := Store.assemble_of_inRange inside
  exact ⟨history, final, assembled, answers, assembled.length_pages answers ▸ done⟩

theorem run_of_plan_error {failure : Failure}
    (planned : plan selection rotation (Store.ofSources sources settings) = .error failure) :
    ∃ store, run selection rotation (Store.ofSources sources settings) =
      (.error failure, store) := by
  simp only [plan] at planned
  cases chosen : selected selection (Store.ofSources sources settings) with
  | error other =>
    rw [chosen] at planned
    cases planned
    exact ⟨_, by rw [run, chosen]⟩
  | ok pages =>
    obtain ⟨history, store, _, _, done⟩ := assemble_selected chosen
    rw [Store.pages_ofSources, List.length_nil, Nat.zero_add] at done
    rw [chosen] at planned
    cases resolved : Rotation.resolve rotation pages.length with
    | ok turns => simp [resolved, liftSpec, bind, Except.bind, pure, Except.pure] at planned
    | error error =>
      simp only [resolved, liftSpec, bind, Except.bind, Except.error.injEq] at planned
      refine ⟨store, ?_⟩
      simp only [run, chosen, done, resolved, planned]

theorem run_of_plan_ok {plan : Plan} (loaded : ∀ source ∈ sources, source.Loaded)
    (planned : Pipeline.plan selection rotation (Store.ofSources sources settings) = .ok plan) :
    ∃ history store output, Fulfilled sources settings plan history store output ∧
      output.Sound ∧ run selection rotation (Store.ofSources sources settings) =
        (.ok ⟨plan.pages.length, plan.turns.size⟩, { store with output }) := by
  obtain ⟨pages, chosen, rest⟩ := bind_eq_ok_iff.1 planned
  obtain ⟨turns, resolved, same⟩ := bind_eq_ok_iff.1 rest
  cases same
  rw [liftSpec_eq_ok_iff] at resolved
  obtain ⟨history, store, assembled, answers, done⟩ := assemble_selected chosen
  rw [Store.pages_ofSources, List.length_nil, Nat.zero_add] at done
  rw [Store.sources_ofSources] at answers
  have sound := assembled.sound (Output.sound_empty settings) (by simpa using loaded)
  have below := Rotation.below_resolve resolved
  have listed : store.output.pages.length = pages.length := by
    rw [assembled.recorded.pages, List.length_map, answers.length_eq]
  have inside : ∀ pair ∈ turns.entries, pair.1 < store.output.pages.length := by
    rintro ⟨position, turn⟩ member
    rw [listed]
    exact below position turn (OrderedMap.get?_eq_some_iff.2 member)
  obtain ⟨output, turned, changes⟩ := sound.turnPages inside
  have kept := sound.after_turnPages turns.entries
  rw [turned] at kept
  refine ⟨history, store, output, ⟨assembled, answers, below, changes⟩, kept, ?_⟩
  simp only [run, chosen, done, resolved]
  -- Without turns none are asked for, which leaves the output as no turns would.
  split
  · rename_i none
    have empty : turns.entries = [] := List.isEmpty_iff.1 none
    rw [empty] at turned
    cases turned
    simp [OrderedMap.size, empty]
  · simp [Assembler.applyTurns, Store.applyTurns, turned]

end Pipeline

namespace Program

variable {arguments : Arguments} {files : FileSystem}

/-- A run for real looks at the output too, but that is all it does before pages are selected. -/
theorem prepare_eq (checked : ∀ settings, Program.settings arguments files = .ok settings →
      files.checkOutput arguments.output settings.overwrite = .ok ()) :
    prepare { arguments with dryRun := false } files =
      prepare { arguments with dryRun := true } files := by
  have same (dryRun : Bool) :
      Program.settings { arguments with dryRun } files = Program.settings arguments files := rfl
  simp only [prepare]
  simp only [same]
  cases chosen : Program.settings arguments files with
  | error failure => rfl
  | ok settings => simp [checkPaths, checked settings chosen, bind, Except.bind]

theorem loaded_openInput {path : String} {source : Source}
    (opened : openInput files path = .ok source) : source.Loaded := by
  simp only [openInput] at opened
  split at opened
  · exact ⟨_, _, opened⟩
  · cases opened

theorem prepare_ok {store : Store} (prepared : prepare arguments files = .ok store) :
    ∃ sources settings, arguments.inputs.mapM (openInput files) = .ok sources ∧
      Program.settings arguments files = .ok settings ∧
      store = Store.ofSources sources settings ∧ ∀ source ∈ sources, source.Loaded := by
  obtain ⟨settings, chosen, rest⟩ := bind_eq_ok_iff.1 prepared
  obtain ⟨_, _, rest⟩ := bind_eq_ok_iff.1 rest
  obtain ⟨sources, opened, same⟩ := bind_eq_ok_iff.1 rest
  cases same
  refine ⟨sources, settings, opened, chosen, rfl, ?_⟩
  intro source member
  obtain ⟨path, _, step⟩ := exists_of_mem_mapM opened member
  exact loaded_openInput step

end Program

def Appending.pageEntries (call : Appending) : Dictionary :=
  Dictionary.set Name.parent (.reference Output.pagesNode)
    (Object.replaceEntries (call.scope.meaning call.copies) call.entries)

def Plan.page (plan : Plan) (position : Nat) (call : Appending) : Page where
  id := call.target
  entries := match plan.turns.get? position with
    | none => call.pageEntries
    | some turn => Output.turnedPage call.pageEntries turn

/-- What a plan makes of a page that is appended at a position: it stays as it is, or it gets the
planned turn on top of the rotation that it states, as an entry in the place of this one. -/
inductive Plan.Makes (plan : Plan) (position : Nat) (entries : Dictionary) : Dictionary → Prop
  | upright : plan.turns.get? position = none → Makes plan position entries entries
  | turned {turn : Turn} {degrees : Int} {changed : Dictionary} :
      plan.turns.get? position = some turn →
      degrees = (Output.statedRotation entries + turn.degrees) % 360 →
      0 ≤ degrees → degrees < 360 →
      Dictionary.Puts Name.rotate (.integer degrees) entries changed →
      Makes plan position entries changed

theorem Plan.makes_page (plan : Plan) (position : Nat) (call : Appending) :
    plan.Makes position call.pageEntries (plan.page position call).entries := by
  simp only [Plan.page]
  cases planned : plan.turns.get? position with
  | none => exact .upright planned
  | some turn =>
    apply Makes.turned planned rfl
    · omega
    · omega
    · exact Dictionary.puts_set ..

theorem Fulfilled.document_pages {sources : List Source} {settings : Settings} {plan : Plan}
    {history : List Appending} {store : Store} {output : Output}
    (fulfilled : Fulfilled sources settings plan history store output) (sound : output.Sound)
    (now : Moment) : (output.save now).1.document.pages = history.mapIdx plan.page := by
  have recorded := fulfilled.assembled.recorded
  apply sound.document_pages
  · rw [fulfilled.turned.rest, recorded.pages]
    apply List.ext_getElem?
    intro position
    have target : Page.id ∘ plan.page position = Appending.target := rfl
    simp [target]
  · intro page member
    obtain ⟨position, inside, rfl⟩ := List.mem_mapIdx.1 member
    have place : store.output.pages[position]? = some history[position].target := by
      simp [recorded.pages, inside]
    have found := fulfilled.turned.page position _ _ place
      (recorded.page _ (List.getElem_mem inside))
    rw [turnsAt_entries] at found
    refine found.trans ?_
    simp only [Plan.page]
    cases plan.turns.get? position <;> rfl

/-- With an output path that may be written to, a dry run tells how the run for real ends: with
the same failure, or with a file of the planned pages. Each of them is a copy of the page that the
plan names, turned once if the plan turns it and else not at all. -/
theorem dry_run_predicts {arguments : Arguments} {files : FileSystem} {place : List String}
    (now : Moment) (checked : ∀ settings, Program.settings arguments files = .ok settings →
      files.checkOutput arguments.output settings.overwrite = .ok ())
    (writable : files.target arguments.output = .ok place) :
    (∃ failure,
      Program.run { arguments with dryRun := true } now files = (.error failure, files) ∧
      Program.run { arguments with dryRun := false } now files = (.error failure, files)) ∨
    ∃ plan sources settings history store output,
      Program.run { arguments with dryRun := true } now files = (.ok (.planned plan), files) ∧
      Program.run { arguments with dryRun := false } now files =
        (.ok (.saved (Path.absolute files.here arguments.output) plan.pages.length),
          files.put place (.saved (output.save now).1)) ∧
      arguments.inputs.mapM (Program.openInput files) = .ok sources ∧
      Program.settings arguments files = .ok settings ∧
      Fulfilled sources settings plan history store output ∧
      (∀ call ∈ history, call.Faithful history store.output.table) ∧
      (output.save now).1.document.pages = history.mapIdx plan.page ∧
      ∀ position call, history[position]? = some call → ∃ entries,
        store.output.table.get? call.target = some (.dictionary entries) ∧
        plan.Makes position entries (plan.page position call).entries := by
  have same := Program.prepare_eq checked
  simp only [Program.run]
  rw [same]
  cases prepared : Program.prepare { arguments with dryRun := true } files with
  | error failure => exact .inl ⟨failure, rfl, rfl⟩
  | ok store =>
    obtain ⟨sources, settings, opened, chosen, rfl, loaded⟩ := Program.prepare_ok prepared
    cases planned : Pipeline.plan arguments.selection arguments.rotation
        (Store.ofSources sources settings) with
    | error failure =>
      obtain ⟨store, done⟩ := Pipeline.run_of_plan_error planned
      refine .inl ⟨failure, ?_, ?_⟩
      · simp [planned, Except.map]
      · simp [done]
    | ok plan =>
      obtain ⟨history, store, output, fulfilled, sound, done⟩ :=
        Pipeline.run_of_plan_ok loaded planned
      refine .inr ⟨plan, sources, settings, history, store, output, ?_, ?_, opened, chosen,
        fulfilled, ?_, fulfilled.document_pages sound now, ?_⟩
      · simp [planned, Except.map]
      · simp [done, FileSystem.write, writable, Store.save, bind, Except.bind, pure, Except.pure]
        rfl
      · exact fun call member => fulfilled.assembled.faithful loaded member
      · intro position call place
        have found := fulfilled.assembled.recorded.page call (List.mem_of_getElem? place)
        exact ⟨call.pageEntries, found, plan.makes_page position call⟩

def formFiles : FileSystem where
  here := "/home"
  nodes := [(["home"], .directory), (["home", "form.pdf"], .file (.document formDocument))]

/-- The page of the form twice, the second time on its side. -/
def formArguments : Arguments where
  inputs := ["form.pdf"]
  selection := ["1:1,1"]
  rotation := ["2:90"]
  output := "out.pdf"

def formMoment : Moment := ⟨2024, 2, 29, 12, 0, 0, 0⟩

theorem plan_form : Pipeline.plan ["1:1,1"] ["2:90"] (Store.ofSources [form] {}) =
    .ok ⟨[⟨0, 0⟩, ⟨0, 0⟩], .ofList [(1, .quarter)]⟩ := by
  have pages : Selection.resolve ["1:1,1"] [1] = .ok [⟨0, 0⟩, ⟨0, 0⟩] := by decide
  have turns : Rotation.resolve ["2:90"] 2 = .ok (.ofList [(1, .quarter)]) := rfl
  have counts : (Store.ofSources [form] {}).counts = [1] := rfl
  simp [Pipeline.plan, Pipeline.selected, Store.pageCounts_eq, counts, Pipeline.liftSpec, pages,
    turns, bind, Except.bind, pure, Except.pure]

theorem run_form_planned : Program.run { formArguments with dryRun := true } formMoment formFiles =
    (.ok (.planned ⟨[⟨0, 0⟩, ⟨0, 0⟩], .ofList [(1, .quarter)]⟩), formFiles) := by
  have prepared : Program.prepare { formArguments with dryRun := true } formFiles =
      .ok (Store.ofSources [form] {}) := rfl
  rw [Program.run, prepared]
  simp only [formArguments, plan_form]
  rfl

theorem get?_rotate_form {call : Appending} (valid : call.Valid) (source : call.source = form) :
    call.pageEntries.get? Name.rotate = none := by
  have listed := valid.page
  rw [source] at listed
  have page := List.mem_singleton.1 listed
  have pageCopy : call.pageCopy = .dictionary call.pageEntries := rfl
  rw [call.get?_pageCopy pageCopy (by decide), Appending.entries, source, page]
  rfl

theorem form_run_as_planned : ∃ (plan : Plan) (history : List Appending) (output : Output)
      (upright turned : Page),
    Program.run { formArguments with dryRun := true } formMoment formFiles =
      (.ok (.planned plan), formFiles) ∧
    Program.run { formArguments with dryRun := false } formMoment formFiles =
      (.ok (.saved "/home/out.pdf" 2),
        formFiles.put ["home", "out.pdf"] (.saved (output.save formMoment).1)) ∧
    plan.pages = [⟨0, 0⟩, ⟨0, 0⟩] ∧ plan.turns.entries = [(1, .quarter)] ∧
    (output.save formMoment).1.document.pages = history.mapIdx plan.page ∧
    history.mapIdx plan.page = [upright, turned] ∧
    upright.entries.get? Name.rotate = none ∧
    turned.entries.get? Name.rotate = some (.integer 90) := by
  have checked (settings : Settings) (_ : Program.settings formArguments formFiles = .ok settings) :
      formFiles.checkOutput formArguments.output settings.overwrite = .ok () := rfl
  have writable : formFiles.target formArguments.output = .ok ["home", "out.pdf"] := rfl
  rcases dry_run_predicts formMoment checked writable with
    ⟨failure, failed, _⟩ | ⟨plan, sources, _, history, store, output, told, saved, opened, _,
      fulfilled, _, pages, _⟩
  · rw [run_form_planned] at failed
    cases failed
  have same := run_form_planned.symm.trans told
  cases same
  cases opened
  obtain ⟨first, _, _, rest, rfl⟩ := List.forall₂_cons_left_iff.1 fulfilled.answers
  obtain ⟨second, _, _, none, rfl⟩ := List.forall₂_cons_left_iff.1 rest
  cases none
  have bare (call : Appending) (member : call ∈ [first, second]) :
      call.pageEntries.get? Name.rotate = .none := by
    obtain ⟨valid, named⟩ := fulfilled.assembled.recorded.valid call member
    exact get?_rotate_form valid (List.mem_singleton.1 (List.mem_of_getElem? named))
  refine ⟨_, _, output, _, _, told, saved, rfl, rfl, pages, rfl, bare first (by simp), ?_⟩
  change (Output.turnedPage second.pageEntries .quarter).get? Name.rotate = _
  rw [Output.turnedPage, Output.statedRotation, bare second (by simp), Dictionary.get?_set]
  rfl

end PdfAssembly
