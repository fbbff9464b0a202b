import PdfAssembly.Proofs.DryRun

/-! What a run leaves behind. Files change only when every step has succeeded, and then only the
one that the output path leads to; what stands in it depends on nothing but the arguments, the
time and what was read from the settings file and the inputs. -/
namespace PdfAssembly

open Pdf

namespace FileSystem

variable {files after : FileSystem} {place directory here there : List String}
  {path name : String} {content : Content}

structure Extends (files after : FileSystem) : Prop where
  directories : ∀ place, files.node? place = some .directory → after.node? place = some .directory
  nodes : ∀ place, (files.node? place).isSome → (after.node? place).isSome

theorem Extends.enter (grown : files.Extends after) (entered : files.enter here name = .ok there) :
    after.enter here name = .ok there := by
  simp only [FileSystem.enter] at entered ⊢
  split at entered
  · cases entered
  · cases entered
  rename_i present
  rw [grown.directories here present]
  dsimp only
  split at entered
  · rw [if_pos ‹_›]
    exact entered
  rw [if_neg ‹_›]
  split at entered
  · rw [if_pos ‹_›]
    exact entered
  rw [if_neg ‹_›]
  obtain ⟨next, free, rest⟩ := bind_eq_ok_iff.1 entered
  refine bind_eq_ok_iff.2 ⟨next, free, ?_⟩
  split at rest
  · rw [if_pos (grown.nodes next ‹_›)]
    exact rest
  · cases rest

theorem Extends.foldlM_enter (grown : files.Extends after) {names : List String}
    (entered : names.foldlM files.enter here = .ok there) :
    names.foldlM after.enter here = .ok there := by
  induction names generalizing here with
  | nil => exact entered
  | cons name names ih =>
    rw [List.foldlM_cons] at entered ⊢
    obtain ⟨next, step, rest⟩ := bind_eq_ok_iff.1 entered
    exact bind_eq_ok_iff.2 ⟨next, grown.enter step, ih rest⟩

theorem node?_put (named : place ≠ []) (content : Content) (other : List String) :
    (files.put place content).node? other =
      if place = other then some (.file content) else files.node? other := by
  cases other with
  | nil => simp [node?, named]
  | cons first rest => exact Entries.find?_put place (first :: rest) (.file content) files.nodes

/-- A file that takes no directory's place blocks no way. -/
theorem extends_put (named : place ≠ []) (free : files.node? place ≠ some .directory)
    (content : Content) : files.Extends (files.put place content) where
  directories := by
    intro other found
    rw [node?_put named, if_neg, found]
    rintro rfl
    exact free found
  nodes := by
    intro other present
    rw [node?_put named]
    split
    · rfl
    · exact present

theorem child_eq_ok (done : child directory name = .ok place) : place = directory ++ [name] := by
  simp only [child] at done
  split at done <;> cases done
  rfl

/-- A file can be put into a directory under a proper name that is no directory's. -/
structure Free (files : FileSystem) (directory : List String) (name : String)
    (place : List String) : Prop where
  inside : files.node? directory = some .directory
  proper : name ≠ "" ∧ name ≠ "." ∧ name ≠ ".."
  named : child directory name = .ok place
  noDirectory : files.node? place ≠ some .directory

theorem Free.ne_nil (free : files.Free directory name place) : place ≠ [] := by
  rw [child_eq_ok free.named]
  simp

theorem free_of_place {slash : Bool} (done : files.place directory name slash = .ok place) :
    slash = false ∧ files.Free directory name place := by
  simp only [FileSystem.place] at done
  split at done
  · cases done
  · cases done
  rename_i present
  split at done
  · cases done
  rename_i plain
  obtain ⟨there, inside, rest⟩ := bind_eq_ok_iff.1 done
  split at rest
  · cases rest
  rename_i noDirectory
  cases rest
  simp only [not_or, Bool.not_eq_true] at plain
  exact ⟨plain.1, present, plain.2, inside, noDirectory⟩

/-- No slash follows a path that can be written to, so that its last name is the file's. -/
theorem target_eq_ok (done : files.target path = .ok place) :
    ∃ names name directory, Text.split '/' path = names ++ [name] ∧ checkPath path = .ok () ∧
      names.foldlM files.enter (files.start path) = .ok directory ∧
      files.Free directory name place := by
  obtain ⟨_, checked, rest⟩ := bind_eq_ok_iff.1 done
  obtain ⟨directory, entered, placed⟩ := bind_eq_ok_iff.1 rest
  obtain ⟨noSlash, free⟩ := free_of_place placed
  have ends := List.dropWhile_suffix (l := (Text.split '/' path).reverse) (decide <| · = "")
  rw [ends.eq_of_length (Nat.le_antisymm ends.length_le (by simpa using noSlash))] at entered free
  obtain none | ⟨names, name, cut⟩ := List.eq_nil_or_concat' (Text.split '/' path)
  · exact absurd none (Text.split_ne_nil '/' path)
  rw [cut] at entered free
  simp only [List.reverse_append, List.reverse_singleton, List.singleton_append, List.tail_cons,
    List.reverse_reverse, List.headD_cons] at entered free
  exact ⟨names, name, directory, cut, checked, entered, free⟩

/-- A path leads to what has been put where it can be written to. -/
theorem resolve_put (done : files.target path = .ok place) (content : Content) :
    (files.put place content).resolve path = .ok place := by
  obtain ⟨names, name, directory, cut, checked, entered, free⟩ := target_eq_ok done
  have grown := extends_put free.ne_nil free.noDirectory content
  have last : (files.put place content).enter directory name = .ok place := by
    have present : ((files.put place content).node? place).isSome := by
      simp [node?_put free.ne_nil]
    simp [enter, grown.directories directory free.inside, free.proper, free.named, present,
      bind, Except.bind, pure, Except.pure]
  refine bind_eq_ok_iff.2 ⟨(), checked, ?_⟩
  rw [cut, List.foldlM_append]
  refine bind_eq_ok_iff.2 ⟨directory, grown.foldlM_enter entered, ?_⟩
  simp [last]

/-- One file is written, where a path leads to, and all else is as it was. -/
structure Written (files after : FileSystem) (path : String) (content : Content) : Prop where
  here : after.here = files.here
  read : after.read path = .ok content
  others : ∀ place, after.resolve path ≠ .ok place → after.node? place = files.node? place

theorem written_of_write (done : files.write path content = .ok after) :
    files.Written after path content := by
  obtain ⟨place, found, same⟩ := bind_eq_ok_iff.1 done
  cases same
  obtain ⟨_, _, _, _, _, _, free⟩ := target_eq_ok found
  have resolved := resolve_put found content
  refine ⟨rfl, ?_, ?_⟩
  · simp [read, resolved, node?_put free.ne_nil, bind, Except.bind, pure, Except.pure]
  · intro other elsewhere
    rw [node?_put free.ne_nil, if_neg]
    rintro rfl
    exact elsewhere resolved

end FileSystem

def Arguments.ReadAlike (arguments : Arguments) (files others : FileSystem) : Prop :=
  ∀ path ∈ arguments.settingsFile.toList ++ arguments.inputs, files.read path = others.read path

namespace Program

variable {arguments : Arguments} {now : Moment} {files others after : FileSystem}

inductive Ends (arguments : Arguments) (now : Moment) (files : FileSystem) :
    Except Failure Outcome × FileSystem → Prop
  | failed {failure : Failure} : Ends arguments now files (.error failure, files)
  | planned {plan : Plan} : arguments.dryRun = true →
      Ends arguments now files (.ok (.planned plan), files)
  | saved {store final : Store} {summary : Summary} {after : FileSystem} {path : String}
      {pages : Nat} : arguments.dryRun = false → prepare arguments files = .ok store →
      Pipeline.run arguments.selection arguments.rotation store = (.ok summary, final) →
      files.write arguments.output (.saved (final.save now).1) = .ok after →
      Ends arguments now files (.ok (.saved path pages), after)

theorem ends_run (arguments : Arguments) (now : Moment) (files : FileSystem) :
    Ends arguments now files (run arguments now files) := by
  unfold run
  split
  · exact .failed
  rename_i store prepared
  split
  · rename_i dry
    cases Pipeline.plan arguments.selection arguments.rotation store with
    | error failure => exact .failed
    | ok plan => exact .planned dry
  rename_i wet
  rw [Bool.not_eq_true] at wet
  split
  · exact .failed
  rename_i ran
  split
  · exact .failed
  rename_i saved
  exact .saved wet prepared ran saved

theorem files_of_dryRun (dry : arguments.dryRun = true) : (run arguments now files).2 = files := by
  cases ended : run arguments now files with
  | mk result after =>
    cases ended ▸ ends_run arguments now files with
    | failed => rfl
    | planned => rfl
    | saved wet => rw [dry] at wet; cases wet

theorem files_of_failure {failure : Failure}
    (failed : run arguments now files = (.error failure, after)) : after = files := by
  cases failed ▸ ends_run arguments now files
  rfl

/-- What a run that succeeds has written. -/
theorem run_eq_ok {outcome : Outcome} (wet : arguments.dryRun = false)
    (done : run arguments now files = (.ok outcome, after)) :
    ∃ store summary final, prepare arguments files = .ok store ∧
      Pipeline.run arguments.selection arguments.rotation store = (.ok summary, final) ∧
      files.write arguments.output (.saved (final.save now).1) = .ok after := by
  cases done ▸ ends_run arguments now files with
  | planned dry => rw [wet] at dry; cases dry
  | saved _ prepared ran saved => exact ⟨_, _, _, prepared, ran, saved⟩

theorem settings_congr (alike : arguments.ReadAlike files others) :
    settings arguments files = settings arguments others := by
  simp only [settings]
  cases named : arguments.settingsFile with
  | none => rfl
  | some path =>
    have same : files.read path = others.read path := alike path (by simp [named])
    simp only [Settings.load, same]

theorem openInput_congr {path : String} (same : files.read path = others.read path) :
    openInput files path = openInput others path := by
  simp only [openInput, same]

/-- What is assembled from depends only on what is read. -/
theorem prepare_congr {store other : Store} (alike : arguments.ReadAlike files others)
    (prepared : prepare arguments files = .ok store)
    (again : prepare arguments others = .ok other) : store = other := by
  obtain ⟨sources, settings, opened, chosen, rfl, _⟩ := prepare_ok prepared
  obtain ⟨sources', settings', opened', chosen', rfl, _⟩ := prepare_ok again
  rw [settings_congr alike, chosen'] at chosen
  have same : arguments.inputs.mapM (openInput files) =
      arguments.inputs.mapM (openInput others) := by
    apply mapM_congr
    intro path member
    exact openInput_congr (alike path (List.mem_append_right _ member))
  cases chosen
  rw [same, opened'] at opened
  cases opened
  rfl

theorem overwrite_settings {chosen : Settings} (unforced : arguments.force = false)
    (kept : ∀ path loaded, arguments.settingsFile = some path →
      Settings.load files path = .ok loaded → loaded.overwrite = false)
    (done : settings arguments files = .ok chosen) : chosen.overwrite = false := by
  unfold settings at done
  split at done
  · rename_i path named
    obtain ⟨loaded, found, same⟩ := bind_eq_ok_iff.1 done
    cases same
    simp [Arguments.applyTo, unforced, kept path loaded named found]
  · cases done
    simp [Arguments.applyTo, unforced]

/-- An output that must not be written to ends a run before anything is read from the inputs. -/
theorem run_of_checkOutput (wet : arguments.dryRun = false)
    (refused : ∀ chosen, settings arguments files = .ok chosen →
      files.checkOutput arguments.output chosen.overwrite ≠ .ok ()) :
    ∃ failure, run arguments now files = (.error failure, files) := by
  have failed : ∃ failure, prepare arguments files = .error failure := by
    cases chosen : settings arguments files with
    | error failure => exact ⟨failure, by simp [prepare, chosen, bind, Except.bind]⟩
    | ok found =>
      cases checked : files.checkOutput arguments.output found.overwrite with
      | error failure =>
        exact ⟨failure, by simp [prepare, checkPaths, chosen, wet, checked, bind, Except.bind]⟩
      | ok none => exact absurd checked (refused found chosen)
  obtain ⟨failure, failed⟩ := failed
  exact ⟨failure, by rw [run, failed]⟩

end Program

/-- Nothing is written in a dry run or in one that fails. Otherwise one file is, where the output
path leads to, and every run of these arguments at this time that reads the same writes the same
there. What stands there already is kept unless it is a file that may be replaced. -/
theorem only_output_written (arguments : Arguments) (now : Moment) (files : FileSystem) :
    (arguments.dryRun = true → (Program.run arguments now files).2 = files) ∧
    (∀ failure after, Program.run arguments now files = (.error failure, after) →
      after = files) ∧
    (arguments.dryRun = false → ∀ outcome after,
      Program.run arguments now files = (.ok outcome, after) →
      ∃ content, files.Written after arguments.output content ∧
        ∀ others outcome after, arguments.ReadAlike files others →
          Program.run arguments now others = (.ok outcome, after) →
          others.Written after arguments.output content) ∧
    (arguments.dryRun = false →
      files.isDirectory arguments.output ∨
        (files.exists? arguments.output ∧ arguments.force = false ∧
          ∀ path loaded, arguments.settingsFile = some path →
            Settings.load files path = .ok loaded → loaded.overwrite = false) →
      ∃ failure, Program.run arguments now files = (.error failure, files)) := by
  refine ⟨Program.files_of_dryRun, fun _ _ => Program.files_of_failure, ?_, ?_⟩
  · intro wet outcome after done
    obtain ⟨store, summary, final, prepared, ran, saved⟩ := Program.run_eq_ok wet done
    refine ⟨_, FileSystem.written_of_write saved, ?_⟩
    intro others outcome after alike again
    obtain ⟨store', summary', final', prepared', ran', saved'⟩ := Program.run_eq_ok wet again
    cases Program.prepare_congr alike prepared prepared'
    rw [ran] at ran'
    cases ran'
    exact FileSystem.written_of_write saved'
  · intro wet occupied
    apply Program.run_of_checkOutput wet
    intro chosen found
    unfold FileSystem.checkOutput
    rcases occupied with directory | ⟨present, unforced, kept⟩
    · simp [directory]
    · have kept := Program.overwrite_settings unforced kept found
      split
      · simp
      · simp [present, kept]

/-- The form takes the place of its own file, if that may be replaced. -/
def replacingArguments : Arguments where
  inputs := ["form.pdf"]
  output := "form.pdf"
  force := true

theorem form_replaced_in_place : ∃ (after : FileSystem) (content : Content),
    Program.run replacingArguments formMoment formFiles =
      (.ok (.saved "/home/form.pdf" 1), after) ∧
    formFiles.Written after "form.pdf" content ∧
    ∃ failure, Program.run { replacingArguments with force := false } formMoment formFiles =
      (.error failure, formFiles) := by
  have planned : Pipeline.plan [] [] (Store.ofSources [form] { overwrite := true }) =
      .ok ⟨[⟨0, 0⟩], ∅⟩ := rfl
  have prepared : Program.prepare replacingArguments formFiles =
      .ok (Store.ofSources [form] { overwrite := true }) := rfl
  obtain ⟨_, store, output, _, _, done⟩ := Pipeline.run_of_plan_ok form_loaded planned
  have writable : formFiles.target "form.pdf" = .ok ["home", "form.pdf"] := rfl
  have shown : Path.absolute formFiles.here "form.pdf" = "/home/form.pdf" := by decide
  have ran : ∃ after, Program.run replacingArguments formMoment formFiles =
      (.ok (.saved "/home/form.pdf" 1), after) := by
    refine ⟨formFiles.put ["home", "form.pdf"] (.saved (output.save formMoment).1), ?_⟩
    rw [Program.run, prepared]
    simp [replacingArguments, done, FileSystem.write, writable, Store.save, bind, Except.bind,
      pure, Except.pure]
    exact shown
  obtain ⟨after, ran⟩ := ran
  obtain ⟨_, _, written, _⟩ := only_output_written replacingArguments formMoment formFiles
  obtain ⟨content, written, _⟩ := written rfl _ after ran
  obtain ⟨_, _, _, kept⟩ :=
    only_output_written { replacingArguments with force := false } formMoment formFiles
  refine ⟨after, content, ran, written, kept rfl (.inr ⟨rfl, rfl, ?_⟩)⟩
  rintro path loaded ⟨⟩

end PdfAssembly
