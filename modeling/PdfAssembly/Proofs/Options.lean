import Mathlib.Data.List.Forall2
import PdfAssembly.Cli.Arguments
import PdfAssembly.Proofs.Results

/-! Options in any order. Arguments are groups of an option and its values; reading them adds one
group after the other, and what is read in the end depends on the groups alone and not on their
order, as long as the groups of each option with many values stay in theirs. -/
namespace PdfAssembly.Arguments

inductive Group
  | many (option : ListOption) (values : List String)
  | one (option : ValueOption) (value : String)
  | flag (flag : Flag)
  | verbose
deriving DecidableEq

def Switch.spellings : Switch → List String
  | many .inputs => ["-i", "--input"]
  | many .selection => ["-s", "--structure"]
  | many .rotation => ["-r", "--rotate"]
  | one .output => ["-o", "--output"]
  | one .title => ["-t", "--title"]
  | one .author => ["-a", "--author"]
  | one .settingsFile => ["--config"]
  | flag .force => ["-f", "--force"]
  | flag .dryRun => ["--dry-run"]
  | flag .json => ["--json"]
  | verbose => ["-v", "--verbose"]
  | help => ["-h", "--help"]
  | version => ["-V", "--version"]

def IsValue (text : String) : Prop := text ≠ "" ∧ text.toList.head? ≠ some '-'

instance : DecidablePred IsValue := fun _ => inferInstanceAs (Decidable (_ ∧ _))

namespace Group

def switch : Group → Switch
  | .many option _ => .many option
  | .one option _ => .one option
  | .flag which => .flag which
  | .verbose => .verbose

def values : Group → List String
  | .many _ values => values
  | .one _ value => [value]
  | .flag _ | .verbose => []

def gives (option : ListOption) : Group → Bool
  | .many other _ => other = option
  | _ => false

def sets (option : ValueOption) : Group → Bool
  | .one other _ => other = option
  | _ => false

structure Proper (group : Group) : Prop where
  some : ∀ option, group ≠ .many option []
  plain : ∀ value ∈ group.values, IsValue value

structure Written (group : Group) (arguments : List String) : Prop extends Proper group where
  spelled : ∃ name ∈ group.switch.spellings, name :: group.values = arguments

end Group

variable {groups : List Group}

def given (option : ListOption) (groups : List Group) : List String :=
  (groups.filter (·.gives option)).flatMap Group.values

/-- Nothing is said too often. -/
structure Sparing (groups : List Group) : Prop where
  values : ∀ option, groups.countP (·.sets option) ≤ 1
  flags : ∀ flag, groups.count (.flag flag) ≤ 1
  verbose : groups.count .verbose ≤ 255

structure Complete (groups : List Group) : Prop where
  inputs : ∃ values, .many .inputs values ∈ groups
  output : ∃ value, .one .output value ∈ groups
  json : .flag .json ∈ groups → .flag .dryRun ∈ groups

def list (arguments : Arguments) : ListOption → List String
  | .inputs => arguments.inputs
  | .selection => arguments.selection
  | .rotation => arguments.rotation

def value? (arguments : Arguments) : ValueOption → Option String
  | .output => some arguments.output
  | .title => arguments.title
  | .author => arguments.author
  | .settingsFile => arguments.settingsFile

def has (arguments : Arguments) : Flag → Bool
  | .force => arguments.force
  | .dryRun => arguments.dryRun
  | .json => arguments.json

structure Means (groups : List Group) (arguments : Arguments) : Prop where
  lists : ∀ option, arguments.list option = given option groups
  values : ∀ option value, arguments.value? option = some value ↔ .one option value ∈ groups
  flags : ∀ flag, arguments.has flag = true ↔ .flag flag ∈ groups
  verbosity : arguments.verbosity = groups.count .verbose

theorem Means.unique {one other : Arguments} (left : Means groups one)
    (right : Means groups other) : one = other := by
  have lists (option : ListOption) : one.list option = other.list option :=
    (left.lists option).trans (right.lists option).symm
  have values (option : ValueOption) : one.value? option = other.value? option :=
    Option.ext fun value => (left.values option value).trans (right.values option value).symm
  have flags (flag : Flag) : one.has flag = other.has flag :=
    Bool.eq_iff_iff.2 ((left.flags flag).trans (right.flags flag).symm)
  have verbosity := left.verbosity.trans right.verbosity.symm
  cases one
  cases other
  simp only [mk.injEq]
  exact ⟨lists .inputs, lists .selection, lists .rotation, Option.some.inj (values .output),
    values .title, values .author, values .settingsFile, flags .force, flags .dryRun, flags .json,
    verbosity⟩

/-! From arguments to groups -/

theorem ofArgument_spelling (option : Switch) :
    ∀ name ∈ option.spellings, Word.ofArgument name = [.switch option none] := by
  cases option with
  | many option => cases option <;> decide
  | one option => cases option <;> decide
  | flag which => cases which <;> decide
  | verbose | help | version => decide

theorem ofArgument_value {text : String} (plain : IsValue text) :
    Word.ofArgument text = [.value text] := by
  have start := plain.2
  simp only [Word.ofArgument]
  split
  · rfl
  all_goals simp_all

theorem Group.Written.words {group : Group} {arguments : List String}
    (written : group.Written arguments) :
    arguments.flatMap Word.ofArgument =
      .switch group.switch none :: group.values.map Word.value := by
  obtain ⟨name, member, rfl⟩ := written.spelled
  have values : group.values.flatMap Word.ofArgument = group.values.map Word.value := by
    rw [← List.flatMap_singleton' (group.values.map Word.value), List.flatMap_map]
    exact List.flatMap_congr fun value inside => ofArgument_value (written.plain value inside)
  rw [List.flatMap_cons, ofArgument_spelling _ name member, values]
  rfl

/-- An option with many values takes all values that follow. -/
theorem readWords_values (read : Partial) (option : ListOption) (values more : List String)
    (rest : List Word) :
    readWords read (some (.many option, values)) (more.map Word.value ++ rest) =
      readWords read (some (.many option, values ++ more)) rest := by
  induction more generalizing values with
  | nil => simp
  | cons value more ih =>
    simp only [List.map_cons, List.cons_append, readWords, acceptsMore, if_true, ih]
    simp

def addGroup (read : Partial) (group : Group) : Except ArgumentFault Partial :=
  read.add group.switch group.values

/-- Each group begins with an option, which closes the one before it. -/
theorem readWords_groups {texts : List (List String)}
    (written : List.Forall₂ Group.Written groups texts) (read : Partial)
    (pending : Option (Switch × List String)) :
    readWords read pending (texts.flatten.flatMap Word.ofArgument) =
      read.settle pending >>= groups.foldlM addGroup := by
  induction written generalizing read pending with
  | nil =>
    simp only [List.flatten_nil, List.flatMap_nil, readWords, List.foldlM_nil]
    exact (bind_pure _).symm
  | @cons group arguments groups texts first _ ih =>
    rw [List.flatten_cons, List.flatMap_append, first.words]
    cases group with
    | many option values =>
      simp only [Group.switch, Group.values, List.cons_append, readWords, Switch.takesValues,
        if_true, readWords_values, ih]
      rfl
    | one option value =>
      simp only [Group.switch, Group.values, List.cons_append, List.map_cons, List.map_nil,
        List.nil_append, readWords, Switch.takesValues, acceptsMore, List.isEmpty_nil, if_true, ih]
      rfl
    | flag which =>
      simp only [Group.switch, Group.values, List.cons_append, List.map_nil, List.nil_append,
        readWords, Switch.takesValues, ih]
      rfl
    | verbose =>
      simp only [Group.switch, Group.values, List.cons_append, List.map_nil, List.nil_append,
        readWords, Switch.takesValues, ih]
      rfl

/-! What has been read -/

namespace Partial

def list (read : Partial) : ListOption → List String
  | .inputs => read.inputs
  | .selection => read.selection
  | .rotation => read.rotation

def value? (read : Partial) : ValueOption → Option String
  | .output => read.output
  | .title => read.title
  | .author => read.author
  | .settingsFile => read.settingsFile

variable {read : Partial}

@[simp] theorem list_flags (flags : List Flag) : { read with flags }.list = read.list := by
  funext option
  cases option <;> rfl

@[simp] theorem value?_flags (flags : List Flag) : { read with flags }.value? = read.value? := by
  funext option
  cases option <;> rfl

@[simp] theorem list_verbosity (verbosity : Nat) :
    { read with verbosity }.list = read.list := by
  funext option
  cases option <;> rfl

@[simp] theorem value?_verbosity (verbosity : Nat) :
    { read with verbosity }.value? = read.value? := by
  funext option
  cases option <;> rfl

theorem addMany_ok {option : ListOption} {values : List String} (some : values ≠ [])
    (full : "" ∉ values) :
    ∃ after, read.addMany option values = .ok after ∧
      (∀ other, after.list other = read.list other ++ if option = other then values else []) ∧
      after.value? = read.value? ∧ after.flags = read.flags ∧
      after.verbosity = read.verbosity := by
  cases option <;> simp only [addMany, if_neg some, if_neg full] <;>
    refine ⟨_, rfl, fun other => ?_, funext fun other => ?_, rfl, rfl⟩ <;>
    cases other <;> simp [list, value?]

theorem setOne_ok {option : ValueOption} {value : String} (unset : read.value? option = none)
    (full : value ≠ "") :
    ∃ after, read.setOne option value = .ok after ∧ after.list = read.list ∧
      (∀ other, after.value? other = if option = other then some value else read.value? other) ∧
      after.flags = read.flags ∧ after.verbosity = read.verbosity := by
  cases option <;> simp only [value?] at unset <;>
    simp only [setOne, unset, if_neg full, Option.isSome_none, Bool.false_eq_true, if_false] <;>
    refine ⟨_, rfl, funext fun other => ?_, fun other => ?_, rfl, rfl⟩ <;>
    cases other <;> simp [list, value?]

end Partial

structure Holds (groups : List Group) (read : Partial) : Prop where
  lists : ∀ option, read.list option = given option groups
  values : ∀ option value, read.value? option = some value ↔ .one option value ∈ groups
  flags : ∀ which, which ∈ read.flags ↔ .flag which ∈ groups
  verbosity : read.verbosity = groups.count .verbose

theorem holds_start : Holds [] {} where
  lists option := by cases option <;> rfl
  values option value := by cases option <;> simp [Partial.value?]
  flags := by simp
  verbosity := rfl

theorem given_append (option : ListOption) (groups others : List Group) :
    given option (groups ++ others) = given option groups ++ given option others := by
  simp [given]

theorem Sparing.left {others : List Group} (sparing : Sparing (groups ++ others)) :
    Sparing groups where
  values option := Nat.le_trans (by simp [List.countP_append]) (sparing.values option)
  flags which := Nat.le_trans (by simp [List.count_append]) (sparing.flags which)
  verbose := Nat.le_trans (by simp [List.count_append]) sparing.verbose

namespace Holds

variable {read : Partial}

theorem addMany {option : ListOption} {values : List String} (holds : Holds groups read)
    (proper : (Group.many option values).Proper) :
    ∃ after, read.addMany option values = .ok after ∧
      Holds (groups ++ [.many option values]) after := by
  have some : values ≠ [] := fun none => proper.some option (none ▸ rfl)
  have full : "" ∉ values := fun inside => (proper.plain "" inside).1 rfl
  obtain ⟨after, done, lists, others, flags, verbosity⟩ :=
    Partial.addMany_ok some full
  refine ⟨after, done, fun other => ?_, fun other value => ?_, fun which => ?_, ?_⟩
  · rw [lists, holds.lists, given_append]
    by_cases same : option = other <;> simp [given, Group.gives, Group.values, same]
  · simp [others, holds.values]
  · simp [flags, holds.flags]
  · simp [verbosity, holds.verbosity]

theorem unset {option : ValueOption} {value : String} (holds : Holds groups read)
    (sparing : Sparing (groups ++ [.one option value])) : read.value? option = none := by
  rw [Option.eq_none_iff_forall_ne_some]
  intro before set
  have earlier := (holds.values option before).1 set
  have once := sparing.values option
  have some : 0 < groups.countP (·.sets option) :=
    List.countP_pos_iff.2 ⟨_, earlier, by simp [Group.sets]⟩
  have again : [Group.one option value].countP (·.sets option) = 1 := by simp [Group.sets]
  rw [List.countP_append] at once
  omega

theorem setOne {option : ValueOption} {value : String} (holds : Holds groups read)
    (plain : IsValue value) (sparing : Sparing (groups ++ [.one option value])) :
    ∃ after, read.setOne option value = .ok after ∧
      Holds (groups ++ [.one option value]) after := by
  have unset := holds.unset sparing
  obtain ⟨after, done, lists, others, flags, verbosity⟩ := Partial.setOne_ok unset plain.1
  refine ⟨after, done, fun other => ?_, fun other text => ?_, fun which => ?_, ?_⟩
  · simp [lists, holds.lists, given, Group.gives]
  · rw [others, List.mem_append, ← holds.values]
    by_cases same : option = other
    · subst same
      simp [unset, eq_comm]
    · simp [same, Ne.symm same]
  · simp [flags, holds.flags]
  · simp [verbosity, holds.verbosity]

theorem addFlag {which : Flag} (holds : Holds groups read)
    (sparing : Sparing (groups ++ [.flag which])) :
    ∃ after, read.add (.flag which) [] = .ok after ∧ Holds (groups ++ [.flag which]) after := by
  have unset : which ∉ read.flags := by
    rw [holds.flags]
    intro earlier
    have once := sparing.flags which
    have some := List.count_pos_iff.2 earlier
    rw [List.count_append, List.count_singleton_self] at once
    omega
  refine ⟨_, if_neg unset, fun option => ?_, fun option value => ?_, fun other => ?_, ?_⟩
  · simp [holds.lists, given, Group.gives]
  · simp [holds.values]
  · simp [holds.flags, or_comm]
  · simp [holds.verbosity]

theorem addVerbose (holds : Holds groups read) (sparing : Sparing (groups ++ [.verbose])) :
    ∃ after, read.add .verbose [] = .ok after ∧ Holds (groups ++ [.verbose]) after := by
  refine ⟨_, rfl, fun option => ?_, fun option value => ?_, fun which => ?_, ?_⟩
  · simp [holds.lists, given, Group.gives]
  · simp [holds.values]
  · simp [holds.flags]
  · have few := sparing.verbose
    rw [List.count_append, List.count_singleton_self] at few ⊢
    simp only [holds.verbosity]
    exact Nat.min_eq_right few

/-- One group more is read, and says what it says and nothing else. -/
theorem addGroup {group : Group} (holds : Holds groups read) (proper : group.Proper)
    (sparing : Sparing (groups ++ [group])) :
    ∃ after, addGroup read group = .ok after ∧ Holds (groups ++ [group]) after := by
  cases group with
  | many option values => exact holds.addMany proper
  | one option value => exact holds.setOne (proper.plain value (by simp [Group.values])) sparing
  | flag which => exact holds.addFlag sparing
  | verbose => exact holds.addVerbose sparing

/-- Group after group, everything is read. -/
theorem addGroups {others : List Group} (holds : Holds groups read)
    (proper : ∀ group ∈ others, group.Proper) (sparing : Sparing (groups ++ others)) :
    ∃ after, others.foldlM Arguments.addGroup read = .ok after ∧
      Holds (groups ++ others) after := by
  induction others generalizing groups read with
  | nil => exact ⟨read, rfl, by simpa using holds⟩
  | cons group rest ih =>
    rw [List.append_cons] at sparing
    obtain ⟨next, now, holds⟩ := holds.addGroup (proper group (by simp)) sparing.left
    obtain ⟨after, later, holds⟩ :=
      ih holds (fun other inside => proper other (List.mem_cons_of_mem _ inside)) sparing
    refine ⟨after, ?_, by rwa [List.append_cons]⟩
    rw [List.foldlM_cons, now]
    exact later

theorem inputs_ne_nil_iff (holds : Holds groups read) (proper : ∀ group ∈ groups, group.Proper) :
    read.inputs ≠ [] ↔ ∃ values, .many .inputs values ∈ groups := by
  rw [show read.inputs = given .inputs groups from holds.lists .inputs]
  constructor
  · intro some
    obtain ⟨text, inside⟩ := List.exists_mem_of_ne_nil _ some
    obtain ⟨group, member, _⟩ := List.mem_flatMap.1 inside
    obtain ⟨member, gives⟩ := List.mem_filter.1 member
    cases group with
    | many option values =>
      obtain rfl : option = .inputs := by simpa [Group.gives] using gives
      exact ⟨values, member⟩
    | _ => cases gives
  · rintro ⟨values, member⟩ none
    have kept : Group.many .inputs values ∈ groups.filter (·.gives .inputs) :=
      List.mem_filter.2 ⟨member, by simp [Group.gives]⟩
    have empty : values = [] := List.flatMap_eq_nil_iff.1 none _ kept
    exact (proper _ member).some .inputs (by rw [empty])

theorem complete_ok (holds : Holds groups read) (proper : ∀ group ∈ groups, group.Proper)
    (complete : Complete groups) :
    ∃ arguments, read.complete = .ok arguments ∧ Means groups arguments := by
  obtain ⟨output, member⟩ := complete.output
  have set : read.output = some output := (holds.values .output output).2 member
  have inputs := (holds.inputs_ne_nil_iff proper).2 complete.inputs
  have json : ¬ (.json ∈ read.flags ∧ .dryRun ∉ read.flags) := by
    simpa [holds.flags] using complete.json
  simp only [Partial.complete, set, if_neg (not_or.2 ⟨inputs, json⟩)]
  refine ⟨_, rfl, ?_⟩
  exact
    { lists := fun option => by rw [← holds.lists]; cases option <;> rfl
      values := fun option value => by
        rw [← holds.values]
        cases option <;> simp [Arguments.value?, Partial.value?, set]
      flags := fun which => by
        rw [← holds.flags]
        cases which <;> simp [has]
      verbosity := holds.verbosity }

theorem complete_error (holds : Holds groups read) (proper : ∀ group ∈ groups, group.Proper)
    (incomplete : ¬ Complete groups) : read.complete = .error .missingRequired := by
  simp only [Partial.complete]
  split
  · rfl
  next output set =>
    refine if_pos ?_
    by_contra fine
    obtain ⟨inputs, json⟩ := not_or.1 fine
    exact incomplete
      { inputs := (holds.inputs_ne_nil_iff proper).1 inputs
        output := ⟨output, (holds.values .output output).1 set⟩
        json := by simpa [holds.flags] using json }

end Holds

/-! Any order -/

theorem proper_of_written {texts : List (List String)}
    (written : List.Forall₂ Group.Written groups texts) : ∀ group ∈ groups, group.Proper := by
  induction written with
  | nil => simp
  | cons first _ ih => exact List.forall_mem_cons.2 ⟨first.toProper, ih⟩

theorem parse_ok {texts : List (List String)} (written : List.Forall₂ Group.Written groups texts)
    (sparing : Sparing groups) (complete : Complete groups) :
    ∃ arguments, parse texts.flatten = .ok arguments ∧ Means groups arguments := by
  have proper := proper_of_written written
  obtain ⟨read, done, holds⟩ := holds_start.addGroups proper sparing
  obtain ⟨arguments, result, means⟩ := holds.complete_ok proper complete
  refine ⟨arguments, ?_, means⟩
  rw [parse, readWords_groups written]
  exact bind_eq_ok_iff.2 ⟨read, done, result⟩

theorem parse_error {texts : List (List String)}
    (written : List.Forall₂ Group.Written groups texts) (sparing : Sparing groups)
    (incomplete : ¬ Complete groups) : parse texts.flatten = .error .missingRequired := by
  have proper := proper_of_written written
  obtain ⟨read, done, holds⟩ := holds_start.addGroups proper sparing
  rw [parse, readWords_groups written]
  exact bind_eq_error_iff.2 (.inr ⟨read, done, holds.complete_error proper incomplete⟩)

/-- The same groups in another order, in which those of each option with many values stay in
theirs. -/
structure Reordered (groups others : List Group) : Prop where
  perm : others.Perm groups
  kept : ∀ option, others.filter (·.gives option) = groups.filter (·.gives option)

namespace Reordered

variable {others : List Group}

theorem sparing (moved : Reordered groups others) (sparing : Sparing groups) :
    Sparing others where
  values option := by rw [moved.perm.countP_eq]; exact sparing.values option
  flags which := by rw [moved.perm.count_eq]; exact sparing.flags which
  verbose := by rw [moved.perm.count_eq]; exact sparing.verbose

theorem complete_iff (moved : Reordered groups others) : Complete others ↔ Complete groups := by
  constructor
  all_goals
    intro complete
    exact
      { inputs := by simpa only [moved.perm.mem_iff] using complete.inputs
        output := by simpa only [moved.perm.mem_iff] using complete.output
        json := by simpa only [moved.perm.mem_iff] using complete.json }

theorem means {arguments : Arguments} (moved : Reordered groups others)
    (means : Means groups arguments) : Means others arguments where
  lists option := by rw [means.lists, given, given, moved.kept]
  values option value := by rw [means.values, moved.perm.mem_iff]
  flags which := by rw [means.flags, moved.perm.mem_iff]
  verbosity := by rw [means.verbosity, moved.perm.count_eq]

end Reordered

/-- Options can be given in any order: a complete list of groups is read as what it says, an
incomplete one is rejected, and the same groups in another order come to the same. -/
theorem parse_any_order {texts : List (List String)}
    (written : List.Forall₂ Group.Written groups texts) (sparing : Sparing groups) :
    (Complete groups →
      ∃ arguments, parse texts.flatten = .ok arguments ∧ Means groups arguments) ∧
    (¬ Complete groups → parse texts.flatten = .error .missingRequired) ∧
    ∀ others otherTexts, Reordered groups others → List.Forall₂ Group.Written others otherTexts →
      parse otherTexts.flatten = parse texts.flatten := by
  refine ⟨parse_ok written sparing, parse_error written sparing,
    fun others otherTexts moved rewritten => ?_⟩
  by_cases complete : Complete groups
  · obtain ⟨arguments, done, means⟩ := parse_ok written sparing complete
    obtain ⟨again, result, meansAgain⟩ :=
      parse_ok rewritten (moved.sparing sparing) (moved.complete_iff.2 complete)
    rw [result, done, meansAgain.unique (moved.means means)]
  · rw [parse_error written sparing complete,
      parse_error rewritten (moved.sparing sparing) (mt moved.complete_iff.1 complete)]

/-- Two groups of inputs around the output, then both behind it. -/
theorem parse_inputs_apart :
    (∃ arguments,
      parse ["-i", "a.pdf", "b.pdf", "-o", "c.pdf", "--input", "d.pdf"] = .ok arguments ∧
        arguments.inputs = ["a.pdf", "b.pdf", "d.pdf"]) ∧
    parse ["--output", "c.pdf", "-i", "a.pdf", "b.pdf", "-i", "d.pdf"] =
      parse ["-i", "a.pdf", "b.pdf", "-o", "c.pdf", "--input", "d.pdf"] := by
  let groups : List Group :=
    [.many .inputs ["a.pdf", "b.pdf"], .one .output "c.pdf", .many .inputs ["d.pdf"]]
  let others : List Group :=
    [.one .output "c.pdf", .many .inputs ["a.pdf", "b.pdf"], .many .inputs ["d.pdf"]]
  have written : List.Forall₂ Group.Written groups
      [["-i", "a.pdf", "b.pdf"], ["-o", "c.pdf"], ["--input", "d.pdf"]] :=
    .cons ⟨⟨by simp, by decide⟩, "-i", by decide, rfl⟩ <|
    .cons ⟨⟨by simp, by decide⟩, "-o", by decide, rfl⟩ <|
    .cons ⟨⟨by simp, by decide⟩, "--input", by decide, rfl⟩ .nil
  have rewritten : List.Forall₂ Group.Written others
      [["--output", "c.pdf"], ["-i", "a.pdf", "b.pdf"], ["-i", "d.pdf"]] :=
    .cons ⟨⟨by simp, by decide⟩, "--output", by decide, rfl⟩ <|
    .cons ⟨⟨by simp, by decide⟩, "-i", by decide, rfl⟩ <|
    .cons ⟨⟨by simp, by decide⟩, "-i", by decide, rfl⟩ .nil
  have sparing : Sparing groups :=
    { values := by rintro ⟨⟩ <;> decide
      flags := by rintro ⟨⟩ <;> decide
      verbose := by decide }
  have complete : Complete groups :=
    { inputs := ⟨["d.pdf"], by decide⟩
      output := ⟨"c.pdf", by decide⟩
      json := by decide }
  have moved : Reordered groups others :=
    { perm := by decide
      kept := by rintro ⟨⟩ <;> decide }
  obtain ⟨accepted, _, anyOrder⟩ := parse_any_order written sparing
  obtain ⟨arguments, done, means⟩ := accepted complete
  exact ⟨⟨arguments, done, means.lists .inputs⟩, anyOrder others _ moved rewritten⟩

end PdfAssembly.Arguments
