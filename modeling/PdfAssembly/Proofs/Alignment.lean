import Mathlib.Order.Monotone.Basic
import PdfAssembly.Proofs.Finishing

/-! A store that is never saved beside one that is, in step. Saves use up numbers, so what is
appended after them has other numbers than it would have had; that is all that they change. -/
namespace PdfAssembly

open Pdf

def Input.renumber (f : Nat → Nat) (input : Input) : Input :=
  { input with copies := input.copies.mapValues (ObjectId.renumber f) }

def shift (f : Nat → Nat) (first more n : Nat) : Nat := if n < first then f n else f n + more

theorem shift_below {f : Nat → Nat} {first more n : Nat} (below : n < first) :
    shift f first more n = f n := if_pos below

theorem shift_above {f : Nat → Nat} {first more n : Nat} (above : first ≤ n) :
    shift f first more n = f n + more := if_neg (Nat.not_lt.2 above)

theorem strictMono_shift {f : Nat → Nat} (increasing : StrictMono f) (first more : Nat) :
    StrictMono (shift f first more) := by
  intro m n less
  have apart := increasing less
  simp only [shift]
  split <;> split <;> omega

/-- Numbers before and after a save: those that were handed out stand for what they stood for, and
those that are still to come for higher ones than the save has used. -/
structure MovedUp (f g : Nat → Nat) (next : Nat) : Prop where
  below : ∀ n, n < next → g n = f n
  above : ∀ n, next ≤ n → f next < g n

theorem MovedUp.renumber_eq {f g : Nat → Nat} {next : Nat} (moved : MovedUp f g next)
    {id : ObjectId} (below : id.number < next) : id.renumber g = id.renumber f := by
  rw [ObjectId.renumber, moved.below _ below, ObjectId.renumber]

/-- A store that was never saved beside one that was, after the same steps. What the first has
under a number the second has under the one that this stands for, deflated perhaps; besides that
the second may have written its information. -/
structure Aligned (f : Nat → Nat) (direct saved : Store) : Prop where
  increasing : StrictMono f
  steady : ∀ n, direct.output.next ≤ n → f (n + 1) = f n + 1
  tree : Output.pagesNode.renumber f = Output.pagesNode
  root : Output.catalog.renumber f = Output.catalog
  next : saved.output.next = f direct.output.next
  settings : saved.output.settings = direct.output.settings
  pages : saved.output.pages = direct.output.pages.map (ObjectId.renumber f)
  inputs : saved.inputs = direct.inputs.map (Input.renumber f)
  object : ∀ id, id ≠ Output.pagesNode →
    (saved.output.table.get? (id.renumber f)).map (Output.finished direct.output.settings) =
      ((direct.output.table.get? id).map (Object.renumber f)).map
        (Output.finished direct.output.settings)
  origin : ∀ id, (saved.output.table.get? id).isSome → saved.output.info = some id ∨
    ∃ original : ObjectId, original.number < direct.output.next ∧ original.renumber f = id
  unsaved : direct.output.info = none
  info : ∀ id, saved.output.info = some id → ∀ n, f n ≠ id.number
  loaded : ∀ source ∈ direct.sources, source.Loaded
  sound : direct.output.Sound
  sound' : saved.output.Sound
  closed : direct.Closed
  rooted : direct.output.Rooted
  rooted' : saved.output.Rooted

namespace Aligned

variable {f : Nat → Nat} {direct saved : Store}

theorem start {sources : List Source} (loaded : ∀ source ∈ sources, source.Loaded)
    (settings : Settings) :
    Aligned (fun n => n) (Store.ofSources sources settings) (Store.ofSources sources settings) where
  increasing := strictMono_id
  steady := fun _ _ => rfl
  tree := rfl
  root := rfl
  next := rfl
  settings := rfl
  pages := rfl
  inputs := by
    rw [Store.ofSources, List.map_map]
    exact List.map_congr_left fun source _ => rfl
  object := by
    intro id _
    have same : Object.renumber (fun n => n) = fun object => object :=
      funext Object.renumber_self
    rw [same, Option.map_id_fun']
    rfl
  origin := by
    intro id present
    obtain ⟨object, found⟩ := Option.isSome_iff_exists.1 present
    exact .inr ⟨id, ((Output.sound_empty settings).bounded id object found).2, rfl⟩
  unsaved := rfl
  info := by simp [Store.ofSources, Output.empty]
  loaded := by simpa using loaded
  sound := Output.sound_empty settings
  sound' := Output.sound_empty settings
  closed := Store.closed_ofSources sources settings
  rooted := ⟨[], rfl⟩
  rooted' := ⟨[], rfl⟩

/-- The same page is appended to both in step. -/
theorem inStep (aligned : Aligned f direct saved) {document : Nat} {input : Input} {page : Page}
    (found : direct.inputs[document]? = some input) (member : page ∈ input.source.pages) :
    Appending.InStep f ⟨direct, document, input, page⟩
      ⟨saved, document, input.renumber f, page⟩ := by
  have valid : Appending.Valid ⟨direct, document, input, page⟩ := ⟨found, member⟩
  exact {
    valid
    valid' := ⟨by simp [aligned.inputs, found], member⟩
    alike := {
      page := rfl
      target := congrArg (ObjectId.mk · 0) aligned.next
      isPage := fun _ => rfl
      listed := valid.listed
      owned := rfl
      originals := fun _ _ _ => Iff.rfl }
    entries := rfl
    copies := rfl
    next := aligned.next
    steady := aligned.steady }

/-- What is appended to both has the same objects in both, and the rest has stayed. -/
theorem object_append {call other : Appending} (aligned : Aligned f call.store other.store)
    (inStep : call.InStep f other) {id : ObjectId} (apart : id ≠ Output.pagesNode) :
    (other.result.output.table.get? (id.renumber f)).map
        (Output.finished call.result.output.settings) =
      ((call.result.output.table.get? id).map (Object.renumber f)).map
        (Output.finished call.result.output.settings) := by
  have valid := inStep.valid
  have kept : call.result.output.settings = call.store.output.settings := by
    rw [valid.result_output]
  rw [kept]
  by_cases new : id = call.target ∨ id ∈ call.made.map (·.2)
  · rw [inStep.get?_new aligned.tree new]
  · rw [inStep.get?_old aligned.increasing.injective new, aligned.object id apart,
      valid.get?_other (fun page => new (.inl page)) fun copy => new (.inr copy)]

theorem origin_append {call other : Appending} (aligned : Aligned f call.store other.store)
    (inStep : call.InStep f other) {id : ObjectId}
    (present : (other.result.output.table.get? id).isSome) :
    other.result.output.info = some id ∨ ∃ original : ObjectId,
      original.number < call.result.output.next ∧ original.renumber f = id := by
  have valid := inStep.valid
  have valid' := inStep.valid'
  have grown := valid.target_lt
  rw [valid.next_result, valid'.result_output]
  rcases (valid'.isSome_get?_result id).1 present with before | new
  · rcases aligned.origin id before with info | ⟨original, below, same⟩
    · exact .inl info
    · exact .inr ⟨original, Nat.lt_trans below grown, same⟩
  · obtain ⟨original, new, same⟩ := inStep.new_of_new new
    refine .inr ⟨original, ?_, same⟩
    rcases new with rfl | copy
    · exact grown
    · obtain ⟨pair, made, rfl⟩ := List.mem_map.1 copy
      exact (valid.made_number made).2.1

/-- Appending keeps a store without saves in line with one with saves. -/
theorem append {call other : Appending} (aligned : Aligned f call.store other.store)
    (inStep : call.InStep f other) (document : other.document = call.document)
    (input : other.input = call.input.renumber f) (page : other.page = call.page) :
    Aligned f call.result other.result := by
  have valid := inStep.valid
  have valid' := inStep.valid'
  have grown : call.store.output.next < call.result.output.next := by
    rw [valid.next_result]
    exact valid.target_lt
  have member : call.input ∈ call.store.inputs := List.mem_of_getElem? valid.input
  have read : call.page.Read call.source.table :=
    (aligned.loaded _ (List.mem_map.2 ⟨_, member, rfl⟩)).read valid.page
  have read' : other.page.Read other.source.table := by
    rw [page, Appending.source, input]
    exact read
  exact {
    increasing := aligned.increasing
    steady := fun n above => aligned.steady n (Nat.le_trans (Nat.le_of_lt grown) above)
    tree := aligned.tree
    root := aligned.root
    next := by
      rw [valid.next_result, valid'.next_result, inStep.copies_eq]
      rfl
    settings := by
      rw [valid.result_output, valid'.result_output]
      exact aligned.settings
    pages := by
      rw [valid.pages_result, valid'.pages_result, aligned.pages, inStep.target_eq]
      simp
    inputs := by
      rw [valid.result_inputs, valid'.result_inputs, aligned.inputs, document, input,
        List.map_set, inStep.copies_eq]
      rfl
    object := fun _ => aligned.object_append inStep
    origin := fun _ => aligned.origin_append inStep
    unsaved := by
      rw [valid.result_output]
      exact aligned.unsaved
    info := by
      rw [valid'.result_output]
      exact aligned.info
    loaded := by
      rw [Store.sources, valid.result_sources]
      exact aligned.loaded
    sound := valid.sound read aligned.sound
    sound' := valid'.sound read' aligned.sound'
    closed := valid.closed aligned.sound aligned.closed
    rooted := aligned.rooted.append valid aligned.sound
    rooted' := aligned.rooted'.append valid' aligned.sound' }

/-- A page that a reference names is appended to both. -/
theorem appendPage (aligned : Aligned f direct saved) {sources : List Source}
    (same : direct.sources = sources) {reference : PageReference} {source : Source} {page : Page}
    (named : reference.Names sources source page) :
    Aligned f (direct.appendPage reference.document page)
        (saved.appendPage reference.document page) ∧
      (direct.appendPage reference.document page).sources = sources := by
  rw [← same] at named
  obtain ⟨input, found, rfl⟩ := Store.exists_input named
  have inStep := aligned.inStep found (List.mem_of_getElem? named.2)
  exact ⟨aligned.append inStep rfl rfl rfl, inStep.valid.result_sources.trans same⟩

/-- Dictionaries are never deflated. -/
theorem dictionary (aligned : Aligned f direct saved) {id : ObjectId} {entries : Dictionary}
    (apart : id ≠ Output.pagesNode)
    (found : direct.output.table.get? id = some (.dictionary entries)) :
    saved.output.table.get? (id.renumber f) =
      some (.dictionary (Object.renumberEntries f entries)) := by
  have same := aligned.object id apart
  rw [found, Option.map_some, Option.map_some, Option.map_eq_some_iff] at same
  obtain ⟨object, present, same⟩ := same
  have renumbered : Object.renumber f (.dictionary entries) =
      .dictionary (Object.renumberEntries f entries) := rfl
  rw [renumbered, Output.finished_dictionary] at same
  rw [present, Output.eq_of_finished_eq_dictionary same]

/-- A turn is refused by both or made in both. -/
theorem turnPage (aligned : Aligned f direct saved) (position : Nat) (turn : Turn) :
    (∃ failure, direct.output.turnPage position turn = .error failure ∧
      saved.output.turnPage position turn = .error failure) ∨
    ∃ output output', direct.output.turnPage position turn = .ok output ∧
      saved.output.turnPage position turn = .ok output' ∧
      Aligned f { direct with output } { saved with output := output' } := by
  have place' := congrArg (·[position]?) aligned.pages
  simp only [List.getElem?_map] at place'
  cases place : direct.output.pages[position]? with
  | none =>
    rw [place, Option.map_none] at place'
    have length := congrArg List.length aligned.pages
    rw [List.length_map] at length
    refine .inl ⟨.pdf (.outputPageNotFound position direct.output.pages.length), ?_, ?_⟩
    · simp [Output.turnPage, place]
    · simp [Output.turnPage, place', length]
  | some id =>
    rw [place, Option.map_some] at place'
    obtain ⟨entries, found, done, sound⟩ := aligned.sound.turnPage place turn
    obtain ⟨entries', found', done', sound'⟩ := aligned.sound'.turnPage place' turn
    have apart := aligned.sound.ne_pagesNode (List.mem_of_getElem? place)
    have apart' := aligned.sound'.ne_pagesNode (List.mem_of_getElem? place')
    rw [aligned.dictionary apart found] at found'
    cases found'
    rw [Output.turnedPage_renumber] at done' sound'
    refine .inr ⟨_, _, done, done', ?_⟩
    exact { aligned with
      object := by
        intro other noTree
        have injective := ObjectId.renumber_injective aligned.increasing.injective
        simp only [OrderedMap.get?_insert, injective.eq_iff]
        split
        · rfl
        · exact aligned.object other noTree
      origin := by
        intro other present
        exact aligned.origin other ((Output.isSome_get?_turnPage done' other).1 present)
      sound
      sound'
      closed := aligned.closed.turnPage done
      rooted := by
        obtain ⟨pages, tree⟩ := aligned.rooted
        exact ⟨pages, (OrderedMap.get?_insert_ne _ _ apart).trans tree⟩
      rooted' := by
        obtain ⟨pages, tree⟩ := aligned.rooted'
        exact ⟨pages, (OrderedMap.get?_insert_ne _ _ apart').trans tree⟩ }

/-- Turns up to the first that is refused are made in both. -/
theorem turnPages (aligned : Aligned f direct saved) (turns : List (Nat × Turn)) :
    (Store.turnPages turns saved.output).1 = (Store.turnPages turns direct.output).1 ∧
      Aligned f { direct with output := (Store.turnPages turns direct.output).2 }
        { saved with output := (Store.turnPages turns saved.output).2 } := by
  induction turns generalizing direct saved with
  | nil => exact ⟨rfl, aligned⟩
  | cons pair turns ih =>
    obtain ⟨position, turn⟩ := pair
    rcases aligned.turnPage position turn with
      ⟨failure, refused, refused'⟩ | ⟨output, output', done, done', next⟩
    · simp only [Store.turnPages, refused, refused']
      exact ⟨trivial, aligned⟩
    · simp only [Store.turnPages, done, done']
      exact ih next

theorem applyTurns (aligned : Aligned f direct saved) (turns : TurnMap) :
    (saved.applyTurns turns).1 = (direct.applyTurns turns).1 ∧
      Aligned f (direct.applyTurns turns).2 (saved.applyTurns turns).2 :=
  aligned.turnPages turns.entries

theorem sources (aligned : Aligned f direct saved) : saved.sources = direct.sources := by
  rw [Store.sources, aligned.inputs, List.map_map]
  rfl

theorem locate_eq (aligned : Aligned f direct saved) (reference : PageReference) :
    saved.locate reference = direct.locate reference := by
  simp only [Store.locate, aligned.inputs, List.getElem?_map, List.length_map]
  cases direct.inputs[reference.document]? <;> rfl

theorem assemble (aligned : Aligned f direct saved) (references : List PageReference) :
    (saved.assemble references).1 = (direct.assemble references).1 ∧
      Aligned f (direct.assemble references).2 (saved.assemble references).2 := by
  simp only [Store.assemble, mapM_congr fun reference _ => aligned.locate_eq reference]
  cases located : references.mapM direct.locate with
  | error failure => exact ⟨rfl, aligned⟩
  | ok pages =>
    have named := mapM_eq_ok_iff.1 located
    simp only [Store.locate_eq_ok_iff] at named
    obtain ⟨appended, _⟩ := Store.appendPages_rel
      (R := fun store other => Aligned f store other ∧ store.sources = direct.sources) named
      (fun _ _ _ _ named _ _ before => before.1.appendPage before.2 named) ⟨aligned, rfl⟩
    refine ⟨?_, appended⟩
    simp only [appended.pages, List.length_map]

theorem selected_eq (aligned : Aligned f direct saved) (selection : List String) :
    Pipeline.selected selection saved = Pipeline.selected selection direct := by
  simp only [Pipeline.selected, Store.pageCounts_eq, Store.counts, aligned.sources]

theorem run (aligned : Aligned f direct saved) (selection rotation : List String) :
    Aligned f (Pipeline.run selection rotation direct).2
      (Pipeline.run selection rotation saved).2 := by
  simp only [Pipeline.run, aligned.selected_eq]
  cases Pipeline.selected selection direct with
  | error failure => exact aligned
  | ok references =>
    obtain ⟨same, appended⟩ := aligned.assemble references
    simp only [Assembler.assemble]
    rcases done : direct.assemble references with ⟨result, store⟩
    rcases done' : saved.assemble references with ⟨result', store'⟩
    rw [done, done'] at same appended
    cases same
    cases result with
    | error failure => exact appended
    | ok count =>
      dsimp only
      cases Rotation.resolve rotation count with
      | error error => exact appended
      | ok turns =>
        dsimp only
        split
        · exact appended
        · obtain ⟨same, turned⟩ := appended.applyTurns turns
          simp only [Assembler.applyTurns]
          rcases made : store.applyTurns turns with ⟨outcome, final⟩
          rcases made' : store'.applyTurns turns with ⟨outcome', final'⟩
          rw [made, made'] at same turned
          cases same
          cases outcome <;> exact turned

/-- The information of a store that was saved has a number that nothing else will have. -/
theorem infoId_free (aligned : Aligned f direct saved) {n : Nat}
    (below : n < direct.output.next) : f n ≠ saved.output.infoId.number := by
  cases known : saved.output.info with
  | some id =>
    rw [Output.infoId, known, Option.getD_some]
    exact aligned.info id known n
  | none =>
    rw [Output.infoId, known, Option.getD_none, aligned.next]
    exact Nat.ne_of_lt (aligned.increasing below)

theorem infoId_le (aligned : Aligned f direct saved) :
    saved.output.infoId.number ≤ f direct.output.next :=
  aligned.next ▸ aligned.sound'.infoId_bounds.2.2

/-- What objects of the store without saves refer to is below its next number. -/
theorem referred_lt (aligned : Aligned f direct saved) {id target : ObjectId} {object : Object}
    (found : direct.output.table.get? id = some object) (refers : target ∈ object.references) :
    target.number < direct.output.next := by
  obtain ⟨other, present⟩ :=
    Option.isSome_iff_exists.1 (aligned.closed.output id object found target refers)
  exact (aligned.sound.bounded target other present).2

/-- Only the numbers below the next one matter for what there is. -/
theorem renumber_found (aligned : Aligned f direct saved) {g : Nat → Nat}
    (same : ∀ n, n < direct.output.next → g n = f n) (id : ObjectId) :
    (direct.output.table.get? id).map (Object.renumber g) =
      (direct.output.table.get? id).map (Object.renumber f) := by
  cases found : direct.output.table.get? id with
  | none => rfl
  | some object =>
    exact congrArg some (Object.renumber_congr fun target refers =>
      same _ (aligned.referred_lt found refers))

theorem renumber_pages (aligned : Aligned f direct saved) {g : Nat → Nat}
    (same : ∀ n, n < direct.output.next → g n = f n) :
    saved.output.pages = direct.output.pages.map (ObjectId.renumber g) := by
  rw [aligned.pages]
  apply List.map_congr_left
  intro id page
  obtain ⟨_, entries, found, _⟩ := aligned.sound.pages id page
  simp only [ObjectId.renumber, same _ (aligned.sound.bounded id _ found).2]

theorem renumber_inputs (aligned : Aligned f direct saved) {g : Nat → Nat}
    (same : ∀ n, n < direct.output.next → g n = f n) :
    saved.inputs = direct.inputs.map (Input.renumber g) := by
  rw [aligned.inputs]
  apply List.map_congr_left
  intro input member
  simp only [Input.renumber]
  congr 1
  ext1 id
  rw [OrderedMap.get?_mapValues, OrderedMap.get?_mapValues]
  cases copied : input.copies.get? id with
  | none => rfl
  | some copy =>
    obtain ⟨object, found⟩ :=
      Option.isSome_iff_exists.1 (aligned.closed.copies input member id copy copied)
    simp only [Option.map_some, ObjectId.renumber, same _ (aligned.sound.bounded copy _ found).2]

/-- What the store without saves has is not what a save of the other one writes. -/
theorem renumber_ne (aligned : Aligned f direct saved) {id : ObjectId}
    (below : id.number < direct.output.next) (apart : id ≠ Output.pagesNode) :
    id.renumber f ≠ Output.pagesNode ∧ id.renumber f ≠ saved.output.infoId := by
  constructor
  · rw [← aligned.tree]
    exact (ObjectId.renumber_injective aligned.increasing.injective).ne apart
  · exact fun same => aligned.infoId_free below (congrArg ObjectId.number same)

/-- What a save leaves of the objects that the store without saves has. -/
theorem get?_save (aligned : Aligned f direct saved) (moment : Moment) {id : ObjectId}
    (below : id.number < direct.output.next) (apart : id ≠ Output.pagesNode) :
    (saved.save moment).2.output.table.get? (id.renumber f) =
      ((direct.output.table.get? id).map (Object.renumber f)).map
        (Output.finished direct.output.settings) := by
  obtain ⟨noTree, noInfo⟩ := aligned.renumber_ne below apart
  have left := aligned.rooted'.get?_save moment aligned.sound' (id.renumber f)
  rw [if_neg noTree, if_neg noInfo, aligned.settings, aligned.object id apart] at left
  exact left

theorem isSome_get?_save (aligned : Aligned f direct saved) (moment : Moment) (id : ObjectId) :
    ((saved.save moment).2.output.table.get? id).isSome ↔
      saved.output.infoId = id ∨ (saved.output.table.get? id).isSome := by
  have present := aligned.sound'.isSome_get?_save moment id
  rwa [Output.listPages_writeInfo] at present

/-- What a save leaves has numbers up to the first one that was still free before it. -/
theorem number_le_of_save (aligned : Aligned f direct saved) {moment : Moment} {id : ObjectId}
    (present : ((saved.save moment).2.output.table.get? id).isSome) :
    id.number ≤ f direct.output.next := by
  rcases (aligned.isSome_get?_save moment id).1 present with rfl | before
  · exact aligned.infoId_le
  · obtain ⟨object, found⟩ := Option.isSome_iff_exists.1 before
    rw [← aligned.next]
    exact Nat.le_of_lt (aligned.sound'.bounded id object found).2

theorem movedUp_shift (aligned : Aligned f direct saved) {used : Nat} (some_used : 0 < used) :
    MovedUp f (shift f direct.output.next used) direct.output.next where
  below := fun _ => shift_below
  above := by
    intro n above
    have := aligned.increasing.monotone above
    rw [shift_above above]
    omega

variable {g : Nat → Nat}

theorem object_save (aligned : Aligned f direct saved) (moved : MovedUp f g direct.output.next)
    (moment : Moment) {id : ObjectId} (apart : id ≠ Output.pagesNode) :
    ((saved.save moment).2.output.table.get? (id.renumber g)).map
        (Output.finished direct.output.settings) =
      ((direct.output.table.get? id).map (Object.renumber g)).map
        (Output.finished direct.output.settings) := by
  rw [aligned.renumber_found moved.below]
  by_cases below : id.number < direct.output.next
  · rw [moved.renumber_eq below, aligned.get?_save moment below apart]
    simp only [Option.map_map, Function.comp_def, Output.finished_finished]
  -- Numbers that are still to come have no objects in either store.
  · have above := moved.above id.number (Nat.not_lt.1 below)
    have absent : direct.output.table.get? id = none := by
      apply Option.eq_none_iff_forall_ne_some.2
      exact fun object found => below (aligned.sound.bounded id object found).2
    have absent' : (saved.save moment).2.output.table.get? (id.renumber g) = none := by
      apply Option.not_isSome_iff_eq_none.1
      exact fun present => Nat.not_le.2 above (aligned.number_le_of_save present)
    rw [absent, absent']
    rfl

theorem origin_save (aligned : Aligned f direct saved) (moved : MovedUp f g direct.output.next)
    (moment : Moment) {id : ObjectId}
    (present : ((saved.save moment).2.output.table.get? id).isSome) :
    (saved.save moment).2.output.info = some id ∨ ∃ original : ObjectId,
      original.number < direct.output.next ∧ original.renumber g = id := by
  have written := saved.output.info_save moment
  rcases (aligned.isSome_get?_save moment id).1 present with rfl | before
  · exact .inl written
  rcases aligned.origin id before with known | ⟨original, below, same⟩
  · refine .inl (written.trans ?_)
    rw [Output.infoId, known]
    rfl
  · exact .inr ⟨original, below, (moved.renumber_eq below).trans same⟩

/-- Not even what is still to come has the number of the information. -/
theorem infoId_apart (aligned : Aligned f direct saved) (moved : MovedUp f g direct.output.next)
    (n : Nat) : g n ≠ saved.output.infoId.number := by
  by_cases below : n < direct.output.next
  · rw [moved.below n below]
    exact aligned.infoId_free below
  · have above := moved.above n (Nat.not_lt.1 below)
    have least := aligned.infoId_le
    omega

/-- A save of one store moves up the numbers of what is still to come. -/
theorem save (aligned : Aligned f direct saved) (moment : Moment) :
    ∃ g, Aligned g direct (saved.save moment).2 := by
  obtain ⟨used, some_used, next⟩ : ∃ used, 0 < used ∧
      (saved.save moment).2.output.next = f direct.output.next + used := by
    rw [← aligned.next]
    exact ⟨_, Nat.succ_pos _, saved.output.next_save moment⟩
  have moved := aligned.movedUp_shift some_used
  have first := aligned.sound.start
  refine ⟨shift f direct.output.next used, ?_⟩
  exact {
    increasing := strictMono_shift aligned.increasing _ _
    steady := by
      intro n above
      rw [shift_above above, shift_above (Nat.le_succ_of_le above), aligned.steady n above]
      omega
    tree := (moved.renumber_eq (Nat.lt_trans (by decide) first)).trans aligned.tree
    root := (moved.renumber_eq first).trans aligned.root
    next := next.trans (shift_above (Nat.le_refl _)).symm
    settings := (saved.output.settings_save moment).trans aligned.settings
    pages := (saved.output.pages_save moment).trans (aligned.renumber_pages moved.below)
    inputs := aligned.renumber_inputs moved.below
    object := fun _ => aligned.object_save moved moment
    origin := fun _ => aligned.origin_save moved moment
    unsaved := aligned.unsaved
    info := by
      intro id known n
      cases (saved.output.info_save moment).symm.trans known
      exact aligned.infoId_apart moved n
    loaded := aligned.loaded
    sound := aligned.sound
    sound' := aligned.sound'.save moment
    closed := aligned.closed
    rooted := aligned.rooted
    rooted' := aligned.rooted'.save aligned.sound' moment }

end Aligned

def Operation.saves : Operation → Bool
  | save _ => true
  | assemble _ | applyTurns _ | run _ _ => false

def withoutSaves (operations : List Operation) : List Operation :=
  operations.filter fun operation => !operation.saves

theorem Aligned.performAll {f : Nat → Nat} {direct saved : Store} (aligned : Aligned f direct saved)
    (operations : List Operation) : ∃ g,
      Aligned g (Store.performAll (withoutSaves operations) direct)
        (Store.performAll operations saved) := by
  induction operations generalizing f direct saved with
  | nil => exact ⟨f, aligned⟩
  | cons operation operations ih =>
    cases operation with
    | assemble references => exact ih (aligned.assemble references).2
    | applyTurns turns => exact ih (aligned.applyTurns turns).2
    | run selection rotation => exact ih (aligned.run selection rotation)
    | save moment =>
      obtain ⟨g, next⟩ := aligned.save moment
      exact ih next

end PdfAssembly
