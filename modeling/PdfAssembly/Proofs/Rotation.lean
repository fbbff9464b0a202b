import Mathlib.Algebra.GroupWithZero.Nat
import PdfAssembly.Proofs.Turns

/-! How far pages of an output are turned. Turns add up on top of the rotation that a page states
itself; one that it leaves to another object is lost. -/
namespace PdfAssembly

open Pdf

namespace Pdf.Output

def page? (output : Output) (position : Nat) : Option Dictionary := do
  (← output.table.get? (← output.pages[position]?)).asDictionary?

/-- How far a page is turned once references are followed. What leads to no integer counts as
upright. -/
def rotation (output : Output) (position : Nat) : Int :=
  ((((output.page? position).bind (·.get? Name.rotate)).bind output.table.dereference).bind
    Object.asInteger?).getD 0

/-- The page leaves its rotation to another object, which holds this many degrees. -/
def ReferredRotation (output : Output) (position : Nat) (degrees : Int) : Prop :=
  ∃ page id, output.page? position = some page ∧ page.get? Name.rotate = some (.reference id) ∧
    output.table.dereference (.reference id) = some (.integer degrees)

theorem get?_rotate_turnedPage (page : Dictionary) (turn : Turn) :
    (turnedPage page turn).get? Name.rotate =
      some (.integer ((statedRotation page + turn.degrees) % 360)) := by
  simp [turnedPage, Dictionary.get?_set]

theorem statedRotation_turnedPage (page : Dictionary) (turn : Turn) :
    statedRotation (turnedPage page turn) = (statedRotation page + turn.degrees) % 360 := by
  rw [statedRotation, get?_rotate_turnedPage]
  rfl

/-- Several turns of a page make one turn of it. -/
theorem get?_rotate_foldl (page : Dictionary) {turns : List Turn} (turned : turns ≠ []) :
    (turns.foldl turnedPage page).get? Name.rotate =
      some (.integer ((statedRotation page + (turns.map Turn.degrees).sum) % 360)) := by
  induction turns generalizing page with
  | nil => exact absurd rfl turned
  | cons turn rest ih =>
    cases rest with
    | nil => simpa using get?_rotate_turnedPage page turn
    | cons next rest =>
      rw [List.foldl_cons, ih (turnedPage page turn) (by simp),
        statedRotation_turnedPage, List.map_cons (l := next :: rest), List.sum_cons,
        Int.natCast_add, Int.emod_add_emod, Int.add_assoc]

variable {output : Output} {position : Nat} {page : Dictionary}

theorem page?_eq_some_iff : output.page? position = some page ↔
    ∃ id, output.pages[position]? = some id ∧
      output.table.get? id = some (.dictionary page) := by
  simp only [page?]
  cases output.pages[position]? with
  | none => simp
  | some id =>
    cases found : output.table.get? id with
    | none => simp [found]
    | some object => cases object <;> simp [found, Object.asDictionary?]

theorem rotation_of_direct (found : output.page? position = some page)
    (direct : ∀ id, page.get? Name.rotate ≠ some (.reference id)) :
    output.rotation position = statedRotation page := by
  simp only [rotation, statedRotation]
  rw [found, Option.bind_some]
  cases entry : page.get? Name.rotate with
  | none => rfl
  | some object =>
    cases object with
    | reference id => exact absurd entry (direct id)
    | _ => rfl

theorem rotation_of_reference {id : ObjectId} (found : output.page? position = some page)
    (refers : page.get? Name.rotate = some (.reference id)) :
    statedRotation page = 0 ∧ output.rotation position =
      ((output.table.dereference (.reference id)).bind Object.asInteger?).getD 0 := by
  simp only [rotation, statedRotation]
  simp [found, refers, Object.asInteger?]

/-- The rotation of a page is the one that it states, up to whole turns, exactly if it leaves
nothing but whole turns to another object. -/
theorem dvd_rotation_sub_iff (found : output.page? position = some page) :
    360 ∣ output.rotation position - statedRotation page ↔
      ∀ degrees, output.ReferredRotation position degrees → 360 ∣ degrees := by
  by_cases referring : ∃ id, page.get? Name.rotate = some (.reference id)
  · obtain ⟨id, refers⟩ := referring
    obtain ⟨stated, value⟩ := rotation_of_reference found refers
    have referred (degrees : Int) : output.ReferredRotation position degrees ↔
        output.table.dereference (.reference id) = some (.integer degrees) := by
      simp [ReferredRotation, found, refers]
    simp only [referred, stated, value, Int.sub_zero]
    cases held : output.table.dereference (.reference id) with
    | none => simp
    | some object => cases object <;> simp [Object.asInteger?]
  · rw [rotation_of_direct found (not_exists.1 referring), Int.sub_self]
    refine ⟨?_, fun _ => Int.dvd_zero _⟩
    rintro _ degrees ⟨other, id, same, refers, _⟩
    rw [found] at same
    cases same
    exact absurd ⟨id, refers⟩ referring

/-- After its first turn a page states its rotation itself. -/
theorem Turned.rotation {turns : List (Nat × Turn)} {after : Output}
    (turned : Turned turns output after) (found : output.page? position = some page)
    (some_turn : turnsAt position turns ≠ []) :
    after.rotation position =
      (statedRotation page + ((turnsAt position turns).map Turn.degrees).sum) % 360 := by
  obtain ⟨id, place, present⟩ := page?_eq_some_iff.1 found
  have pages : after.pages = output.pages := by rw [turned.rest]
  have copy : after.page? position =
      some ((turnsAt position turns).foldl turnedPage page) :=
    page?_eq_some_iff.2 ⟨id, pages ▸ place, turned.page position id page place present⟩
  have states := get?_rotate_foldl page some_turn
  rw [rotation_of_direct copy (by simp [states]), statedRotation, states]
  rfl

end Pdf.Output

/-- Turning pages of an output adds the degrees to the rotation that a page has, except where the
page leaves its rotation to another object, and that one holds more than whole turns. -/
theorem rotation_adds_iff {store : Store} (reached : store.Reached) {turns : List (Nat × Turn)}
    (inside : ∀ pair ∈ turns, pair.1 < store.output.pages.length) :
    ∃ output, Store.turnPages turns store.output = (.ok (), output) ∧
      ∀ position, turnsAt position turns ≠ [] →
        0 ≤ output.rotation position ∧ output.rotation position < 360 ∧
        (output.rotation position =
            (store.output.rotation position +
              ((turnsAt position turns).map Turn.degrees).sum) % 360 ↔
          ∀ degrees, store.output.ReferredRotation position degrees → 360 ∣ degrees) := by
  obtain ⟨output, done, turned⟩ := reached.sound.turnPages inside
  refine ⟨output, done, ?_⟩
  intro position some_turn
  obtain ⟨turn, member⟩ := List.exists_mem_of_ne_nil _ some_turn
  obtain ⟨pair, kept, _⟩ := List.mem_map.1 member
  obtain ⟨given, same⟩ := List.mem_filter.1 kept
  rw [decide_eq_true_eq] at same
  have place := List.getElem?_eq_getElem (same ▸ inside pair given)
  obtain ⟨page, present, _⟩ := (reached.sound.pages _ (List.mem_of_getElem? place)).2
  have found := Output.page?_eq_some_iff.2 ⟨_, place, present⟩
  rw [turned.rotation found some_turn, ← Output.dvd_rotation_sub_iff found]
  omega

/-- One page that leaves its rotation to an object of its own. -/
def leaningTable : Table := OrderedMap.ofList [
  (⟨1, 0⟩, .dictionary [(Name.type, .name Name.catalog), (Name.pages, .reference ⟨2, 0⟩)]),
  (⟨2, 0⟩, .dictionary [(Name.type, .name Name.pages), (Name.kids, .array [.reference ⟨3, 0⟩])]),
  (⟨3, 0⟩, .dictionary [(Name.type, .name Name.page), (Name.rotate, .reference ⟨4, 0⟩)]),
  (⟨4, 0⟩, .integer 90)]

def leaningDocument : Document := ⟨"1.7", some (.reference ⟨1, 0⟩), none, none, leaningTable⟩

def leaning : Source := ⟨"leaning.pdf", leaningTable, leaningDocument.pages⟩

def leaningStore : Store := (Store.assemble [⟨0, 0⟩] (Store.ofSources [leaning] {})).2

theorem leaningStore_reached : leaningStore.Reached := by
  apply Store.Reached.assemble
  apply Store.Reached.fresh
  intro source member
  cases List.mem_singleton.1 member
  exact ⟨"leaning.pdf", .document leaningDocument, rfl⟩

theorem leaning_turned_adds_iff : ∃ output,
    Store.turnPages [(0, .half), (0, .quarter)] leaningStore.output = (.ok (), output) ∧
      (output.rotation 0 = (leaningStore.output.rotation 0 + 270) % 360 ↔
        ∀ degrees, leaningStore.output.ReferredRotation 0 degrees → 360 ∣ degrees) := by
  have inside : ∀ pair ∈ [(0, Turn.half), (0, .quarter)],
      pair.1 < leaningStore.output.pages.length := by decide
  obtain ⟨output, done, turned⟩ := rotation_adds_iff leaningStore_reached inside
  exact ⟨output, done, (turned 0 (by decide)).2.2⟩

/-- The page is appended as it is. -/
theorem leaningStore_output : leaningStore.output = {
    settings := {}
    table := .ofList [
      (⟨1, 0⟩, .dictionary (Output.treeEntries [])),
      (⟨2, 0⟩, .dictionary [(Name.type, .name Name.catalog), (Name.pages, .reference ⟨1, 0⟩)]),
      (⟨3, 0⟩, .dictionary [(Name.type, .name Name.page), (Name.rotate, .reference ⟨4, 0⟩),
        (Name.parent, .reference ⟨1, 0⟩)]),
      (⟨4, 0⟩, .integer 90)]
    next := 5
    pages := [⟨3, 0⟩] } := by
  let scope : CopyScope := ⟨leaning, ⟨⟨3, 0⟩, [(Name.type, .name Name.page),
    (Name.rotate, .reference ⟨4, 0⟩)]⟩, ⟨3, 0⟩⟩
  let copies := scope.discover { shared := ∅, next := 4 } [⟨4, 0⟩]
  have search : copies = ⟨.ofList [(⟨4, 0⟩, ⟨4, 0⟩)], ∅, 5, [(⟨4, 0⟩, ⟨4, 0⟩)]⟩ :=
    CopyScope.discover_of_explore 1 rfl
  have output : leaningStore.output = {
      settings := {}
      table := ((Output.empty {}).table.insertAll (scope.objectCopies copies)).insert ⟨3, 0⟩
        (scope.pageCopy copies ⟨1, 0⟩)
      next := copies.next
      pages := [⟨3, 0⟩] } := rfl
  rw [output, search]
  rfl

/-- Not even a page that is turned by nothing keeps what it leaves to another object. -/
theorem leaning_upright_lost : ∃ output,
    Store.turnPages [(0, .upright)] leaningStore.output = (.ok (), output) ∧
      leaningStore.output.rotation 0 = 90 ∧ output.rotation 0 = 0 := by
  rw [leaningStore_output]
  exact ⟨_, rfl, rfl, rfl⟩

end PdfAssembly
