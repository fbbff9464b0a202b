import PdfAssembly.Proofs.DryRun
import PdfAssembly.Proofs.Renumbering

/-! What a save leaves: the page tree lists the pages, the information is written, and streams are
deflated. A second save finds nothing left to do. -/
namespace PdfAssembly

open Pdf

namespace Pdf

namespace Object

theorem replaceEntries_set (meaning : ObjectId → Object) (key : Bytes) (value : Object)
    (entries : Dictionary) :
    replaceEntries meaning (Dictionary.set key value entries) =
      Dictionary.set key (value.replace meaning) (replaceEntries meaning entries) := by
  simp only [Dictionary.set]
  fun_induction Entries.put key value entries with
  | case1 => rfl
  | case2 old rest => simp [replaceEntries, Entries.put]
  | case3 name old rest apart ih => simp [replaceEntries, Entries.put, apart, ih]

theorem contains_replaceEntries (meaning : ObjectId → Object) (entries : Dictionary)
    (key : Bytes) :
    Dictionary.contains (replaceEntries meaning entries) key = Dictionary.contains entries key := by
  simp only [Dictionary.contains, Dictionary.get?_replaceEntries, Option.isSome_map]

theorem renumber_congr {f g : Nat → Nat} {object : Object}
    (same : ∀ id ∈ object.references, f id.number = g id.number) :
    object.renumber f = object.renumber g :=
  replace_congr object fun id member => by simp only [ObjectId.renumber, same id member]

def renumberEntries (f : Nat → Nat) (entries : Dictionary) : Dictionary :=
  replaceEntries (fun id => .reference (id.renumber f)) entries

theorem asInteger?_renumber (f : Nat → Nat) (object : Object) :
    (object.renumber f).asInteger? = object.asInteger? := by
  cases object <;> rfl

end Object

namespace Output

variable {output : Output} (moment : Moment)

theorem turnedPage_renumber (f : Nat → Nat) (page : Dictionary) (turn : Turn) :
    turnedPage (Object.renumberEntries f page) turn =
      Object.renumberEntries f (turnedPage page turn) := by
  have stated : statedRotation (Object.renumberEntries f page) = statedRotation page := by
    simp only [statedRotation, Object.renumberEntries, Dictionary.get?_replaceEntries]
    cases Dictionary.get? page Name.rotate with
    | none => rfl
    | some value => exact congrArg (Option.getD · 0) (Object.asInteger?_renumber f value)
  rw [turnedPage, stated, Object.renumberEntries, turnedPage, Object.renumberEntries,
    Object.replaceEntries_set]
  rfl

theorem deflated_renumber (f : Nat → Nat) (object : Object) :
    deflated (object.renumber f) = (deflated object).renumber f := by
  cases object with
  | stream entries data =>
    simp only [deflated, Object.renumber, Object.replace, Object.contains_replaceEntries]
    split <;> simp [Object.replace, Object.replaceEntries_set]
  | _ => rfl

/-- What is deflated has a filter and is not deflated again. -/
theorem deflated_deflated (object : Object) : deflated (deflated object) = deflated object := by
  cases object with
  | stream entries data =>
    by_cases shorter : Dictionary.contains entries Name.filter = false ∧
        (Deflate.deflate data.plain).length + filterCost < data.plain.length
    · have done : deflated (.stream entries data) = _ := if_pos shorter
      rw [done]
      apply if_neg
      have apart : Name.length ≠ Name.filter := by decide
      simp [Dictionary.contains, Dictionary.get?_set, apart]
    · have kept : deflated (.stream entries data) = .stream entries data := if_neg shorter
      rw [kept, kept]
  | _ => rfl

def finished (settings : Settings) (object : Object) : Object :=
  if settings.compress then deflated object else object

theorem finished_renumber (settings : Settings) (f : Nat → Nat) (object : Object) :
    finished settings (object.renumber f) = (finished settings object).renumber f := by
  simp only [finished]
  split
  · exact deflated_renumber f object
  · rfl

theorem finished_finished (settings : Settings) (object : Object) :
    finished settings (finished settings object) = finished settings object := by
  cases compress : settings.compress <;> simp [finished, compress, deflated_deflated]

theorem finished_dictionary (settings : Settings) (entries : Dictionary) :
    finished settings (.dictionary entries) = .dictionary entries := by
  simp only [finished]
  split <;> rfl

theorem eq_of_finished_eq_dictionary {settings : Settings} {object : Object} {entries : Dictionary}
    (same : finished settings object = .dictionary entries) : object = .dictionary entries := by
  simp only [finished] at same
  split at same
  · cases object with
    | stream own data =>
      simp only [deflated] at same
      split at same <;> cases same
    | _ => exact same
  · exact same

theorem get?_deflateStreams_eq (output : Output) (id : ObjectId) :
    output.deflateStreams.table.get? id =
      (output.table.get? id).map (finished output.settings) := by
  cases compress : output.settings.compress with
  | true =>
    have all : finished output.settings = deflated := funext fun _ => if_pos compress
    simp [deflateStreams, compress, OrderedMap.get?_mapValues, all]
  | false =>
    have none : finished output.settings = fun object => object :=
      funext fun _ => if_neg (by simp [compress])
    simp [deflateStreams, compress, none]

/-- The page tree has the entries that it starts with, whatever pages it lists. -/
def Rooted (output : Output) : Prop :=
  ∃ pages, output.table.get? pagesNode = some (.dictionary (treeEntries pages))

def infoId (output : Output) : ObjectId := output.info.getD ⟨output.next, 0⟩

theorem Rooted.get?_listPages (rooted : output.Rooted) (id : ObjectId) :
    output.listPages.table.get? id =
      if id = pagesNode then some (.dictionary (treeEntries output.pages))
      else output.table.get? id := by
  obtain ⟨pages, found⟩ := rooted
  simp only [listPages, found, OrderedMap.get?_insert, eq_comm]
  rfl

theorem get?_writeInfo (id : ObjectId) : (output.writeInfo moment).2.table.get? id =
    if id = output.infoId then some (.dictionary (infoEntries output.settings moment))
    else output.table.get? id := by
  unfold writeInfo
  dsimp only
  split
  · rename_i known
    rw [infoId, known, OrderedMap.get?_insert]
    simp only [Option.getD_some, eq_comm]
  · rename_i unknown
    rw [infoId, unknown, OrderedMap.get?_insert]
    simp only [Option.getD_none, eq_comm]

theorem listPages_eq (output : Output) :
    output.listPages = { output with table := output.listPages.table } := by
  simp only [listPages]
  split <;> rfl

theorem writeInfo_eq (output : Output) (moment : Moment) :
    output.writeInfo moment = (output.infoId, { output with
      table := (output.writeInfo moment).2.table
      info := some output.infoId
      next := output.next + if output.info.isSome then 0 else 1 }) := by
  unfold writeInfo
  dsimp only
  split
  · rename_i known
    simp [infoId, known]
  · rename_i unknown
    simp [infoId, unknown]

theorem settings_save (output : Output) (moment : Moment) :
    (output.save moment).2.settings = output.settings := by
  have deflated := congrArg settings (deflateStreams_eq (output.listPages.writeInfo moment).2)
  have written := congrArg (·.2.settings) (output.listPages.writeInfo_eq moment)
  have listed := congrArg settings output.listPages_eq
  exact deflated.trans (written.trans listed)

theorem infoId_listPages (output : Output) : output.listPages.infoId = output.infoId := by
  have listed := congrArg infoId output.listPages_eq
  exact listed

theorem listPages_writeInfo (output : Output) (moment : Moment) :
    (output.listPages.writeInfo moment).1 = output.infoId :=
  (congrArg Prod.fst (output.listPages.writeInfo_eq moment)).trans output.infoId_listPages

theorem info_save (output : Output) (moment : Moment) :
    (output.save moment).2.info = some output.infoId := by
  have deflated := congrArg info (deflateStreams_eq (output.listPages.writeInfo moment).2)
  have written := congrArg (·.2.info) (output.listPages.writeInfo_eq moment)
  exact deflated.trans (written.trans (congrArg some output.infoId_listPages))

/-- A save uses up one number for the cross references, and the first one for the information. -/
theorem next_save (output : Output) (moment : Moment) :
    (output.save moment).2.next = output.next + (if output.info.isSome then 0 else 1) + 1 := by
  have deflated := congrArg next (deflateStreams_eq (output.listPages.writeInfo moment).2)
  have written := congrArg (·.2.next) (output.listPages.writeInfo_eq moment)
  have listed := congrArg (fun output => output.next + if output.info.isSome then 0 else 1)
    output.listPages_eq
  exact congrArg (· + 1) (deflated.trans (written.trans listed))

theorem Sound.infoId_bounds (sound : output.Sound) : catalog.number < output.infoId.number ∧
    output.infoId.generation = 0 ∧ output.infoId.number ≤ output.next := by
  cases known : output.info with
  | some id =>
    obtain ⟨above, generation, below, _⟩ := sound.info id known
    rw [infoId, known]
    exact ⟨above, generation, Nat.le_of_lt below⟩
  | none =>
    rw [infoId, known]
    exact ⟨sound.start, rfl, Nat.le_refl _⟩

theorem Sound.infoId_ne (sound : output.Sound) : output.infoId ≠ pagesNode := by
  intro same
  have above := sound.infoId_bounds.1
  rw [same] at above
  exact absurd above (by decide)

/-- What a save leaves: the tree with the pages, the information, and all else finished. -/
theorem Rooted.get?_save (rooted : output.Rooted) (sound : output.Sound) (id : ObjectId) :
    (output.save moment).2.table.get? id =
      if id = pagesNode then some (.dictionary (treeEntries output.pages))
      else if id = output.infoId then some (.dictionary (infoEntries output.settings moment))
      else (output.table.get? id).map (finished output.settings) := by
  have saved := get?_deflateStreams_eq (output.listPages.writeInfo moment).2 id
  have written := congrArg (·.2.settings) (output.listPages.writeInfo_eq moment)
  have listed := congrArg settings output.listPages_eq
  rw [get?_writeInfo, rooted.get?_listPages, infoId_listPages, written, listed] at saved
  refine Eq.trans saved ?_
  have apart := sound.infoId_ne
  split
  · rename_i info
    rw [if_neg (by rw [info]; exact apart)]
    exact congrArg some (finished_dictionary _ _)
  split
  · exact congrArg some (finished_dictionary _ _)
  · rfl

theorem Rooted.save (rooted : output.Rooted) (sound : output.Sound) (moment : Moment) :
    (output.save moment).2.Rooted :=
  ⟨_, (rooted.get?_save moment sound _).trans (if_pos rfl)⟩

/-- Saving again directly after a save comes down to the later of the two. -/
theorem Rooted.table_save_save (rooted : output.Rooted) (sound : output.Sound)
    (first last : Moment) :
    ((output.save first).2.save last).2.table = (output.save last).2.table := by
  have kept : (output.save first).2.infoId = output.infoId := by
    rw [infoId, info_save, Option.getD_some]
  ext1 id
  rw [(rooted.save sound first).get?_save last (sound.save first), rooted.get?_save last sound,
    rooted.get?_save first sound, kept, settings_save, pages_save]
  split
  · rfl
  split
  · rfl
  · simp only [Option.map_map, Function.comp_def, finished_finished]

end Output

end Pdf

theorem Pdf.Output.Rooted.append {call : Appending} (rooted : call.store.output.Rooted)
    (valid : call.Valid) (sound : call.store.output.Sound) : call.result.output.Rooted := by
  obtain ⟨pages, found⟩ := rooted
  exact ⟨pages, (valid.get?_old (sound.bounded _ _ found).2).trans found⟩

end PdfAssembly
