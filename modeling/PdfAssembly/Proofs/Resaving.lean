import Mathlib.Logic.Function.Basic
import PdfAssembly.Proofs.Alignment

/-! Saving on the way to the last save. A save lists the pages, writes the information and
deflates streams; the next one does all of this again, and nothing that is done in between can
tell. Only numbers are used up, so that later objects have others than they would have had. -/
namespace PdfAssembly

open Pdf

structure Renumbered (f : Nat → Nat) (file other : SavedFile) : Prop where
  injective : Function.Injective f
  object : ∀ id, other.table.get? (id.renumber f) = (file.table.get? id).map (Object.renumber f)
  origin : ∀ id, (other.table.get? id).isSome →
    ∃ original, (file.table.get? original).isSome ∧ original.renumber f = id
  root : other.root = file.root.renumber f
  info : other.info = file.info.renumber f
  version : other.version = file.version
  pages : other.document.pages = file.document.pages.map fun page =>
    ⟨page.id.renumber f, Object.renumberEntries f page.entries⟩

namespace Aligned

variable {f : Nat → Nat} {direct saved : Store}

/-- The information of the store without saves gets its number only now. -/
def withInfo (f : Nat → Nat) (direct saved : Store) : Nat → Nat :=
  Function.update f direct.output.next saved.output.infoId.number

theorem withInfo_below {n : Nat} (below : n < direct.output.next) :
    withInfo f direct saved n = f n :=
  Function.update_of_ne (Nat.ne_of_lt below) _ _

theorem renumber_below {id : ObjectId} (below : id.number < direct.output.next) :
    id.renumber (withInfo f direct saved) = id.renumber f :=
  congrArg (ObjectId.mk · id.generation) (withInfo_below below)

theorem withInfo_injective (aligned : Aligned f direct saved) :
    Function.Injective (withInfo f direct saved) := by
  have apart (n : Nat) (other : n ≠ direct.output.next) : f n ≠ saved.output.infoId.number := by
    rcases Nat.lt_or_gt_of_ne other with below | above
    · exact aligned.infoId_free below
    · exact Nat.ne_of_gt (Nat.lt_of_le_of_lt aligned.infoId_le (aligned.increasing above))
  intro m n same
  simp only [withInfo, Function.update_apply] at same
  split at same <;> split at same
  · simp only [*]
  · exact absurd same.symm (apart n ‹_›)
  · exact absurd same (apart m ‹_›)
  · exact aligned.increasing.injective same

theorem renumber_infoId (aligned : Aligned f direct saved) :
    direct.output.infoId.renumber (withInfo f direct saved) = saved.output.infoId := by
  have generation := aligned.sound'.infoId_bounds.2.1
  simp only [Output.infoId, aligned.unsaved, Option.getD_none, ObjectId.renumber, withInfo,
    Function.update_self]
  exact congrArg (ObjectId.mk _) generation.symm

theorem renumber_pagesNode (aligned : Aligned f direct saved) :
    Output.pagesNode.renumber (withInfo f direct saved) = Output.pagesNode :=
  (renumber_below (Nat.lt_trans (by decide) aligned.sound.start)).trans aligned.tree

/-- What the store has comes from somewhere, if it is not what a save writes. -/
theorem exists_original (aligned : Aligned f direct saved) {id : ObjectId}
    (noInfo : id ≠ saved.output.infoId) (there : (saved.output.table.get? id).isSome) :
    ∃ original : ObjectId, original.number < direct.output.next ∧
      original.renumber (withInfo f direct saved) = id := by
  rcases aligned.origin id there with known | ⟨original, below, same⟩
  · exact absurd (by rw [Output.infoId, known]; rfl) noInfo
  · exact ⟨original, below, (renumber_below below).trans same⟩

theorem renumber_treeEntries (aligned : Aligned f direct saved) :
    Object.renumber (withInfo f direct saved)
        (.dictionary (Output.treeEntries direct.output.pages)) =
      .dictionary (Output.treeEntries saved.output.pages) := by
  have items (pages : List ObjectId) (g : Nat → Nat) :
      Object.replaceItems (fun id => .reference (id.renumber g)) (pages.map .reference) =
        (pages.map (ObjectId.renumber g)).map .reference := by
    induction pages with
    | nil => rfl
    | cons id pages ih => simp [Object.replaceItems, Object.replace, ih]
  rw [aligned.renumber_pages (g := withInfo f direct saved) fun _ => withInfo_below]
  simp only [Output.treeEntries, Object.renumber, Object.replace, Object.replaceEntries, items,
    List.length_map]

theorem renumber_infoEntries (g : Nat → Nat) (settings : Settings) (moment : Moment) :
    Object.renumber g (.dictionary (Output.infoEntries settings moment)) =
      .dictionary (Output.infoEntries settings moment) := by
  have none : (Object.dictionary (Output.infoEntries settings moment)).references = [] :=
    Output.references_infoEntries settings moment
  refine Eq.trans ?_ (Object.replace_reference _)
  exact Object.replace_congr _ fun id member => absurd member (by simp [none])

/-- A last save leaves the same objects, whether there were saves before it or not. -/
theorem get?_saves (aligned : Aligned f direct saved) (moment : Moment) (id : ObjectId) :
    (saved.save moment).2.output.table.get? (id.renumber (withInfo f direct saved)) =
      ((direct.save moment).2.output.table.get? id).map
        (Object.renumber (withInfo f direct saved)) := by
  have injective := ObjectId.renumber_injective aligned.withInfo_injective
  have left := aligned.rooted'.get?_save moment aligned.sound'
    (id.renumber (withInfo f direct saved))
  have right := aligned.rooted.get?_save moment aligned.sound id
  refine left.trans (Eq.trans ?_ (congrArg _ right.symm))
  by_cases tree : id = Output.pagesNode
  · rw [if_pos tree, if_pos (tree ▸ aligned.renumber_pagesNode), Option.map_some,
      aligned.renumber_treeEntries]
  rw [if_neg tree, if_neg fun same => tree (injective (same.trans aligned.renumber_pagesNode.symm))]
  by_cases info : id = direct.output.infoId
  · rw [if_pos info, if_pos (info ▸ aligned.renumber_infoId), Option.map_some,
      renumber_infoEntries, aligned.settings]
  have noInfo : id.renumber (withInfo f direct saved) ≠ saved.output.infoId :=
    fun same => info (injective (same.trans aligned.renumber_infoId.symm))
  rw [if_neg info, if_neg noInfo, aligned.settings]
  by_cases below : id.number < direct.output.next
  · rw [renumber_below below, aligned.object id tree,
      ← aligned.renumber_found (g := withInfo f direct saved) fun _ => withInfo_below,
      Option.map_map, Option.map_map]
    congr 1
    exact funext fun object => Output.finished_renumber _ _ object
  -- Numbers that are still to come have no objects in either store.
  · have absent : direct.output.table.get? id = none := by
      apply Option.eq_none_iff_forall_ne_some.2
      exact fun object found => below (aligned.sound.bounded id object found).2
    have absent' : saved.output.table.get? (id.renumber (withInfo f direct saved)) = none := by
      apply Option.not_isSome_iff_eq_none.1
      intro there
      obtain ⟨original, less, same⟩ := aligned.exists_original noInfo there
      exact below (injective same ▸ less)
    rw [absent, absent']
    rfl

theorem document_pages (aligned : Aligned f direct saved) (moment : Moment) :
    (saved.save moment).1.document.pages = (direct.save moment).1.document.pages.map fun page =>
      ⟨page.id.renumber (withInfo f direct saved),
        Object.renumberEntries (withInfo f direct saved) page.entries⟩ := by
  have direct_pages : (direct.save moment).1.document.pages = direct.output.listing :=
    aligned.sound.document_pages moment direct.output.ids_listing aligned.sound.get?_listing
  rw [direct_pages]
  apply aligned.sound'.document_pages
  · rw [aligned.renumber_pages fun _ below => withInfo_below below, List.map_map,
      ← direct.output.ids_listing, List.map_map]
    rfl
  · intro page member
    obtain ⟨original, listed, rfl⟩ := List.mem_map.1 member
    have found := aligned.sound.get?_listing original listed
    have inside : original.id ∈ direct.output.pages :=
      direct.output.ids_listing ▸ List.mem_map.2 ⟨original, listed, rfl⟩
    have kept := aligned.renumber_found (g := withInfo f direct saved)
      (fun _ => withInfo_below) original.id
    rw [found, Option.map_some, Option.map_some] at kept
    rw [renumber_below (aligned.sound.bounded _ _ found).2,
      aligned.dictionary (aligned.sound.ne_pagesNode inside) found]
    exact kept.symm

theorem renumbered (aligned : Aligned f direct saved) (moment : Moment) :
    Renumbered (withInfo f direct saved) (direct.save moment).1 (saved.save moment).1 where
  injective := aligned.withInfo_injective
  object := aligned.get?_saves moment
  origin := by
    intro id there
    obtain ⟨original, same⟩ : ∃ original : ObjectId,
        original.renumber (withInfo f direct saved) = id := by
      by_cases info : id = saved.output.infoId
      · exact ⟨_, info ▸ aligned.renumber_infoId⟩
      have written := saved.output.listPages_writeInfo moment
      have before := (aligned.sound'.isSome_get?_save moment id).1 there
      obtain ⟨original, _, same⟩ :=
        aligned.exists_original info (before.resolve_left fun same => info (written ▸ same).symm)
      exact ⟨original, same⟩
    refine ⟨original, ?_, same⟩
    have found := aligned.get?_saves moment original
    rw [same] at found
    exact Option.isSome_map ▸ (congrArg Option.isSome found).symm.trans there
  root := (renumber_below aligned.sound.start).trans aligned.root |>.symm
  info := by
    have written := saved.output.listPages_writeInfo moment
    have written' := direct.output.listPages_writeInfo moment
    rw [← aligned.renumber_infoId, ← written'] at written
    exact written
  version := by
    have kept := congrArg Settings.version (saved.output.settings_save moment)
    have kept' := congrArg Settings.version (direct.output.settings_save moment)
    rw [aligned.settings, ← kept'] at kept
    exact kept
  pages := aligned.document_pages moment

end Aligned

/-- Saves on the way change nothing but numbers: what the last save writes is what it would have
written had it been the only one. A save directly before it does not even change numbers. -/
theorem earlier_saves_harmless {sources : List Source}
    (loaded : ∀ source ∈ sources, source.Loaded) (settings : Settings)
    (operations : List Operation) (moment : Moment) :
    let start := Store.ofSources sources settings
    let direct := Store.performAll (withoutSaves operations) start
    let saved := Store.performAll operations start
    (∃ f, Renumbered f (direct.save moment).1 (saved.save moment).1) ∧
      ∀ earlier, ((saved.save earlier).2.save moment).1.table = (saved.save moment).1.table := by
  intro start direct saved
  obtain ⟨f, aligned⟩ := (Aligned.start loaded settings).performAll operations
  exact ⟨⟨_, aligned.renumbered moment⟩, fun earlier =>
    aligned.rooted'.table_save_save aligned.sound' earlier moment⟩

theorem form_saved_earlier :
    (∃ f, Renumbered f
      ((Store.performAll (withoutSaves formEdits) (Store.ofSources [form] {})).save
        ⟨2024, 3, 1, 12, 0, 0, 0⟩).1 formEdited.1) ∧
      (formEdited.2.save ⟨2024, 3, 1, 12, 0, 0, 0⟩).1.table = formEdited.1.table := by
  obtain ⟨renumbered, again⟩ :=
    earlier_saves_harmless form_loaded {} formEdits ⟨2024, 3, 1, 12, 0, 0, 0⟩
  exact ⟨renumbered, again ⟨2024, 3, 1, 12, 0, 0, 0⟩⟩

end PdfAssembly
