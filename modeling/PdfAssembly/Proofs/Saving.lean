import PdfAssembly.Proofs.Output
import PdfAssembly.Proofs.PageTree

/-! What a reader finds in a saved file: the pages of the output, in order and as they were. -/
namespace PdfAssembly.Pdf

theorem Table.dictionary?_of_get? {table : Table} {id : ObjectId} {entries : Dictionary}
    (found : table.get? id = some (.dictionary entries)) :
    table.dictionary? id = some entries := by
  unfold Table.dictionary? Table.resolve Table.follow
  rw [found]
  rfl

namespace Output

variable {output : Output} (moment : Moment)

theorem pages_listPages : output.listPages.pages = output.pages := by
  simp only [listPages]
  split <;> rfl

theorem get?_listPages_ne {id : ObjectId} (apart : pagesNode ≠ id) :
    output.listPages.table.get? id = output.table.get? id := by
  simp only [listPages]
  split
  · exact OrderedMap.get?_insert_ne _ _ apart
  · rfl

/-- The page tree comes to list the pages. -/
theorem Sound.tree_listPages (sound : output.Sound) : ∃ tree,
    output.listPages.table.get? pagesNode = some (.dictionary tree) ∧
      Dictionary.get? tree Name.kids = some (.array (output.pages.map .reference)) := by
  obtain ⟨entries, found, _⟩ := sound.tree
  simp only [Output.listPages]
  rw [found]
  refine ⟨_, OrderedMap.get?_insert_self .., ?_⟩
  have apart : Name.count ≠ Name.kids := by decide
  simp [Dictionary.get?_set, apart]

theorem get?_writeInfo_ne {id : ObjectId} (apart : (output.writeInfo moment).1 ≠ id) :
    (output.writeInfo moment).2.table.get? id = output.table.get? id := by
  simp only [writeInfo] at *
  split at apart
  all_goals exact OrderedMap.get?_insert_ne _ _ apart

theorem info_writeInfo : (output.writeInfo moment).2.info = some (output.writeInfo moment).1 := by
  unfold writeInfo
  dsimp only
  split
  · assumption
  · rfl

theorem pages_writeInfo : (output.writeInfo moment).2.pages = output.pages := by
  unfold writeInfo
  dsimp only
  split <;> rfl

theorem pages_save (output : Output) (moment : Moment) :
    (output.save moment).2.pages = output.pages := by
  have written : (output.listPages.writeInfo moment).2.pages = output.listPages.pages :=
    pages_writeInfo moment
  have deflated := congrArg Output.pages (deflateStreams_eq (output.listPages.writeInfo moment).2)
  exact deflated.trans (written.trans pages_listPages)

/-- The information is neither the page tree nor a page. -/
theorem Sound.info_apart (sound : output.Sound) :
    (output.writeInfo moment).1 ≠ pagesNode ∧ (output.writeInfo moment).1 ∉ output.pages := by
  obtain ⟨above, _, _, noPage⟩ := (sound.writeInfo moment).info _ (info_writeInfo moment)
  refine ⟨?_, pages_writeInfo moment ▸ noPage⟩
  intro same
  rw [same] at above
  exact absurd above (by decide)

theorem Sound.tree_save (sound : output.Sound) : ∃ tree,
    (output.save moment).2.table.get? pagesNode = some (.dictionary tree) ∧
      Dictionary.get? tree Name.kids = some (.array (output.pages.map .reference)) := by
  obtain ⟨tree, found, kids⟩ := sound.tree_listPages
  refine ⟨tree, get?_deflateStreams (output.listPages.writeInfo moment).2 ?_, kids⟩
  rw [get?_writeInfo_ne moment (sound.listPages.info_apart moment).1, found]

/-- Saving leaves pages as they are. -/
theorem Sound.get?_save (sound : output.Sound) {id : ObjectId} {entries : Dictionary}
    (page : id ∈ output.pages) (found : output.table.get? id = some (.dictionary entries)) :
    (output.save moment).2.table.get? id = some (.dictionary entries) := by
  have noInfo := (sound.listPages.info_apart moment).2
  rw [pages_listPages] at noInfo
  apply get?_deflateStreams (output.listPages.writeInfo moment).2
  rw [get?_writeInfo_ne moment fun same => noInfo (same ▸ page),
    get?_listPages_ne (sound.ne_pagesNode page).symm, found]

theorem Sound.document_pages (sound : output.Sound) {pages : List Page}
    (listed : pages.map Page.id = output.pages)
    (found : ∀ page ∈ pages, output.table.get? page.id = some (.dictionary page.entries)) :
    (output.save moment).1.document.pages = pages := by
  have saved := sound.save moment
  obtain ⟨tree, node, kids⟩ := sound.tree_save moment
  have read : ∀ page ∈ pages, page.Read (output.save moment).2.table := by
    intro page member
    have inside : page.id ∈ output.pages := listed ▸ List.mem_map.2 ⟨page, member, rfl⟩
    obtain ⟨entries, present, type⟩ := (sound.pages page.id inside).2
    rw [found page member] at present
    cases present
    exact ⟨Table.dictionary?_of_get? (sound.get?_save moment inside (found page member)), type⟩
  have enough : pages.length ≤ (output.save moment).2.table.size := by
    have distinct : (pages.map Page.id).Nodup := listed ▸ sound.distinct
    have present : pages.map Page.id ⊆ (output.save moment).2.table.keys := by
      intro id member
      obtain ⟨page, inside, rfl⟩ := List.mem_map.1 member
      obtain ⟨entries, there, _⟩ := Option.bind_eq_some_iff.1 (read page inside).entries
      exact Table.mem_keys_of_resolve there
    simpa [OrderedMap.keys, OrderedMap.size] using distinct.length_le_of_subset present
  rw [← listed, List.map_map] at kids
  have top := PageTree.rootKids?_eq (Table.dictionary?_of_get? saved.root) rfl
    (Table.dictionary?_of_get? node) kids
  change PageTree.pages (output.save moment).2.table (some (.reference catalog)) = pages
  rw [PageTree.pages, top]
  exact PageTree.walk_pages read enough

end Output

end PdfAssembly.Pdf
