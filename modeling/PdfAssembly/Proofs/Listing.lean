import PdfAssembly.Proofs.Integrity

/-! The page tree of an output is flat: its root lists the pages, every page names the root as
its parent, and no other object is a node of a page tree, whatever was copied. -/
namespace PdfAssembly

open Pdf

namespace Pdf

/-- The object of an identifier is not a reference itself. -/
theorem Table.asReference?_of_follow {table : Table} {steps : Nat} {id : ObjectId}
    {object : Object} (found : table.follow steps id = some object) :
    object.asReference? = none := by
  fun_induction follow table steps id with
  | case1 => cases found
  | case2 _ _ _ _ ih => exact ih found
  | case3 steps id other =>
    cases object with
    | reference next => exact absurd found (other next)
    | _ => rfl

namespace Object

/-- Replacing references by nothing but references makes no value a name. -/
theorem asName?_replace {meaning : ObjectId → Object} (unnamed : ∀ id, (meaning id).asName? = none)
    (object : Object) : (object.replace meaning).asName? = object.asName? := by
  cases object with
  | reference id => exact unnamed id
  | _ => rfl

/-- A dictionary keeps its type when its references are replaced. -/
theorem typeName?_replaceEntries {meaning : ObjectId → Object}
    (unnamed : ∀ id, (meaning id).asName? = none) (entries : Dictionary) :
    Dictionary.typeName? (replaceEntries meaning entries) = entries.typeName? := by
  simp only [Dictionary.typeName?, Dictionary.get?_replaceEntries]
  cases Dictionary.get? entries Name.type with
  | none => rfl
  | some value => exact asName?_replace unnamed value

theorem isPageTreeNode_replace {meaning : ObjectId → Object}
    (unnamed : ∀ id, (meaning id).asName? = none) {object : Object}
    (direct : object.asReference? = none) :
    (object.replace meaning).isPageTreeNode = object.isPageTreeNode := by
  cases object with
  | reference id => cases direct
  | dictionary entries =>
    simp only [replace, isPageTreeNode, typeName?_replaceEntries unnamed]
  | _ => rfl

end Object

theorem CopyScope.asName?_meaning (scope : CopyScope) (copies : Copies) (id : ObjectId) :
    (scope.meaning copies id).asName? = none := by
  simp only [meaning]
  split
  · rfl
  split
  · rfl
  split <;> rfl

namespace Output

variable {output : Output}

structure Flat (output : Output) : Prop where
  parent : ∀ id ∈ output.pages, ∃ entries,
    output.table.get? id = some (.dictionary entries) ∧
    Dictionary.get? entries Name.parent = some (.reference pagesNode)
  node : ∀ id object, output.table.get? id = some object → object.isPageTreeNode = true →
    id = pagesNode

theorem flat_empty (settings : Settings) : (empty settings).Flat where
  parent := by simp [empty]
  node := by
    intro id object found node
    rcases eq_of_get?_empty found with rfl | rfl
    · rfl
    · cases found
      exact absurd node (by decide)

theorem Flat.insert (flat : output.Flat) {id : ObjectId} {object : Object}
    (page : id ∈ output.pages → ∃ entries, object = .dictionary entries ∧
      Dictionary.get? entries Name.parent = some (.reference pagesNode))
    (node : object.isPageTreeNode = true → id = pagesNode) :
    Flat { output with table := output.table.insert id object } where
  parent := by
    intro other member
    simp only [OrderedMap.get?_insert]
    split
    · rename_i same
      obtain ⟨entries, rfl, parent⟩ := page (same ▸ member)
      exact ⟨entries, rfl, parent⟩
    · exact flat.parent other member
  node := by
    intro other value found tree
    simp only [OrderedMap.get?_insert] at found
    split at found
    · rename_i same
      cases found
      exact same ▸ node tree
    · exact flat.node other value found tree

theorem Flat.turnPage (flat : output.Flat) {position : Nat} {turn : Turn} {after : Output}
    (done : output.turnPage position turn = .ok after) : after.Flat := by
  obtain ⟨id, entries, place, found, rfl⟩ := turnPage_eq_ok_iff.1 done
  apply flat.insert
  · intro member
    obtain ⟨_, present, parent⟩ := flat.parent id member
    cases found.symm.trans present
    have apart : Name.rotate ≠ Name.parent := by decide
    exact ⟨_, rfl, by simpa [turnedPage, Dictionary.get?_set, apart] using parent⟩
  · intro node
    apply flat.node id _ found
    simpa only [Object.isPageTreeNode, turnedPage_type] using node

theorem Flat.listPages (flat : output.Flat) (sound : output.Sound) : output.listPages.Flat := by
  obtain ⟨entries, found, _⟩ := sound.tree
  simp only [Output.listPages, found]
  exact flat.insert (fun member => absurd rfl (sound.ne_pagesNode member)) fun _ => rfl

theorem isPageTreeNode_infoEntries (settings : Settings) (moment : Moment) :
    (Object.dictionary (infoEntries settings moment)).isPageTreeNode = false := by
  simp only [infoEntries]
  split <;> rfl

theorem Flat.writeInfo (flat : output.Flat) (sound : output.Sound) (moment : Moment) :
    (output.writeInfo moment).2.Flat := by
  have written {id : ObjectId} (noPage : id ∉ output.pages) :
      Flat { output with
        table := output.table.insert id (.dictionary (infoEntries output.settings moment)) } := by
    apply flat.insert fun page => absurd page noPage
    simp [isPageTreeNode_infoEntries]
  unfold Output.writeInfo
  cases known : output.info with
  | some id =>
    have old := written (sound.info id known).2.2.2
    exact ⟨old.parent, old.node⟩
  | none =>
    have new := written sound.fresh
    exact ⟨new.parent, new.node⟩

theorem isPageTreeNode_deflated (object : Object) :
    (deflated object).isPageTreeNode = object.isPageTreeNode := by
  cases object with
  | stream entries data =>
    simp only [deflated]
    split <;> rfl
  | _ => rfl

theorem Flat.deflateStreams (flat : output.Flat) : output.deflateStreams.Flat := by
  rw [deflateStreams_eq]
  constructor
  · intro id member
    obtain ⟨entries, found, parent⟩ := flat.parent id member
    exact ⟨entries, get?_deflateStreams output found, parent⟩
  · intro id object found node
    obtain ⟨original, present, rfl | rfl⟩ := of_get?_deflateStreams found
    · exact flat.node id object present node
    · rw [isPageTreeNode_deflated] at node
      exact flat.node id original present node

theorem Flat.save (flat : output.Flat) (sound : output.Sound) (moment : Moment) :
    (output.save moment).2.Flat := by
  have saved := ((flat.listPages sound).writeInfo sound.listPages moment).deflateStreams
  exact ⟨saved.parent, saved.node⟩

def listing (output : Output) : List Page :=
  output.pages.map fun id => ⟨id, (output.table.dictionary? id).getD []⟩

theorem ids_listing (output : Output) : output.listing.map Page.id = output.pages := by
  simp [listing, Function.comp_def]

theorem Sound.get?_listing (sound : output.Sound) :
    ∀ page ∈ output.listing, output.table.get? page.id = some (.dictionary page.entries) := by
  intro page member
  obtain ⟨id, inside, rfl⟩ := List.mem_map.1 member
  obtain ⟨entries, found, _⟩ := (sound.pages id inside).2
  simp [Table.dictionary?_of_get? found, found]

theorem Sound.count_save (sound : output.Sound) (moment : Moment) : ∃ tree,
    (output.save moment).2.table.get? pagesNode = some (.dictionary tree) ∧
      Dictionary.get? tree Name.count = some (.integer output.pages.length) := by
  obtain ⟨entries, found, _⟩ := sound.tree
  have listed : output.listPages.table.get? pagesNode = some (.dictionary
      (Dictionary.set Name.count (.integer output.pages.length)
        (Dictionary.set Name.kids (.array (output.pages.map .reference)) entries))) := by
    simp [Output.listPages, found]
  rw [← get?_writeInfo_ne moment (sound.listPages.info_apart moment).1] at listed
  exact ⟨_, get?_deflateStreams _ listed, by simp [Dictionary.get?_set]⟩

structure Listed (output : Output) : Prop where
  /-- A reader finds the pages in order. -/
  pages : output.document.pages.map Page.id = output.pages
  count : ∃ tree, output.table.get? pagesNode = some (.dictionary tree) ∧
    Dictionary.get? tree Name.count = some (.integer output.pages.length)
  parent : ∀ page ∈ output.document.pages,
    page.entries.get? Name.parent = some (.reference pagesNode)
  node : ∀ id object, output.table.get? id = some object →
    (object.isPageTreeNode = true ↔ id = pagesNode)

theorem Flat.listed_save (flat : output.Flat) (sound : output.Sound) (moment : Moment) :
    (output.save moment).2.Listed := by
  have same : (output.save moment).2.document.pages = output.listing :=
    sound.document_pages moment output.ids_listing sound.get?_listing
  constructor
  · rw [same, ids_listing, pages_save]
  · rw [pages_save]
    exact sound.count_save moment
  · rw [same]
    intro page member
    have found := sound.get?_listing page member
    have inside : page.id ∈ output.pages :=
      output.ids_listing ▸ List.mem_map.2 ⟨page, member, rfl⟩
    obtain ⟨entries, present, parent⟩ := flat.parent page.id inside
    cases found.symm.trans present
    exact parent
  · intro id object found
    constructor
    · exact (flat.save sound moment).node id object found
    · rintro rfl
      obtain ⟨entries, tree, type⟩ := (sound.save moment).tree
      cases found.symm.trans tree
      simp [Object.isPageTreeNode, type]

end Output

end Pdf

/-- Appending adds a page below the root of the page tree and no other node. -/
theorem Appending.Valid.flat {call : Appending} (valid : call.Valid)
    (read : call.page.Read call.source.table) (sound : call.store.output.Sound)
    (flat : call.store.output.Flat) : call.result.output.Flat where
  parent := by
    rw [valid.pages_result]
    refine List.forall_mem_append.2 ⟨?_, List.forall_mem_singleton.2 ?_⟩
    · intro id page
      obtain ⟨entries, found, parent⟩ := flat.parent id page
      rw [valid.get?_old (sound.bounded id _ found).2]
      exact ⟨entries, found, parent⟩
    · exact ⟨_, valid.get?_target, by simp [Dictionary.get?_set]⟩
  node := by
    intro id object found node
    -- The new page is typed as a page; what was copied for it was no node in its document.
    by_cases page : id = call.target
    · obtain ⟨entries, same, type⟩ := pageCopy_type read
      rw [page, valid.get?_target, same] at found
      cases found
      simp [Object.isPageTreeNode, type, Name.page, Name.pages, bytes] at node
    by_cases copy : id ∈ call.made.map (·.2)
    · obtain ⟨⟨original, _⟩, made, rfl⟩ := List.mem_map.1 copy
      obtain ⟨value, copyable⟩ := valid.tracked.copyable _ made
      rw [valid.get?_made made, objectCopy_eq copyable] at found
      cases found
      rw [Object.isPageTreeNode_replace (call.scope.asName?_meaning call.copies)
        (Table.asReference?_of_follow copyable.2.1), copyable.2.2] at node
      cases node
    · rw [valid.get?_other page copy] at found
      exact flat.node id object found node

namespace Session

variable {start store : Store} {history : List Appending} {taken : List Nat}

theorem flat (session : Session start history taken store) (fresh : start.output.Flat)
    (before : start.output.Sound) (loaded : ∀ source ∈ start.sources, source.Loaded) :
    store.output.Flat := by
  induction session with
  | start => exact fresh
  | append earlier valid ih =>
    exact valid.flat (earlier.read valid loaded) (earlier.sound before loaded) ih
  | turn _ done ih => exact ih.turnPage done
  | save earlier ih => exact ih.save (earlier.sound before loaded) _

/-- Turning and saving neither add pages nor move them. -/
theorem pages (session : Session start history taken store) :
    store.output.pages = start.output.pages ++ history.map Appending.target := by
  induction session with
  | start => simp
  | append _ valid ih => rw [valid.pages_result, ih, List.map_append, List.append_assoc]; rfl
  | turn _ done ih =>
    obtain ⟨_, _, _, _, rfl⟩ := Output.turnPage_eq_ok_iff.1 done
    exact ih
  | save _ ih => exact (Output.pages_save _ _).trans ih

end Session

/-- Whatever is done with a store of loaded documents before it is saved, a reader of what is
saved finds one page for every page that was appended, in the same order. -/
theorem saved_pages_listed {sources : List Source} (loaded : ∀ source ∈ sources, source.Loaded)
    (settings : Settings) (operations : List Operation) (moment : Moment) :
    let start := Store.ofSources sources settings
    let saved := (Store.performAll operations start).save moment
    saved.2.output.Listed ∧ saved.1.document.pages = saved.2.output.document.pages ∧
      ∃ history,
        List.Forall₂ (Appending.Answers sources) (Store.appended operations start) history ∧
        saved.2.output.pages = history.map Appending.target := by
  intro start saved
  obtain ⟨history, session, answers⟩ := Session.start.performAll operations
  rw [List.nil_append, List.nil_append] at session
  rw [Store.sources_ofSources] at answers
  have loaded : ∀ source ∈ start.sources, source.Loaded := by simpa [start] using loaded
  have fresh := Output.sound_empty settings
  have flat := session.flat (Output.flat_empty settings) fresh loaded
  refine ⟨flat.listed_save (session.sound fresh loaded) moment, rfl, history, answers, ?_⟩
  exact (Output.pages_save _ moment).trans session.pages

/-- A page of the form three times, saved in between and turned once. -/
def formEdits : List Operation :=
  [.assemble [⟨0, 0⟩, ⟨0, 0⟩], .save ⟨2024, 2, 29, 12, 0, 0, 0⟩, .assemble [⟨0, 0⟩],
    .applyTurns (.ofList [(1, .quarter)])]

def formEdited : SavedFile × Store :=
  (Store.performAll formEdits (Store.ofSources [form] {})).save ⟨2024, 3, 1, 12, 0, 0, 0⟩

theorem form_listed_thrice :
    formEdited.2.output.Listed ∧ formEdited.1.document.pages.length = 3 := by
  obtain ⟨listed, read, history, answers, pages⟩ :=
    saved_pages_listed form_loaded {} formEdits ⟨2024, 3, 1, 12, 0, 0, 0⟩
  have three : Store.appended formEdits (Store.ofSources [form] {}) =
    [⟨0, 0⟩, ⟨0, 0⟩, ⟨0, 0⟩] := rfl
  have same := congrArg List.length listed.pages
  rw [pages, List.length_map, List.length_map, ← answers.length_eq, three] at same
  exact ⟨listed, (congrArg List.length read).trans same⟩

end PdfAssembly
