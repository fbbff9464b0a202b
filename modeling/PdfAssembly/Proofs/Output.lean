import PdfAssembly.Proofs.Copying

/-! What every output has, whatever was done to it: pages that are dictionaries of their own, a
page tree and a catalog at their places, and free numbers above all that are taken. -/
namespace PdfAssembly

open Pdf

namespace Pdf.Dictionary

theorem get?_append (left right : Dictionary) (key : Bytes) :
    get? (left ++ right) key = (left.get? key).or (right.get? key) := by
  induction left with
  | nil => rfl
  | cons entry rest ih =>
    obtain ⟨name, value⟩ := entry
    by_cases same : name = key
    · simp [get?, Entries.find?, same]
    · simpa [get?, Entries.find?, same] using ih

theorem get?_filter_ne (entries : Dictionary) {name key : Bytes} (apart : key ≠ name) :
    get? (entries.filter (·.1 ≠ name)) key = entries.get? key := by
  induction entries with
  | nil => rfl
  | cons entry rest ih =>
    obtain ⟨other, value⟩ := entry
    simp only [get?] at *
    by_cases drop : other = name
    · simpa [Entries.find?, drop, Ne.symm apart] using ih
    · by_cases same : other = key <;> simp_all [Entries.find?]

theorem get?_replaceEntries (meaning : ObjectId → Object) (entries : Dictionary) (key : Bytes) :
    get? (Object.replaceEntries meaning entries) key =
      (entries.get? key).map (Object.replace meaning) := by
  induction entries with
  | nil => rfl
  | cons entry rest ih =>
    obtain ⟨name, value⟩ := entry
    simp only [get?] at *
    by_cases same : name = key <;> simp [Object.replaceEntries, Entries.find?, same, ih]

/-- An entry takes the place of the one with its key, or comes last if there is none. -/
inductive Puts (key : Bytes) (value : Object) : Dictionary → Dictionary → Prop
  | inPlace {front back : Dictionary} {old : Object} : key ∉ front.map (·.1) →
      Puts key value (front ++ (key, old) :: back) (front ++ (key, value) :: back)
  | last {entries : Dictionary} : key ∉ entries.map (·.1) →
      Puts key value entries (entries ++ [(key, value)])

theorem Puts.cons {key name : Bytes} {value other : Object} {entries changed : Dictionary}
    (puts : Puts key value entries changed) (apart : name ≠ key) :
    Puts key value ((name, other) :: entries) ((name, other) :: changed) := by
  cases puts with
  | inPlace absent =>
    rw [← List.cons_append, ← List.cons_append]
    exact .inPlace (by simpa [Ne.symm apart] using absent)
  | last absent =>
    rw [← List.cons_append]
    exact .last (by simpa [Ne.symm apart] using absent)

theorem puts_set (key : Bytes) (value : Object) (entries : Dictionary) :
    Puts key value entries (set key value entries) := by
  rw [set]
  induction entries with
  | nil => exact .last (by simp)
  | cons entry rest ih =>
    obtain ⟨name, old⟩ := entry
    rw [Entries.put]
    split
    · rename_i same
      subst same
      have first : name ∉ ([] : Dictionary).map (·.1) := by simp
      exact .inPlace first
    · rename_i apart
      exact ih.cons apart

end Pdf.Dictionary

namespace Pdf.Page

/-- What the page itself has comes before what it inherits. -/
theorem get?_flattened {table : Table} {page : Dictionary} {key : Bytes} {value : Object}
    (apart : key ≠ Name.parent) (own : page.get? key = some value) :
    (flattened table page).get? key = some value := by
  rw [flattened_eq, Dictionary.get?_append, Dictionary.get?_filter_ne page apart, own]
  rfl

end Pdf.Page

namespace Appending

variable {call : Appending} {entries : Dictionary} {key : Bytes} {value : Object}

/-- Besides its parent, a new page has what the flattened page has. -/
theorem get?_pageCopy (call : Appending) (page : call.pageCopy = .dictionary entries)
    (apart : key ≠ Name.parent) : entries.get? key =
      (call.entries.get? key).map (Object.replace (call.scope.meaning call.copies)) := by
  rw [pageCopy_eq, Object.dictionary.injEq] at page
  rw [← page, Dictionary.get?_append, Dictionary.get?_replaceEntries]
  simp [Dictionary.get?, Entries.find?, Ne.symm apart]

theorem get?_parent_pageCopy (call : Appending) (page : call.pageCopy = .dictionary entries) :
    entries.get? Name.parent = some (.reference Output.pagesNode) := by
  cases page
  exact (Dictionary.get?_set ..).trans (if_pos rfl)

theorem Valid.translates_entry (valid : call.Valid)
    (originals : ∀ id copy, call.copy? id = some copy → ∃ object, call.source.Copyable id object)
    (entry : call.entries.get? key = some value) :
    Translates call.Means value (value.replace (call.scope.meaning call.copies)) := by
  apply Object.translates_replace
  intro id refers
  exact means (valid.settled_entries (Object.mem_entryReferences entry refers)) (originals id)

/-- A new page has the type that its original has. -/
theorem get?_type_pageCopy (read : call.page.Read call.source.table)
    (page : call.pageCopy = .dictionary entries) :
    entries.get? Name.type = some (.name Name.page) := by
  have own := Dictionary.typeName?_eq_some_iff.1 read.type
  have kept : call.entries.get? Name.type = some (.name Name.page) :=
    Page.get?_flattened (by decide) own
  rw [call.get?_pageCopy page (by decide), kept]
  rfl

theorem pageCopy_type (read : call.page.Read call.source.table) :
    ∃ entries, call.pageCopy = .dictionary entries ∧
      Dictionary.typeName? entries = some Name.page := by
  refine ⟨_, call.pageCopy_eq, Dictionary.typeName?_eq_some_iff.2 ?_⟩
  exact get?_type_pageCopy read call.pageCopy_eq

end Appending

namespace Pdf.Output

structure Sound (output : Output) : Prop where
  start : catalog.number < output.next
  bounded : output.Bounded
  pages : ∀ id ∈ output.pages, catalog.number < id.number ∧ ∃ entries,
    output.table.get? id = some (.dictionary entries) ∧
    Dictionary.typeName? entries = some Name.page
  distinct : output.pages.Nodup
  tree : ∃ entries, output.table.get? pagesNode = some (.dictionary entries) ∧
    Dictionary.typeName? entries = some Name.pages
  root : output.table.get? catalog = some (.dictionary
    [(Name.type, .name Name.catalog), (Name.pages, .reference pagesNode)])
  info : ∀ id, output.info = some id →
    catalog.number < id.number ∧ id.generation = 0 ∧ id.number < output.next ∧ id ∉ output.pages

theorem sound_empty (settings : Settings) : (empty settings).Sound where
  start := Nat.lt_succ_self 2
  bounded := bounded_empty settings
  pages := by simp [empty]
  distinct := .nil
  tree := ⟨treeEntries [], rfl, rfl⟩
  root := rfl
  info := by simp [empty]

variable {output : Output}

theorem Sound.ne_pagesNode (sound : output.Sound) {id : ObjectId} (page : id ∈ output.pages) :
    id ≠ pagesNode := by
  rintro rfl
  exact absurd (sound.pages _ page).1 (by decide)

theorem Sound.ne_catalog (sound : output.Sound) {id : ObjectId} (page : id ∈ output.pages) :
    id ≠ catalog := by
  rintro rfl
  exact absurd (sound.pages _ page).1 (by decide)

/-- The next number is no page's yet. -/
theorem Sound.fresh (sound : output.Sound) : (⟨output.next, 0⟩ : ObjectId) ∉ output.pages := by
  intro page
  obtain ⟨entries, found, _⟩ := (sound.pages _ page).2
  exact Nat.lt_irrefl _ (sound.bounded _ _ found).2

/-- Any object may be replaced, as long as pages stay pages and the tree stays the tree. -/
theorem Sound.insert (sound : output.Sound) {id : ObjectId} {object : Object}
    (taken : id.generation = 0 ∧ id.number < output.next) (root : id ≠ catalog)
    (page : id ∈ output.pages → ∃ entries, object = .dictionary entries ∧
      Dictionary.typeName? entries = some Name.page)
    (tree : id = pagesNode → ∃ entries, object = .dictionary entries ∧
      Dictionary.typeName? entries = some Name.pages) :
    Sound { output with table := output.table.insert id object } where
  start := sound.start
  bounded := by
    intro other value found
    simp only [OrderedMap.get?_insert] at found
    split at found
    · rename_i same
      exact same ▸ taken
    · exact sound.bounded other value found
  pages := by
    intro other member
    refine ⟨(sound.pages other member).1, ?_⟩
    simp only [OrderedMap.get?_insert]
    split
    · rename_i same
      subst same
      obtain ⟨entries, rfl, type⟩ := page member
      exact ⟨entries, rfl, type⟩
    · exact (sound.pages other member).2
  distinct := sound.distinct
  tree := by
    simp only [OrderedMap.get?_insert]
    split
    · rename_i same
      obtain ⟨entries, rfl, type⟩ := tree same
      exact ⟨entries, rfl, type⟩
    · exact sound.tree
  root := (OrderedMap.get?_insert_ne _ _ root).trans sound.root
  info := sound.info

theorem turnedPage_type (page : Dictionary) (turn : Turn) :
    Dictionary.typeName? (turnedPage page turn) = Dictionary.typeName? page := by
  have apart : Name.rotate ≠ Name.type := by decide
  simp [Dictionary.typeName?, turnedPage, Dictionary.get?_set, apart]

/-- Every page of the output can be turned, and turning it changes its dictionary alone. -/
theorem Sound.turnPage (sound : output.Sound) {position : Nat} {id : ObjectId}
    (at_ : output.pages[position]? = some id) (turn : Turn) :
    ∃ entries, output.table.get? id = some (.dictionary entries) ∧
      output.turnPage position turn = .ok { output with
        table := output.table.insert id (.dictionary (turnedPage entries turn)) } ∧
      Sound { output with
        table := output.table.insert id (.dictionary (turnedPage entries turn)) } := by
  have member := List.mem_of_getElem? at_
  obtain ⟨entries, found, type⟩ := (sound.pages id member).2
  refine ⟨entries, found, by simp [Output.turnPage, at_, found], ?_⟩
  apply sound.insert (sound.bounded id _ found) (sound.ne_catalog member)
  · intro _
    exact ⟨_, rfl, (turnedPage_type entries turn).trans type⟩
  · intro same
    exact absurd same (sound.ne_pagesNode member)

theorem Sound.listPages (sound : output.Sound) : output.listPages.Sound := by
  obtain ⟨entries, found, type⟩ := sound.tree
  simp only [Output.listPages, found]
  apply sound.insert (sound.bounded _ _ found) (by decide)
  · intro member
    exact absurd rfl (sound.ne_pagesNode member)
  · intro _
    refine ⟨_, rfl, ?_⟩
    have kids : Name.kids ≠ Name.type := by decide
    have count : Name.count ≠ Name.type := by decide
    simpa [Dictionary.typeName?, Dictionary.get?_set, kids, count] using type

/-- A number that is skipped is never missed. -/
theorem Sound.skip (sound : output.Sound) : Sound { output with next := output.next + 1 } where
  start := Nat.lt_succ_of_lt sound.start
  bounded := by
    intro id object found
    obtain ⟨generation, below⟩ := sound.bounded id object found
    exact ⟨generation, Nat.lt_succ_of_lt below⟩
  pages := sound.pages
  distinct := sound.distinct
  tree := sound.tree
  root := sound.root
  info := by
    intro id known
    obtain ⟨above, generation, below, noPage⟩ := sound.info id known
    exact ⟨above, generation, Nat.lt_succ_of_lt below, noPage⟩

theorem Sound.writeInfo (sound : output.Sound) (moment : Moment) :
    (output.writeInfo moment).2.Sound := by
  unfold Output.writeInfo
  dsimp only
  split
  · rename_i id known
    obtain ⟨above, generation, below, noPage⟩ := sound.info id known
    apply sound.insert ⟨generation, below⟩
    · rintro rfl
      exact Nat.lt_irrefl _ above
    · exact fun page => absurd page noPage
    · rintro rfl
      exact absurd above (by decide)
  · have fresh := sound.fresh
    have above := sound.start
    have written : Sound { output with
        table := output.table.insert ⟨output.next, 0⟩
          (.dictionary (infoEntries output.settings moment))
        next := output.next + 1 } := by
      apply sound.skip.insert ⟨rfl, Nat.lt_succ_self _⟩
      · intro same
        rw [← same] at above
        exact Nat.lt_irrefl _ above
      · exact fun page => absurd page fresh
      · intro same
        have := congrArg ObjectId.number same
        simp only [pagesNode, catalog] at this above
        omega
    exact { written with
      info := by
        intro id same
        cases same
        exact ⟨above, rfl, Nat.lt_succ_self _, fresh⟩ }

/-- Only streams are deflated. -/
theorem get?_deflateStreams (output : Output) {id : ObjectId} {entries : Dictionary}
    (found : output.table.get? id = some (.dictionary entries)) :
    output.deflateStreams.table.get? id = some (.dictionary entries) := by
  simp only [Output.deflateStreams]
  split
  · simp only [OrderedMap.get?_mapValues, found]
    rfl
  · exact found

theorem deflateStreams_eq (output : Output) :
    output.deflateStreams = { output with table := output.deflateStreams.table } := by
  simp only [Output.deflateStreams]
  split <;> rfl

/-- What is there afterwards was there before, deflated or not. -/
theorem of_get?_deflateStreams {id : ObjectId} {object : Object}
    (found : output.deflateStreams.table.get? id = some object) :
    ∃ original, output.table.get? id = some original ∧
      (object = original ∨ object = deflated original) := by
  simp only [Output.deflateStreams] at found
  split at found
  · simp only [OrderedMap.get?_mapValues, Option.map_eq_some_iff] at found
    obtain ⟨original, present, same⟩ := found
    exact ⟨original, present, .inr same.symm⟩
  · exact ⟨object, found, .inl rfl⟩

theorem Sound.deflateStreams (sound : output.Sound) : output.deflateStreams.Sound := by
  rw [deflateStreams_eq]
  constructor
  · exact sound.start
  · intro id object found
    obtain ⟨original, present, _⟩ := of_get?_deflateStreams found
    exact sound.bounded id original present
  · intro id member
    obtain ⟨above, entries, found, type⟩ := sound.pages id member
    exact ⟨above, entries, get?_deflateStreams output found, type⟩
  · exact sound.distinct
  · obtain ⟨entries, found, type⟩ := sound.tree
    exact ⟨entries, get?_deflateStreams output found, type⟩
  · exact get?_deflateStreams output sound.root
  · exact sound.info

theorem Sound.save (sound : output.Sound) (moment : Moment) : (output.save moment).2.Sound :=
  (sound.listPages.writeInfo moment).deflateStreams.skip

end Pdf.Output

theorem Appending.Valid.sound {call : Appending} (valid : call.Valid)
    (read : call.page.Read call.source.table) (sound : call.store.output.Sound) :
    call.result.output.Sound := by
  have old {id : ObjectId} {object : Object}
      (found : call.store.output.table.get? id = some object) :
      call.result.output.table.get? id = some object := by
    rw [valid.get?_old (sound.bounded id object found).2, found]
  have grown : call.store.output.next < call.result.output.next := by
    rw [valid.next_result]
    exact valid.target_lt
  constructor
  · exact Nat.lt_trans sound.start grown
  · exact valid.bounded sound.bounded
  · rw [valid.pages_result]
    refine List.forall_mem_append.2 ⟨?_, List.forall_mem_singleton.2 ?_⟩
    · intro id page
      obtain ⟨above, entries, found, type⟩ := sound.pages id page
      exact ⟨above, entries, old found, type⟩
    · obtain ⟨entries, same, type⟩ := Appending.pageCopy_type read
      exact ⟨sound.start, entries, valid.get?_target.trans (congrArg some same), type⟩
  · rw [valid.pages_result]
    refine List.nodup_append.2 ⟨sound.distinct, List.nodup_singleton _, ?_⟩
    intro id page new inside same
    cases List.mem_singleton.1 inside
    subst same
    exact sound.fresh page
  · obtain ⟨entries, found, type⟩ := sound.tree
    exact ⟨entries, old found, type⟩
  · exact old sound.root
  · intro id known
    rw [valid.result_output] at known
    obtain ⟨above, generation, below, noPage⟩ := sound.info id known
    refine ⟨above, generation, Nat.lt_trans below grown, ?_⟩
    rw [valid.pages_result, List.mem_append, List.mem_singleton]
    rintro (page | rfl)
    · exact noPage page
    · exact Nat.lt_irrefl _ below

end PdfAssembly
