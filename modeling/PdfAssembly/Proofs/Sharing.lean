import PdfAssembly.Proofs.Growth

/-! One copy for all pages. What belongs to none of the pages that are appended is copied once for
its document, and two documents share nothing, even if they use the same numbers or are the same
file. Every object of an output is a page, such a copy, or one that a page has for itself. -/
namespace PdfAssembly

open Pdf

def Input.images (input : Input) : List ObjectId := input.copies.entries.map (·.2)

def Appending.unshared (call : Appending) : List ObjectId :=
  (call.made.filter (·.1 ∈ call.owned)).map (·.2)

theorem Input.mem_images_iff {input : Input} {copy : ObjectId} :
    copy ∈ input.images ↔ ∃ id, input.copies.get? id = some copy := by
  simp [images, OrderedMap.get?_eq_some_iff]

theorem Appending.mem_unshared_iff {call : Appending} {copy : ObjectId} :
    copy ∈ call.unshared ↔ ∃ id ∈ call.owned, (id, copy) ∈ call.made := by
  simp [unshared, and_comm]

/-- References to what is copied for a page lead to this copy. -/
theorem Appending.Valid.copy?_of_made {call : Appending} (valid : call.Valid) {id copy : ObjectId}
    (made : (id, copy) ∈ call.made) : call.copy? id = some copy :=
  (valid.tracked.copy id copy).2 (.inl made)

/-- One search makes one copy of an object at most. -/
theorem Appending.Valid.copy_unique {call : Appending} (valid : call.Valid)
    {id copy other : ObjectId} (left : (id, copy) ∈ call.made) (right : (id, other) ∈ call.made) :
    copy = other :=
  Option.some.inj ((valid.copy?_of_made left).symm.trans (valid.copy?_of_made right))

/-- Entries of the shared copies stay when a page is appended. -/
theorem Appending.Valid.keeps_copies {call : Appending} (valid : call.Valid) {document : Nat}
    {input : Input} (found : call.store.inputs[document]? = some input) :
    ∃ later, call.result.inputs[document]? = some later ∧ ∀ id copy,
      input.copies.get? id = some copy → later.copies.get? id = some copy := by
  rw [valid.result_inputs, List.getElem?_set]
  split
  · rename_i same
    subst same
    obtain ⟨inside, _⟩ := List.getElem?_eq_some_iff.1 found
    cases valid.input.symm.trans found
    refine ⟨_, if_pos inside, fun id copy present => ?_⟩
    exact (valid.tracked.shared id copy).2 (.inl present)
  · exact ⟨input, found, fun _ _ present => present⟩

namespace Assembled

variable {start store : Store} {history : List Appending} {call : Appending}

theorem keeps_copies (assembled : Assembled start history store) {document : Nat} {input : Input}
    (found : start.inputs[document]? = some input) :
    ∃ later, store.inputs[document]? = some later ∧ ∀ id copy,
      input.copies.get? id = some copy → later.copies.get? id = some copy := by
  induction assembled with
  | start => exact ⟨input, found, fun _ _ present => present⟩
  | append _ valid ih =>
    obtain ⟨middle, between, first⟩ := ih
    obtain ⟨later, there, second⟩ := valid.keeps_copies between
    exact ⟨later, there, fun id copy present => second id copy (first id copy present)⟩

end Assembled

namespace Recorded

variable {sources : List Source} {history : List Appending} {store : Store}
  {call maker other : Appending}

/-- No identifier is the copy of two objects. -/
theorem made_unique (recorded : Recorded sources history store) (left : maker ∈ history)
    (right : other ∈ history) {id otherId copy : ObjectId} (made : (id, copy) ∈ maker.made)
    (again : (otherId, copy) ∈ other.made) : maker = other ∧ id = otherId := by
  have valid := (recorded.valid maker left).1
  obtain ⟨above, below, _⟩ := valid.made_number made
  obtain ⟨above', below', _⟩ := (recorded.valid other right).1.made_number again
  have same : maker = other := by
    rcases recorded.disjoint left right with same | before | after
    · exact same
    · exact absurd (Nat.lt_of_lt_of_le below before) (Nat.lt_asymm above')
    · exact absurd (Nat.lt_of_lt_of_le below' after) (Nat.lt_asymm above)
  subst same
  exact ⟨rfl, valid.original_unique made again⟩

/-- What is new is neither the page tree nor the catalog. -/
theorem beyond_catalog (recorded : Recorded sources history store) (member : call ∈ history)
    {id : ObjectId} (new : id ∈ call.issued) : Output.catalog.number < id.number := by
  have above := (recorded.ended call member).1
  rcases List.mem_cons.1 new with rfl | copy
  · exact above
  · obtain ⟨pair, made, rfl⟩ := List.mem_map.1 copy
    exact Nat.lt_trans above ((recorded.valid call member).1.made_number made).1

theorem mem_images_iff (recorded : Recorded sources history store) {copy : ObjectId} :
    copy ∈ store.inputs.flatMap Input.images ↔
      ∃ call ∈ history, ∃ id, id ∉ call.owned ∧ (id, copy) ∈ call.made := by
  simp only [List.mem_flatMap, Input.mem_images_iff]
  constructor
  · rintro ⟨input, member, id, found⟩
    obtain ⟨document, place⟩ := List.mem_iff_getElem?.1 member
    obtain ⟨call, inside, _, common, made⟩ := (recorded.shared document input place id copy).1 found
    exact ⟨call, inside, id, common, made⟩
  · rintro ⟨call, member, id, common, made⟩
    obtain ⟨input, place⟩ := recorded.exists_input member
    refine ⟨input, List.mem_of_getElem? place, id, ?_⟩
    exact (recorded.shared _ input place id copy).2 ⟨call, member, rfl, common, made⟩

/-- The shared copies of one document or of two are different for different originals. -/
theorem shared_injective (recorded : Recorded sources history store) {document otherDocument : Nat}
    {input otherInput : Input} (left : store.inputs[document]? = some input)
    (right : store.inputs[otherDocument]? = some otherInput) {id otherId copy : ObjectId}
    (found : input.copies.get? id = some copy)
    (again : otherInput.copies.get? otherId = some copy) :
    document = otherDocument ∧ id = otherId := by
  obtain ⟨maker, inside, rfl, _, made⟩ := (recorded.shared _ _ left id copy).1 found
  obtain ⟨other, present, rfl, _, made'⟩ := (recorded.shared _ _ right otherId copy).1 again
  obtain ⟨rfl, same⟩ := recorded.made_unique inside present made made'
  exact ⟨rfl, same⟩

theorem nodup_targets (recorded : Recorded sources history store) :
    (history.map Appending.target).Nodup := by
  refine List.pairwise_map.2 (recorded.ordered.imp_of_mem fun {earlier later} member _ before => ?_)
  intro same
  have inside := (recorded.valid earlier member).1.target_lt
  rw [same] at inside
  exact Nat.not_lt_of_le before inside

theorem nodup_images (recorded : Recorded sources history store) :
    (store.inputs.flatMap Input.images).Nodup := by
  refine List.nodup_flatMap.2 ⟨fun input member => ?_, List.pairwise_iff_getElem.2 ?_⟩
  · obtain ⟨document, place⟩ := List.mem_iff_getElem?.1 member
    refine List.pairwise_map.2 (input.copies.nodup_keys.of_map _ |>.imp_of_mem ?_)
    rintro ⟨id, copy⟩ ⟨otherId, otherCopy⟩ first second apart same
    cases same
    have found := OrderedMap.get?_eq_some_iff.2 first
    have again := OrderedMap.get?_eq_some_iff.2 second
    exact apart (by rw [(recorded.shared_injective place place found again).2])
  · intro document other inside present below copy left right
    obtain ⟨id, found⟩ := Input.mem_images_iff.1 left
    obtain ⟨otherId, again⟩ := Input.mem_images_iff.1 right
    have same := recorded.shared_injective (List.getElem?_eq_getElem inside)
      (List.getElem?_eq_getElem present) found again
    exact Nat.ne_of_lt below same.1

theorem nodup_unshared (recorded : Recorded sources history store) :
    (history.flatMap Appending.unshared).Nodup := by
  refine List.nodup_flatMap.2 ⟨fun call member => ?_, ?_⟩
  · exact (recorded.valid call member).1.nodup_copies.sublist (List.filter_sublist.map _)
  · refine recorded.nodup_targets.of_map _ |>.imp_of_mem ?_
    intro maker other left right apart copy first second
    obtain ⟨id, _, made⟩ := Appending.mem_unshared_iff.1 first
    obtain ⟨otherId, _, again⟩ := Appending.mem_unshared_iff.1 second
    exact apart (recorded.made_unique left right made again).1

/-- The pages, the copies that are shared and those that are not are all different. -/
theorem nodup_new (recorded : Recorded sources history store) :
    (history.map Appending.target ++ store.inputs.flatMap Input.images ++
      history.flatMap Appending.unshared).Nodup := by
  refine List.nodup_append.2 ⟨List.nodup_append.2
    ⟨recorded.nodup_targets, recorded.nodup_images, ?_⟩, recorded.nodup_unshared, ?_⟩
  · rintro page isPage copy common rfl
    obtain ⟨call, member, rfl⟩ := List.mem_map.1 isPage
    obtain ⟨maker, inside, id, _, made⟩ := recorded.mem_images_iff.1 common
    exact recorded.made_ne_target inside member made rfl
  · rintro copy before other alone rfl
    obtain ⟨maker, inside, own⟩ := List.mem_flatMap.1 alone
    obtain ⟨id, mine, made⟩ := Appending.mem_unshared_iff.1 own
    rcases List.mem_append.1 before with isPage | common
    · obtain ⟨call, member, rfl⟩ := List.mem_map.1 isPage
      exact recorded.made_ne_target inside member made rfl
    · obtain ⟨other, present, otherId, free, again⟩ := recorded.mem_images_iff.1 common
      obtain ⟨rfl, rfl⟩ := recorded.made_unique inside present made again
      exact free mine

/-- What was handed out for the pages of a history are these pages, the copies that are shared and
those that are not. -/
theorem mem_issued_iff (recorded : Recorded sources history store) {id : ObjectId} :
    id ∈ history.flatMap Appending.issued ↔
      id ∈ history.map Appending.target ++ store.inputs.flatMap Input.images ++
        history.flatMap Appending.unshared := by
  simp only [List.mem_append, List.mem_flatMap, recorded.mem_images_iff,
    Appending.mem_unshared_iff, Appending.issued, List.mem_cons, List.mem_map, Prod.exists,
    exists_eq_right]
  constructor
  · rintro ⟨call, member, rfl | ⟨original, made⟩⟩
    · exact .inl (.inl ⟨call, member, rfl⟩)
    · by_cases mine : original ∈ call.owned
      · exact .inr ⟨call, member, original, mine, made⟩
      · exact .inl (.inr ⟨call, member, original, mine, made⟩)
  · rintro ((⟨call, member, rfl⟩ | ⟨call, member, original, _, made⟩) |
      ⟨call, member, original, _, made⟩)
    · exact ⟨call, member, .inl rfl⟩
    · exact ⟨call, member, .inr ⟨original, made⟩⟩
    · exact ⟨call, member, .inr ⟨original, made⟩⟩

/-- A copy that pages share is no page, and it is no part of the page tree. -/
theorem image_apart (recorded : Recorded sources history store) {copy : ObjectId}
    (image : copy ∈ store.inputs.flatMap Input.images) :
    copy ∉ store.output.pages ∧ copy ≠ Output.pagesNode ∧ copy ≠ Output.catalog := by
  obtain ⟨maker, inside, id, _, made⟩ := recorded.mem_images_iff.1 image
  have above : Output.catalog.number < copy.number := recorded.beyond_catalog inside
    (List.mem_cons_of_mem _ (List.mem_map.2 ⟨_, made, rfl⟩))
  refine ⟨fun page => ?_, ?_, ?_⟩
  · obtain ⟨call, present, same⟩ := recorded.mem_pages_iff.1 page
    exact recorded.made_ne_target inside present made same.symm
  · rintro rfl
    exact absurd above (by decide)
  · rintro rfl
    exact absurd above (by decide)

end Recorded

section

variable {sources : List Source} {settings : Settings} {history : List Appending} {store : Store}

/-- The objects of an output are those of an empty one and what was handed out, each once. -/
theorem Assembled.keys_perm
    (assembled : Assembled (Store.ofSources sources settings) history store) :
    store.output.table.keys.Perm ((Store.ofSources sources settings).output.table.keys ++
      (history.map Appending.target ++ store.inputs.flatMap Input.images ++
        history.flatMap Appending.unshared)) := by
  have recorded := assembled.recorded
  refine (List.perm_ext_iff_of_nodup store.output.table.nodup_keys ?_).2 fun id => ?_
  · refine List.nodup_append.2 ⟨OrderedMap.nodup_keys _, recorded.nodup_new, ?_⟩
    -- An empty output has its objects below all numbers that are handed out later.
    rintro id old _ new rfl
    obtain ⟨call, member, issued⟩ := List.mem_flatMap.1 (recorded.mem_issued_iff.2 new)
    have above := recorded.beyond_catalog member issued
    obtain ⟨object, found⟩ := Option.isSome_iff_exists.1 (OrderedMap.mem_keys_iff.1 old)
    rcases Output.eq_of_get?_empty found with rfl | rfl <;> exact absurd above (by decide)
  · rw [List.mem_append, OrderedMap.mem_keys_iff, OrderedMap.mem_keys_iff,
      ← recorded.mem_issued_iff]
    exact assembled.isSome_get?_iff id

structure Store.Shared (history : List Appending) (start store : Store) : Prop where
  /-- No two entries lead to the same copy, be they of one document or of two. -/
  injective : ∀ (document other : Nat) (input otherInput : Input),
    store.inputs[document]? = some input → store.inputs[other]? = some otherInput →
    ∀ id otherId copy, input.copies.get? id = some copy →
      otherInput.copies.get? otherId = some copy → document = other ∧ id = otherId
  apart : ∀ input ∈ store.inputs, ∀ id copy, input.copies.get? id = some copy →
    copy ∉ store.output.pages ∧ copy ≠ Output.pagesNode ∧ copy ≠ Output.catalog
  /-- An entry that there is before a page is appended stays. -/
  kept : ∀ call ∈ history, ∀ (document : Nat) (input : Input),
    call.store.inputs[document]? = some input → ∃ later : Input,
      store.inputs[document]? = some later ∧ ∀ id copy,
        input.copies.get? id = some copy → later.copies.get? id = some copy
  objects : store.output.table.keys.Perm (start.output.table.keys ++
    (history.map Appending.target ++ store.inputs.flatMap Input.images ++
      history.flatMap Appending.unshared))
  /-- A page has one copy at most of what belongs to it. -/
  once : ∀ call ∈ history, ∀ id copy other, (id, copy) ∈ call.made → (id, other) ∈ call.made →
    copy = other
  /-- All pages that something does not belong to refer to the one shared copy of it. -/
  refers : ∀ call ∈ history, ∀ id ∉ call.owned, ∀ copy, call.copy? id = some copy →
    ∃ input : Input, store.inputs[call.document]? = some input ∧ input.copies.get? id = some copy
  /-- What belongs to neither of two pages of a document is not copied for both. -/
  common : ∀ call ∈ history, ∀ other ∈ history, other.document = call.document →
    ∀ id, id ∉ call.owned → id ∉ other.owned → ∀ copy otherCopy, (id, copy) ∈ call.made →
    (id, otherCopy) ∈ other.made → call = other ∧ copy = otherCopy

theorem Assembled.shared (assembled : Assembled (Store.ofSources sources settings) history store) :
    Store.Shared history (Store.ofSources sources settings) store := by
  have recorded := assembled.recorded
  constructor
  · exact fun document other input otherInput left right id otherId copy found again =>
      recorded.shared_injective left right found again
  · intro input member id copy found
    apply recorded.image_apart
    exact List.mem_flatMap.2 ⟨input, member, Input.mem_images_iff.2 ⟨id, found⟩⟩
  · intro call member document input found
    obtain ⟨valid, _⟩ := assembled.before member
    obtain ⟨later, rest⟩ := assembled.after member
    exact ((Assembled.append .start valid).trans rest).keeps_copies found
  · exact assembled.keys_perm
  · exact fun call member id copy other left right =>
      (recorded.valid call member).1.copy_unique left right
  · intro call member id absent copy found
    obtain ⟨input, present⟩ := recorded.exists_input member
    exact ⟨input, present, recorded.get?_copies member present absent found⟩
  · intro call left other right same id mine yours copy otherCopy made again
    obtain rfl := recorded.shared_copy left right same mine yours
      ((recorded.valid call left).1.copy?_of_made made)
      ((recorded.valid other right).1.copy?_of_made again)
    exact ⟨(recorded.made_unique left right made again).1, rfl⟩

end

/-- Whatever lists of pages are assembled, accepted or refused, all pages of a document share one
copy of each object that belongs to none of them, and documents share nothing. Besides the page tree
and the catalog, the output has one object for each page, one for each copy that pages share and one
for each copy that a page has for itself. -/
theorem objects_copied_once (sources : List Source) (settings : Settings)
    (batches : List (List PageReference)) :
    let start := Store.ofSources sources settings
    let store := Store.performAll (batches.map .assemble) start
    ∃ history, Assembled start history store ∧
      List.Forall₂ (Appending.Answers sources) (Store.appended (batches.map .assemble) start)
        history ∧
      Store.Shared history start store := by
  intro start store
  obtain ⟨history, assembled, answers⟩ := start.assembled_batches batches
  rw [Store.sources_ofSources] at answers
  exact ⟨history, assembled, answers, assembled.shared⟩

end PdfAssembly
