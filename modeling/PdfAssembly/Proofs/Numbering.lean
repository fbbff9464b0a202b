import Mathlib.Data.List.Perm.Subperm
import PdfAssembly.Proofs.Saving
import PdfAssembly.Proofs.Session

/-! The numbers of an output. Each of them is the number of an object, or a save took it for its
stream of cross references; none is handed out and left unused. -/
namespace PdfAssembly

open Pdf

namespace Pdf.Output

variable {output : Output} {taken : List Nat} (moment : Moment)

/-- Turning a page that exists rewrites its dictionary. -/
theorem turnPage_eq_ok_iff {position : Nat} {turn : Turn} {after : Output} :
    output.turnPage position turn = .ok after ↔ ∃ id entries,
      output.pages[position]? = some id ∧ output.table.get? id = some (.dictionary entries) ∧
      { output with table := output.table.insert id (.dictionary (turnedPage entries turn)) } =
        after := by
  simp only [Output.turnPage]
  cases output.pages[position]? with
  | none => simp
  | some id =>
    cases found : output.table.get? id with
    | none => simp [found]
    | some object => cases object <;> simp [found]

theorem isSome_get?_insert {table : Table} {id other : ObjectId} {object : Object} :
    ((table.insert id object).get? other).isSome ↔ id = other ∨ (table.get? other).isSome := by
  rw [OrderedMap.get?_insert]
  split <;> simp_all

/-- What is replaced was there before. -/
theorem isSome_get?_replace {table : Table} {id : ObjectId} {old : Object}
    (found : table.get? id = some old) (object : Object) (other : ObjectId) :
    ((table.insert id object).get? other).isSome ↔ (table.get? other).isSome := by
  rw [isSome_get?_insert, or_iff_right_of_imp]
  rintro rfl
  exact Option.isSome_of_eq_some found

theorem isSome_get?_turnPage {position : Nat} {turn : Turn} {after : Output}
    (done : output.turnPage position turn = .ok after) (id : ObjectId) :
    (after.table.get? id).isSome ↔ (output.table.get? id).isSome := by
  obtain ⟨page, entries, _, found, rfl⟩ := turnPage_eq_ok_iff.1 done
  exact isSome_get?_replace found _ id

theorem Sound.isSome_get?_listPages (sound : output.Sound) (id : ObjectId) :
    (output.listPages.table.get? id).isSome ↔ (output.table.get? id).isSome := by
  obtain ⟨entries, found, _⟩ := sound.tree
  simp only [Output.listPages, found]
  exact isSome_get?_replace found _ id

theorem isSome_get?_writeInfo (id : ObjectId) :
    ((output.writeInfo moment).2.table.get? id).isSome ↔
      (output.writeInfo moment).1 = id ∨ (output.table.get? id).isSome := by
  unfold writeInfo
  dsimp only
  split <;> exact isSome_get?_insert

theorem isSome_get?_deflateStreams (id : ObjectId) :
    (output.deflateStreams.table.get? id).isSome ↔ (output.table.get? id).isSome := by
  simp only [Output.deflateStreams]
  split
  · simp [OrderedMap.get?_mapValues]
  · rfl

theorem Sound.isSome_get?_save (sound : output.Sound) (id : ObjectId) :
    ((output.save moment).2.table.get? id).isSome ↔
      (output.listPages.writeInfo moment).1 = id ∨ (output.table.get? id).isSome := by
  rw [← sound.isSome_get?_listPages, ← isSome_get?_writeInfo]
  exact isSome_get?_deflateStreams id

/-- Every number below the next one belongs to an object, except those taken for other things. -/
structure Numbered (output : Output) (taken : List Nat) : Prop where
  present : ∀ id, (output.table.get? id).isSome ↔
    id.generation = 0 ∧ 0 < id.number ∧ id.number < output.next ∧ id.number ∉ taken
  distinct : taken.Nodup
  inside : ∀ number ∈ taken, 0 < number ∧ number < output.next
  info : ∀ id, output.info = some id → id.number ∉ taken

theorem numbered_empty (settings : Settings) : (empty settings).Numbered [] where
  present := by
    intro id
    have entries : (empty settings).table.keys = [pagesNode, catalog] := rfl
    rw [← OrderedMap.mem_keys_iff, entries]
    obtain ⟨number, generation⟩ := id
    simp only [pagesNode, catalog, empty, List.mem_cons, List.not_mem_nil, ObjectId.mk.injEq,
      or_false, not_false_eq_true, and_true]
    omega
  distinct := .nil
  inside := by simp
  info := by simp

/-- The information dictionary is one of the objects. -/
theorem Numbered.isSome_info (numbered : output.Numbered taken) (sound : output.Sound)
    {id : ObjectId} (known : output.info = some id) : (output.table.get? id).isSome := by
  obtain ⟨above, generation, below, _⟩ := sound.info id known
  exact (numbered.present id).2 ⟨generation, Nat.zero_lt_of_lt above, below, numbered.info id known⟩

/-- Only which objects there are counts, not what they are. -/
theorem Numbered.congr (numbered : output.Numbered taken) {after : Output}
    (same : ∀ id, (after.table.get? id).isSome ↔ (output.table.get? id).isSome)
    (next : after.next = output.next) (info : after.info = output.info) :
    after.Numbered taken where
  present := by
    intro id
    rw [same, numbered.present, next]
  distinct := numbered.distinct
  inside := next ▸ numbered.inside
  info := info ▸ numbered.info

theorem Numbered.turnPage (numbered : output.Numbered taken) {position : Nat} {turn : Turn}
    {after : Output} (done : output.turnPage position turn = .ok after) :
    after.Numbered taken := by
  have same := isSome_get?_turnPage done
  obtain ⟨page, entries, _, _, rfl⟩ := turnPage_eq_ok_iff.1 done
  exact numbered.congr same rfl rfl

theorem Numbered.listPages (numbered : output.Numbered taken) (sound : output.Sound) :
    output.listPages.Numbered taken := by
  apply numbered.congr sound.isSome_get?_listPages
  all_goals
    simp only [Output.listPages]
    split <;> rfl

theorem Numbered.deflateStreams (numbered : output.Numbered taken) :
    output.deflateStreams.Numbered taken := by
  rw [deflateStreams_eq]
  exact numbered.congr isSome_get?_deflateStreams rfl rfl

theorem Numbered.writeInfo (numbered : output.Numbered taken) (sound : output.Sound) :
    (output.writeInfo moment).2.Numbered taken := by
  unfold Output.writeInfo
  cases known : output.info with
  | some id =>
    obtain ⟨old, found⟩ := Option.isSome_iff_exists.1 (numbered.isSome_info sound known)
    exact numbered.congr (isSome_get?_replace found _) rfl known.symm
  | none =>
    have fresh : output.next ∉ taken := fun member => Nat.lt_irrefl _ (numbered.inside _ member).2
    constructor
    · intro id
      rw [isSome_get?_insert, numbered.present]
      constructor
      · rintro (rfl | ⟨generation, above, below, free⟩)
        · exact ⟨rfl, Nat.zero_lt_of_lt sound.start, Nat.lt_succ_self _, fresh⟩
        · exact ⟨generation, above, Nat.lt_succ_of_lt below, free⟩
      · rintro ⟨generation, above, below, free⟩
        rcases Nat.lt_succ_iff_lt_or_eq.1 below with old | new
        · exact .inr ⟨generation, above, old, free⟩
        · exact .inl (by cases id; simp_all)
    · exact numbered.distinct
    · intro number member
      obtain ⟨above, below⟩ := numbered.inside number member
      exact ⟨above, Nat.lt_succ_of_lt below⟩
    · intro id same
      cases same
      exact fresh

/-- A number that is handed out for no object is taken. -/
theorem Numbered.skip (numbered : output.Numbered taken) (sound : output.Sound) :
    Numbered { output with next := output.next + 1 } (taken ++ [output.next]) where
  present := by
    intro id
    rw [numbered.present, List.mem_append, List.mem_singleton, not_or]
    constructor
    · rintro ⟨generation, above, below, free⟩
      exact ⟨generation, above, Nat.lt_succ_of_lt below, free, Nat.ne_of_lt below⟩
    · rintro ⟨generation, above, below, free, other⟩
      exact ⟨generation, above, Nat.lt_of_le_of_ne (Nat.le_of_lt_succ below) other, free⟩
  distinct := by
    refine List.nodup_append.2 ⟨numbered.distinct, List.nodup_singleton _, ?_⟩
    intro number member other new same
    rw [List.mem_singleton.1 new] at same
    exact Nat.ne_of_lt (numbered.inside number member).2 same
  inside := by
    refine List.forall_mem_append.2 ⟨?_, List.forall_mem_singleton.2 ?_⟩
    · intro number member
      obtain ⟨above, below⟩ := numbered.inside number member
      exact ⟨above, Nat.lt_succ_of_lt below⟩
    · exact ⟨Nat.zero_lt_of_lt sound.start, Nat.lt_succ_self _⟩
  info := by
    intro id known
    rw [List.mem_append, List.mem_singleton, not_or]
    exact ⟨numbered.info id known, Nat.ne_of_lt (sound.info id known).2.2.1⟩

theorem Numbered.save (numbered : output.Numbered taken) (sound : output.Sound) :
    (output.save moment).2.Numbered (taken ++ [(output.save moment).1.streamNumber]) := by
  have written := (numbered.listPages sound).writeInfo moment sound.listPages
  have ready := (sound.listPages.writeInfo moment).deflateStreams
  exact written.deflateStreams.skip ready

end Pdf.Output

namespace Pdf.CopyScope

/-- A search hands out its numbers without a gap. -/
theorem Tracked.exists_made {scope : CopyScope} {base : ObjectMap} {first : Nat} {copies : Copies}
    (tracked : Tracked scope base first copies) {number : Nat} (above : first ≤ number)
    (below : number < copies.next) : ∃ pair ∈ copies.made, pair.2.number = number := by
  have distinct : (copies.made.map (·.2.number)).Nodup :=
    List.pairwise_map.2 (tracked.descending.imp fun lower => Nat.ne_of_gt lower)
  have extent := tracked.next
  have within : copies.made.map (·.2.number) ⊆ List.range' first copies.made.length := by
    intro other member
    obtain ⟨pair, made, rfl⟩ := List.mem_map.1 member
    have := tracked.numbered pair made
    rw [List.mem_range'_1]
    omega
  -- As many different numbers as there are between the first and the next one are all of these.
  have all := (distinct.subperm within).perm_of_length_le (by simp)
  have member : number ∈ copies.made.map (·.2.number) := by
    rw [all.mem_iff, List.mem_range'_1]
    omega
  exact List.mem_map.1 member

end Pdf.CopyScope

namespace Appending.Valid

variable {call : Appending}

/-- The copies made for a page have the numbers that follow the page's number. -/
theorem mem_made_iff (valid : call.Valid) {id : ObjectId} : id ∈ call.made.map (·.2) ↔
    id.generation = 0 ∧ call.target.number < id.number ∧ id.number < call.copies.next := by
  constructor
  · intro member
    obtain ⟨pair, made, rfl⟩ := List.mem_map.1 member
    obtain ⟨above, below, generation⟩ := valid.made_number made
    exact ⟨generation, above, below⟩
  · rintro ⟨generation, above, below⟩
    obtain ⟨pair, made, same⟩ := valid.tracked.exists_made above below
    refine List.mem_map.2 ⟨pair, made, ?_⟩
    have other := (valid.made_number made).2.2
    cases id
    cases copy : pair.2
    simp_all

theorem numbered (valid : call.Valid) {taken : List Nat} (start : 0 < call.store.output.next)
    (numbered : call.store.output.Numbered taken) : call.result.output.Numbered taken where
  present := by
    intro id
    have grown : call.store.output.next < call.copies.next := valid.target_lt
    have free (number : Nat) (new : call.store.output.next ≤ number) : number ∉ taken :=
      fun member => Nat.not_le_of_gt (numbered.inside number member).2 new
    rw [valid.isSome_get?_result, numbered.present, valid.mem_made_iff, valid.next_result]
    constructor
    · rintro (⟨generation, above, below, unused⟩ | rfl | ⟨generation, above, below⟩)
      · exact ⟨generation, above, Nat.lt_trans below grown, unused⟩
      · exact ⟨rfl, start, grown, free _ (Nat.le_refl _)⟩
      · exact ⟨generation, Nat.zero_lt_of_lt above, below, free _ (Nat.le_of_lt above)⟩
    · rintro ⟨generation, above, below, unused⟩
      rcases Nat.lt_trichotomy id.number call.store.output.next with old | page | new
      · exact .inl ⟨generation, above, old, unused⟩
      · refine .inr (.inl ?_)
        cases id
        simp_all [Appending.target]
      · exact .inr (.inr ⟨generation, new, below⟩)
  distinct := numbered.distinct
  inside := by
    intro number member
    obtain ⟨above, below⟩ := numbered.inside number member
    rw [valid.next_result]
    exact ⟨above, Nat.lt_trans below valid.target_lt⟩
  info := by
    rw [valid.result_output]
    exact numbered.info

end Appending.Valid

namespace Session

variable {start store : Store} {history : List Appending} {taken : List Nat}

/-- A page that can be appended is one that loading found. -/
theorem read {call : Appending} (session : Session start history taken call.store)
    (valid : call.Valid) (loaded : ∀ source ∈ start.sources, source.Loaded) :
    call.page.Read call.source.table := by
  have member : call.source ∈ call.store.sources :=
    List.mem_map.2 ⟨call.input, List.mem_of_getElem? valid.input, rfl⟩
  exact (loaded _ (session.sources ▸ member)).read valid.page

theorem sound (session : Session start history taken store) (before : start.output.Sound)
    (loaded : ∀ source ∈ start.sources, source.Loaded) : store.output.Sound := by
  induction session with
  | start => exact before
  | append earlier valid ih => exact valid.sound (earlier.read valid loaded) ih
  | turn _ done ih =>
    obtain ⟨id, entries, place, _⟩ := Output.turnPage_eq_ok_iff.1 done
    obtain ⟨_, _, step, next⟩ := ih.turnPage place _
    cases done.symm.trans step
    exact next
  | save _ ih => exact ih.save _

theorem numbered (session : Session start history taken store) (fresh : start.output.Numbered [])
    (before : start.output.Sound) (loaded : ∀ source ∈ start.sources, source.Loaded) :
    store.output.Numbered taken := by
  induction session with
  | start => exact fresh
  | append earlier valid ih =>
    exact valid.numbered (Nat.zero_lt_of_lt (earlier.sound before loaded).start) ih
  | turn _ done ih => exact ih.turnPage done
  | save earlier ih => exact ih.save _ (earlier.sound before loaded)

end Session

end PdfAssembly
