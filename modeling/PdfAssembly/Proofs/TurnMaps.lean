import Mathlib.Data.Finset.Card
import PdfAssembly.Spec.Turn

/-! Maps of turns after any number of assignments. However often a page is mentioned, it has one
entry, which stands behind those of smaller pages and holds the turn that it was given last. -/
namespace PdfAssembly.TurnMap

def assignAll (assignments : List (List Nat × Turn)) (map : TurnMap) : TurnMap :=
  assignments.foldl (fun map (pages, turn) => map.assign pages turn) map

def mentioned (assignments : List (List Nat × Turn)) : List Nat := assignments.flatMap (·.1)

def LastAssigned (assignments : List (List Nat × Turn)) (page : Nat) (turn : Turn) : Prop :=
  ∃ before pages after, assignments = before ++ (pages, turn) :: after ∧ page ∈ pages ∧
    page ∉ mentioned after

variable {assignments : List (List Nat × Turn)} {pages : List Nat} {turn : Turn} {page : Nat}

theorem mentioned_concat : mentioned (assignments ++ [(pages, turn)]) =
    mentioned assignments ++ pages := by
  simp [mentioned]

theorem lastAssigned_nil : ¬ LastAssigned [] page turn := by
  rintro ⟨before, pages, after, same, _⟩
  simp at same

/-- One more assignment decides for its own pages and for no others. -/
theorem lastAssigned_concat {other : Turn} :
    LastAssigned (assignments ++ [(pages, turn)]) page other ↔
      if page ∈ pages then turn = other else LastAssigned assignments page other := by
  constructor
  · rintro ⟨before, among, after, same, member, absent⟩
    rcases List.eq_nil_or_concat after with rfl | ⟨later, last, rfl⟩
    · obtain ⟨_, now⟩ := List.append_inj' same rfl
      cases now
      rw [if_pos member]
    · rw [List.concat_eq_append, ← List.cons_append, ← List.append_assoc] at same
      obtain ⟨rfl, now⟩ := List.append_inj' same rfl
      cases now
      rw [List.concat_eq_append, mentioned_concat, List.mem_append, not_or] at absent
      rw [if_neg absent.2]
      exact ⟨before, among, later, rfl, member, absent.1⟩
  · intro assigned
    split at assigned
    · rename_i member
      subst assigned
      exact ⟨assignments, pages, [], rfl, member, by simp [mentioned]⟩
    · rename_i absent
      obtain ⟨before, among, after, rfl, member, later⟩ := assigned
      refine ⟨before, among, after ++ [(pages, turn)], by simp, member, ?_⟩
      rw [mentioned_concat, List.mem_append, not_or]
      exact ⟨later, absent⟩

structure Holds (assignments : List (List Nat × Turn)) (turns : TurnMap) : Prop where
  last : ∀ page turn, turns.get? page = some turn ↔ LastAssigned assignments page turn
  present : ∀ page, (turns.get? page).isSome ↔ page ∈ mentioned assignments

theorem holds_empty : Holds [] ∅ where
  last := by simp [lastAssigned_nil]
  present := by simp [mentioned]

theorem Holds.assign {turns : TurnMap} (holds : Holds assignments turns) (pages : List Nat)
    (turn : Turn) : Holds (assignments ++ [(pages, turn)]) (turns.assign pages turn) where
  last := by
    intro page other
    rw [get?_assign, lastAssigned_concat]
    split
    · exact Option.some_inj
    · exact holds.last page other
  present := by
    intro page
    rw [get?_assign, mentioned_concat, List.mem_append]
    split
    · rename_i member
      simp [member]
    · rename_i absent
      simp [absent, holds.present]

theorem holds_assignAll (assignments : List (List Nat × Turn)) :
    Holds assignments (assignAll assignments ∅) := by
  induction assignments using List.reverseRecOn with
  | nil => exact holds_empty
  | append_singleton earlier assignment ih =>
    obtain ⟨pages, turn⟩ := assignment
    have step : assignAll (earlier ++ [(pages, turn)]) ∅ =
        (assignAll earlier ∅).assign pages turn := by
      simp [assignAll]
    exact step ▸ ih.assign pages turn

theorem Holds.size {turns : TurnMap} (holds : Holds assignments turns) :
    turns.size = (mentioned assignments).toFinset.card := by
  have same : turns.keys.toFinset = (mentioned assignments).toFinset := by
    ext page
    rw [List.mem_toFinset, List.mem_toFinset, OrderedMap.mem_keys_iff, holds.present]
  rw [← same, List.toFinset_card_of_nodup turns.nodup_keys, OrderedMap.keys, List.length_map]
  rfl

theorem Holds.isEmpty {turns : TurnMap} (holds : Holds assignments turns) :
    turns.isEmpty ↔ mentioned assignments = [] := by
  have empty : turns.isEmpty ↔ turns.keys = [] := by
    simp [OrderedMap.isEmpty, OrderedMap.keys]
  rw [empty, List.eq_nil_iff_forall_not_mem, List.eq_nil_iff_forall_not_mem]
  simp only [OrderedMap.mem_keys_iff, holds.present]

/-- Whatever pages are assigned whatever turns, in whatever order: a map that starts empty lists its
pages in strictly ascending order with what a look-up answers, which is the turn assigned last, and
its size is the number of different pages that were mentioned. -/
theorem last_turns_in_page_order (assignments : List (List Nat × Turn)) :
    let turns := assignAll assignments ∅
    turns.entries.Pairwise (fun entry later => entry.1 < later.1) ∧
    (∀ page turn, (page, turn) ∈ turns.entries ↔ turns.get? page = some turn) ∧
    (∀ page turn, turns.get? page = some turn ↔ LastAssigned assignments page turn) ∧
    (∀ page, turns.get? page = none ↔ page ∉ mentioned assignments) ∧
    turns.size = (mentioned assignments).toFinset.card ∧
    (turns.isEmpty ↔ mentioned assignments = []) := by
  intro turns
  have holds := holds_assignAll assignments
  refine ⟨turns.ascending, ?_, holds.last, ?_, holds.size, holds.isEmpty⟩
  · exact fun page turn => OrderedMap.get?_eq_some_iff.symm
  · intro page
    rw [← holds.present, Option.not_isSome_iff_eq_none]

example : (assignAll [([2, 0, 2], .half), ([], .quarter), ([0, 7], .upright)] ∅).entries =
    [(0, .upright), (2, .half), (7, .upright)] := by decide

end PdfAssembly.TurnMap
