import PdfAssembly.Pdf.Copy

/-! The search for everything that a page leads to. Each object found is handed one new number,
and at the end of the search nothing that was to be copied is without a copy. -/
namespace PdfAssembly.Pdf

theorem Source.isPage_eq_true_iff {source : Source} {id : ObjectId} :
    source.isPage id = true ↔ ∃ page ∈ source.pages, page.id = id := by
  simp [isPage]

/-- What is copied when something refers to it: no page, and no node of a page tree. -/
def Source.Copyable (source : Source) (id : ObjectId) (object : Object) : Prop :=
  source.isPage id = false ∧ source.table.resolve id = some object ∧ object.isPageTreeNode = false

theorem Source.Copyable.unique {source : Source} {id : ObjectId} {a b : Object}
    (left : source.Copyable id a) (right : source.Copyable id b) : a = b :=
  Option.some.inj (left.2.1.symm.trans right.2.1)

namespace CopyScope

variable {scope : CopyScope} {base : ObjectMap} {first : Nat} {copies : Copies}

theorem uncopied?_eq_some_iff (listed : scope.source.isPage scope.page.id = true)
    {id : ObjectId} {object : Object} :
    scope.uncopied? copies id = some object ↔
      scope.source.Copyable id object ∧ scope.copy? copies id = none := by
  have other (absent : scope.source.isPage id = false) : id ≠ scope.page.id := by
    intro same
    simp [same, listed] at absent
  simp only [uncopied?, Source.Copyable]
  constructor
  · intro found
    split at found
    · contradiction
    · rename_i fresh
      simp only [not_or, Bool.not_eq_true, Option.isSome_eq_false_iff, Option.isNone_iff_eq_none]
        at fresh
      obtain ⟨resolved, plain⟩ := Option.filter_eq_some_iff.1 found
      exact ⟨⟨fresh.2.1, resolved, by simpa using plain⟩, fresh.2.2⟩
  · rintro ⟨⟨absent, resolved, plain⟩, fresh⟩
    rw [if_neg (by simp [other absent, absent, fresh])]
    exact Option.filter_eq_some_iff.2 ⟨resolved, by simpa using plain⟩

/-- The books kept during a search that began with the shared copies `base` and the free number
`first`: every pair made has a number of its own, and the copy of an identifier is the one made
since then or, where copies are shared, the one that there was. -/
structure Tracked (scope : CopyScope) (base : ObjectMap) (first : Nat) (copies : Copies) :
    Prop where
  next : copies.next = first + copies.made.length
  descending : copies.made.Pairwise fun later earlier => earlier.2.number < later.2.number
  numbered : ∀ pair ∈ copies.made,
    first ≤ pair.2.number ∧ pair.2.number < copies.next ∧ pair.2.generation = 0
  copyable : ∀ pair ∈ copies.made, ∃ object, scope.source.Copyable pair.1 object
  copy : ∀ id copy, scope.copy? copies id = some copy ↔
    (id, copy) ∈ copies.made ∨ id ∉ scope.owned ∧ base.get? id = some copy
  shared : ∀ id copy, copies.shared.get? id = some copy ↔
    base.get? id = some copy ∨ id ∉ scope.owned ∧ (id, copy) ∈ copies.made

theorem tracked_start (scope : CopyScope) (base : ObjectMap) (first : Nat) :
    Tracked scope base first { shared := base, next := first } where
  next := rfl
  descending := .nil
  numbered := by simp
  copyable := by simp
  copy := by
    intro id copy
    by_cases mine : id ∈ scope.owned <;> simp [copy?, mine]
  shared := by simp

theorem shared_register (scope : CopyScope) (copies : Copies) (id other : ObjectId) :
    (scope.register copies id).shared.get? other =
      if id ∉ scope.owned ∧ id = other then some ⟨copies.next, 0⟩
      else copies.shared.get? other := by
  simp only [register]
  by_cases mine : id ∈ scope.owned <;> simp [mine, OrderedMap.get?_insert]

@[simp] theorem made_register (scope : CopyScope) (copies : Copies) (id : ObjectId) :
    (scope.register copies id).made = (id, ⟨copies.next, 0⟩) :: copies.made := by
  simp only [register]
  split <;> rfl

@[simp] theorem next_register (scope : CopyScope) (copies : Copies) (id : ObjectId) :
    (scope.register copies id).next = copies.next + 1 := by
  simp only [register]
  split <;> rfl

theorem tracked_register (tracked : Tracked scope base first copies) {id : ObjectId}
    {object : Object} (new : scope.source.Copyable id object)
    (fresh : scope.copy? copies id = none) :
    Tracked scope base first (scope.register copies id) := by
  have unmade (copy : ObjectId) : (id, copy) ∉ copies.made := by
    intro member
    simp [(tracked.copy id copy).2 (.inl member)] at fresh
  have unshared (mine : id ∉ scope.owned) (copy : ObjectId) : base.get? id ≠ some copy := by
    intro found
    simp [(tracked.copy id copy).2 (.inr ⟨mine, found⟩)] at fresh
  constructor
  · have := tracked.next
    simp only [next_register, made_register, List.length_cons]
    omega
  · rw [made_register, List.pairwise_cons]
    exact ⟨fun pair member => (tracked.numbered pair member).2.1, tracked.descending⟩
  · intro pair member
    have next := tracked.next
    rw [made_register, List.mem_cons] at member
    rw [next_register]
    rcases member with rfl | member
    · exact ⟨by simp only; omega, Nat.lt_succ_self _, rfl⟩
    · obtain ⟨above, below, generation⟩ := tracked.numbered pair member
      exact ⟨above, by omega, generation⟩
  · intro pair member
    rw [made_register, List.mem_cons] at member
    rcases member with rfl | member
    · exact ⟨object, new⟩
    · exact tracked.copyable pair member
  · intro other copy
    rw [copy?_register, made_register, List.mem_cons]
    by_cases same : id = other
    · subst same
      have := unmade copy
      have := fun mine => unshared mine copy
      simp only [if_true, Option.some.injEq, Prod.mk.injEq, true_and]
      grind
    · rw [if_neg same, tracked.copy]
      simp [Ne.symm same]
  · intro other copy
    rw [shared_register, made_register, List.mem_cons]
    by_cases same : id = other
    · subst same
      have := unmade copy
      have := fun mine => unshared mine copy
      by_cases mine : id ∈ scope.owned
      · simp [mine, tracked.shared]
      · simp only [mine, not_false_eq_true, and_self, if_true, Option.some.injEq, Prod.mk.injEq,
          true_and]
        grind
    · simp [same, Ne.symm same, tracked.shared]

/-- No object of the document is given two copies. -/
theorem Tracked.nodup_originals {base : ObjectMap} {first : Nat}
    (tracked : Tracked scope base first copies) : (copies.made.map (·.1)).Nodup := by
  apply List.pairwise_map.2
  refine tracked.descending.imp_of_mem fun {later earlier} inLater inEarlier below same => ?_
  have left := (tracked.copy later.1 later.2).2 (.inl inLater)
  have right := (tracked.copy earlier.1 earlier.2).2 (.inl inEarlier)
  rw [same, right] at left
  rw [Option.some.inj left] at below
  exact Nat.lt_irrefl _ below

theorem Tracked.nodup_copies {base : ObjectMap} {first : Nat}
    (tracked : Tracked scope base first copies) : (copies.made.map (·.2)).Nodup := by
  apply List.pairwise_map.2
  refine tracked.descending.imp fun below same => ?_
  rw [same] at below
  exact Nat.lt_irrefl _ below

@[simp] theorem discover_nil (scope : CopyScope) (copies : Copies) :
    scope.discover copies [] = copies := by
  rw [discover]

theorem discover_cons (scope : CopyScope) (copies : Copies) (id : ObjectId)
    (rest : List ObjectId) :
    scope.discover copies (id :: rest) =
      match scope.uncopied? copies id with
      | none => scope.discover copies rest
      | some object => scope.discover (scope.register copies id) (object.references ++ rest) := by
  rw [discover]
  split <;> rename_i found <;> simp [found]

theorem discover_of_skipped {id : ObjectId} (rest : List ObjectId)
    (skipped : scope.uncopied? copies id = none) :
    scope.discover copies (id :: rest) = scope.discover copies rest := by
  rw [discover_cons, skipped]

theorem discover_of_found {id : ObjectId} {object : Object} (rest : List ObjectId)
    (found : scope.uncopied? copies id = some object) :
    scope.discover copies (id :: rest) =
      scope.discover (scope.register copies id) (object.references ++ rest) := by
  rw [discover_cons, found]

/-- A search may pause anywhere. -/
theorem discover_append (scope : CopyScope) (copies : Copies) (first later : List ObjectId) :
    scope.discover copies (first ++ later) =
      scope.discover (scope.discover copies first) later := by
  induction copies, first using discover.induct scope with
  | case1 copies => simp
  | case2 copies id rest skipped ih =>
    rw [List.cons_append, discover_of_skipped _ skipped, discover_of_skipped _ skipped]
    exact ih
  | case3 copies id rest object found ih =>
    rw [List.cons_append, discover_of_found _ found, discover_of_found _ found]
    rw [List.append_assoc] at ih
    exact ih

/-- The search within so many steps, for small documents. -/
def explore (scope : CopyScope) : (steps : Nat) → Copies → List ObjectId → Option Copies
  | _, copies, [] => some copies
  | 0, _, _ :: _ => none
  | steps + 1, copies, id :: rest =>
    match scope.uncopied? copies id with
    | none => explore scope steps copies rest
    | some object => explore scope steps (scope.register copies id) (object.references ++ rest)

theorem discover_of_explore (steps : Nat) {pending : List ObjectId} {found : Copies}
    (done : scope.explore steps copies pending = some found) :
    scope.discover copies pending = found := by
  fun_induction explore scope steps copies pending with
  | case1 => simpa using done
  | case2 => cases done
  | case3 steps copies id rest skipped ih =>
    rw [discover_cons, skipped]
    exact ih done
  | case4 steps copies id rest object new ih =>
    rw [discover_cons, new]
    exact ih done

theorem tracked_discover (listed : scope.source.isPage scope.page.id = true)
    (pending : List ObjectId) (tracked : Tracked scope base first copies) :
    Tracked scope base first (scope.discover copies pending) := by
  induction copies, pending using discover.induct scope with
  | case1 copies => simpa using tracked
  | case2 copies id rest skipped ih =>
    rw [discover_cons, skipped]
    exact ih tracked
  | case3 copies id rest object found ih =>
    rw [discover_cons, found]
    obtain ⟨new, fresh⟩ := (uncopied?_eq_some_iff listed).1 found
    exact ih (tracked_register tracked new fresh)

/-- Copies once handed out are never taken back. -/
theorem copy?_discover {id copy : ObjectId} (pending : List ObjectId)
    (found : scope.copy? copies id = some copy) :
    scope.copy? (scope.discover copies pending) id = some copy := by
  induction copies, pending using discover.induct scope with
  | case1 copies => simpa using found
  | case2 copies other rest skipped ih =>
    rw [discover_cons, skipped]
    exact ih found
  | case3 copies other rest object new ih =>
    rw [discover_cons, new]
    apply ih
    have apart : other ≠ id := by
      intro same
      simp [uncopied?, same, found] at new
    rw [copy?_register, if_neg apart, found]

def Settled (scope : CopyScope) (copies : Copies) (id : ObjectId) : Prop :=
  ∀ object, scope.source.Copyable id object → (scope.copy? copies id).isSome

theorem settled_of_uncopied?_eq_none (listed : scope.source.isPage scope.page.id = true)
    {id : ObjectId} (skipped : scope.uncopied? copies id = none) : scope.Settled copies id := by
  intro object new
  cases fresh : scope.copy? copies id with
  | some copy => rfl
  | none => simp [(uncopied?_eq_some_iff listed).2 ⟨new, fresh⟩] at skipped

theorem Settled.discover {id : ObjectId} (settled : scope.Settled copies id)
    (pending : List ObjectId) : scope.Settled (scope.discover copies pending) id := by
  intro object new
  obtain ⟨copy, found⟩ := Option.isSome_iff_exists.1 (settled object new)
  simp [copy?_discover pending found]

/-- The search deals with all that it is given. -/
theorem settled_pending (listed : scope.source.isPage scope.page.id = true)
    (copies : Copies) (pending : List ObjectId) :
    ∀ id ∈ pending, scope.Settled (scope.discover copies pending) id := by
  induction copies, pending using discover.induct scope with
  | case1 copies => simp
  | case2 copies id rest skipped ih =>
    rw [discover_cons, skipped]
    intro other member
    rcases List.mem_cons.1 member with rfl | later
    · exact (settled_of_uncopied?_eq_none listed skipped).discover rest
    · exact ih other later
  | case3 copies id rest object found ih =>
    rw [discover_cons, found]
    intro other member
    rcases List.mem_cons.1 member with rfl | later
    · have registered : scope.Settled (scope.register copies other) other := by
        intro _ _
        simp [copy?_register]
      exact registered.discover _
    · exact ih other (List.mem_append_right _ later)

/-- The search deals with all that the objects found by it refer to. -/
theorem settled_made (listed : scope.source.isPage scope.page.id = true)
    (copies : Copies) (pending : List ObjectId) :
    ∀ pair ∈ (scope.discover copies pending).made, pair ∉ copies.made →
      ∀ object, scope.source.Copyable pair.1 object →
        ∀ id ∈ object.references, scope.Settled (scope.discover copies pending) id := by
  induction copies, pending using discover.induct scope with
  | case1 copies =>
    intro pair member absent
    exact absurd (by simpa using member) absent
  | case2 copies id rest skipped ih =>
    rw [discover_cons, skipped]
    exact ih
  | case3 copies id rest object found ih =>
    rw [discover_cons, found]
    intro pair member absent other new
    by_cases now : pair = (id, ⟨copies.next, 0⟩)
    · subst now
      have same := new.unique ((uncopied?_eq_some_iff listed).1 found).1
      subst same
      intro target inside
      exact settled_pending listed _ _ target (List.mem_append_left _ inside)
    · exact ih pair member (by simp [now, absent]) other new

end CopyScope

end PdfAssembly.Pdf
