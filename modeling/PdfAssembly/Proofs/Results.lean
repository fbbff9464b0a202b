import Mathlib.Data.List.Forall2

/-! Chains of steps that may fail: when a chain succeeds, every step in it has, and when it fails,
its first step that fails decides. -/
namespace PdfAssembly

theorem bind_eq_ok_iff {step : Except ε α} {next : α → Except ε β} {result : β} :
    (step >>= next) = .ok result ↔ ∃ value, step = .ok value ∧ next value = .ok result := by
  cases step <;> simp [bind, Except.bind]

theorem bind_eq_error_iff {step : Except ε α} {next : α → Except ε β} {error : ε} :
    (step >>= next) = .error error ↔
      step = .error error ∨ ∃ value, step = .ok value ∧ next value = .error error := by
  cases step <;> simp [bind, Except.bind]

theorem mapM_eq_ok_iff {f : α → Except ε β} {items : List α} {results : List β} :
    items.mapM f = .ok results ↔
      List.Forall₂ (fun item result => f item = .ok result) items results := by
  induction items generalizing results with
  | nil => simp [pure, Except.pure, eq_comm]
  | cons item rest ih =>
    simp only [List.mapM_cons, bind_eq_ok_iff, List.forall₂_cons_left_iff]
    constructor
    · rintro ⟨first, now, others, later, same⟩
      cases same
      exact ⟨first, others, now, ih.1 later, rfl⟩
    · rintro ⟨first, others, now, later, rfl⟩
      exact ⟨first, now, others, ih.2 later, rfl⟩

/-- Going through the items in order one comes to this one if all before it are good. -/
def ComesTo (good : α → Prop) (items : List α) (item : α) : Prop :=
  ∃ before after, items = before ++ item :: after ∧ ∀ other ∈ before, good other

theorem comesTo_nil {good : α → Prop} {item : α} : ¬ ComesTo good [] item := by
  simp [ComesTo]

theorem comesTo_cons {good : α → Prop} {first item : α} {rest : List α} :
    ComesTo good (first :: rest) item ↔ item = first ∨ good first ∧ ComesTo good rest item := by
  constructor
  · rintro ⟨before, after, same, each⟩
    cases before with
    | nil =>
      cases same
      exact .inl rfl
    | cons other before =>
      cases same
      obtain ⟨here, later⟩ := List.forall_mem_cons.1 each
      exact .inr ⟨here, before, after, rfl, later⟩
  · rintro (rfl | ⟨here, before, after, rfl, each⟩)
    · exact ⟨[], rest, rfl, by simp⟩
    · exact ⟨first :: before, after, rfl, List.forall_mem_cons.2 ⟨here, each⟩⟩

theorem ComesTo.imp {good other : α → Prop} {items : List α} {item : α}
    (weaker : ∀ item, good item → other item) (reached : ComesTo good items item) :
    ComesTo other items item := by
  obtain ⟨before, after, same, each⟩ := reached
  exact ⟨before, after, same, fun earlier member => weaker earlier (each earlier member)⟩

theorem ComesTo.mem {good : α → Prop} {items : List α} {item : α}
    (reached : ComesTo good items item) : item ∈ items := by
  obtain ⟨before, after, rfl, _⟩ := reached
  simp

theorem comesTo_iff_getElem? {good : α → Prop} {items : List α} {item : α} :
    ComesTo good items item ↔ ∃ position : Nat, items[position]? = some item ∧
      ∀ earlier < position, ∀ other, items[earlier]? = some other → good other := by
  constructor
  · rintro ⟨before, after, rfl, each⟩
    refine ⟨before.length, by simp, fun earlier below other place => each other ?_⟩
    rw [List.getElem?_append_left below] at place
    exact List.mem_of_getElem? place
  · rintro ⟨position, place, each⟩
    obtain ⟨inside, rfl⟩ := List.getElem?_eq_some_iff.1 place
    refine ⟨items.take position, items.drop (position + 1), by simp, ?_⟩
    intro other member
    obtain ⟨earlier, below, rfl⟩ := List.mem_take_iff_getElem.1 member
    exact each earlier (by omega) _ (List.getElem?_eq_getElem _)

/-- Counting from zero one comes to a number by way of all smaller ones. -/
theorem comesTo_range {good : Nat → Prop} {limit number : Nat} :
    ComesTo good (List.range limit) number ↔ number < limit ∧ ∀ smaller < number, good smaller := by
  have place (position other : Nat) :
      (List.range limit)[position]? = some other ↔ position < limit ∧ position = other := by
    simp [List.getElem?_eq_some_iff]
  simp only [comesTo_iff_getElem?, place]
  constructor
  · rintro ⟨_, ⟨inside, rfl⟩, each⟩
    exact ⟨inside, fun smaller below => each smaller below _ ⟨by omega, rfl⟩⟩
  · rintro ⟨inside, each⟩
    refine ⟨number, ⟨inside, rfl⟩, fun smaller below other here => ?_⟩
    exact here.2 ▸ each smaller below

/-- The value that a list is searched for comes from the first item that has one. -/
theorem findSome?_eq_some_iff_comesTo {f : α → Option β} {items : List α} {value : β} :
    items.findSome? f = some value ↔
      ∃ item, ComesTo (fun other => f other = none) items item ∧ f item = some value := by
  rw [List.findSome?_eq_some_iff]
  constructor
  · rintro ⟨before, item, after, same, has, none⟩
    exact ⟨item, ⟨before, after, same, none⟩, has⟩
  · rintro ⟨item, ⟨before, after, same, none⟩, has⟩
    exact ⟨before, item, after, same, has, none⟩

/-- The first step that fails decides, whatever comes behind it. -/
theorem mapM_eq_error_iff {f : α → Except ε β} {items : List α} {error : ε} :
    items.mapM f = .error error ↔
      ∃ item, ComesTo (fun other => ∃ result, f other = .ok result) items item ∧
        f item = .error error := by
  induction items with
  | nil => simp [comesTo_nil, pure, Except.pure]
  | cons first rest ih =>
    simp only [List.mapM_cons, bind_eq_error_iff, ih, comesTo_cons]
    constructor
    · rintro (now | ⟨value, now, later | ⟨_, _, done⟩⟩)
      · exact ⟨first, .inl rfl, now⟩
      · obtain ⟨item, reached, failed⟩ := later
        exact ⟨item, .inr ⟨⟨value, now⟩, reached⟩, failed⟩
      · cases done
    · rintro ⟨item, rfl | ⟨⟨value, now⟩, reached⟩, failed⟩
      · exact .inl failed
      · exact .inr ⟨value, now, .inl ⟨item, reached, failed⟩⟩

/-- Where all items pass a first step, a second one can be taken right behind it. -/
theorem mapM_of_forall₂ {f : α → Except ε β} {g : β → Except ε γ} {items : List α}
    {results : List β}
    (each : List.Forall₂ (fun item result => f item = .ok result) items results) :
    results.mapM g = items.mapM fun item => f item >>= g := by
  induction each with
  | nil => rfl
  | cons now _ ih =>
    rw [List.mapM_cons, List.mapM_cons, ih, now]
    rfl

theorem mapM_congr {f g : α → Except ε β} {items : List α}
    (same : ∀ item ∈ items, f item = g item) : items.mapM f = items.mapM g := by
  induction items with
  | nil => rfl
  | cons item rest ih =>
    rw [List.mapM_cons, List.mapM_cons, same item (by simp),
      ih fun other inside => same other (List.mem_cons_of_mem _ inside)]

theorem exists_mapM_eq_ok {f : α → Except ε β} {items : List α}
    (each : ∀ item ∈ items, ∃ result, f item = .ok result) :
    ∃ results, items.mapM f = .ok results := by
  induction items with
  | nil => exact ⟨[], rfl⟩
  | cons item rest ih =>
    obtain ⟨first, now⟩ := each item (by simp)
    obtain ⟨others, later⟩ := ih fun other inside => each other (List.mem_cons_of_mem _ inside)
    exact ⟨first :: others, by simp [now, later, bind, Except.bind, pure, Except.pure]⟩

theorem forall_ok_of_mapM {f : α → Except ε β} {items : List α} {results : List β}
    (done : items.mapM f = .ok results) : ∀ item ∈ items, ∃ result, f item = .ok result := by
  have related := mapM_eq_ok_iff.1 done
  clear done
  induction related with
  | nil => simp
  | cons now _ ih => exact List.forall_mem_cons.2 ⟨⟨_, now⟩, ih⟩

theorem exists_of_mem_mapM {f : α → Except ε β} {items : List α} {results : List β}
    (done : items.mapM f = .ok results) {result : β} (member : result ∈ results) :
    ∃ item ∈ items, f item = .ok result := by
  have related := mapM_eq_ok_iff.1 done
  clear done
  induction related with
  | nil => simp at member
  | @cons item first items results now _ ih =>
    rcases List.mem_cons.1 member with rfl | later
    · exact ⟨item, by simp, now⟩
    · obtain ⟨other, inside, step⟩ := ih later
      exact ⟨other, List.mem_cons_of_mem _ inside, step⟩

theorem exists_of_mem_mapM_some {f : α → Option β} {items : List α} {results : List β}
    (done : items.mapM f = some results) {result : β} (member : result ∈ results) :
    ∃ item ∈ items, f item = some result := by
  induction items generalizing results with
  | nil =>
    cases done
    simp at member
  | cons item items ih =>
    simp only [List.mapM_cons, Option.bind_eq_bind, Option.bind_eq_some_iff] at done
    obtain ⟨first, now, others, later, same⟩ := done
    cases same
    rcases List.mem_cons.1 member with rfl | inside
    · exact ⟨item, by simp, now⟩
    · obtain ⟨other, present, step⟩ := ih later inside
      exact ⟨other, List.mem_cons_of_mem _ present, step⟩

end PdfAssembly
