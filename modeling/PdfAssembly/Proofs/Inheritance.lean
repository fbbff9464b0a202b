import PdfAssembly.Proofs.Numbering

/-! Pages without their page tree. An attribute that a page may inherit comes from the page itself
or from the nearest node above it that has it, and a page of the output states it for itself. -/
namespace PdfAssembly

open Pdf

namespace Pdf

/-- Where an entry is made for a key at all, it is made under this key. -/
theorem Dictionary.get?_filterMap {f : Bytes → Option Object} {keys : List Bytes} {key : Bytes} :
    get? (keys.filterMap fun name => (f name).map (name, ·)) key =
      if key ∈ keys then f key else none := by
  induction keys with
  | nil => rfl
  | cons name rest ih =>
    by_cases same : name = key
    · subst same
      cases value : f name with
      | none =>
        rw [List.filterMap_cons_none (by simp [value]), ih, value]
        simp
      | some object =>
        rw [List.filterMap_cons_some (by simp [value]; rfl)]
        simp [get?, Entries.find?]
    · have others : (key ∈ name :: rest) = (key ∈ rest) := by simp [Ne.symm same]
      simp only [others]
      cases value : f name with
      | none => rw [List.filterMap_cons_none (by simp [value]), ih]
      | some object =>
        rw [List.filterMap_cons_some (by simp [value]; rfl), ← ih]
        simp [get?, Entries.find?, same]

namespace Page

variable {table : Table} {page : Dictionary} {key : Bytes}

/-- Behind the page's own entries stand those that it lacks and a node above it has. -/
theorem get?_supplied : (supplied table page).get? key =
    if key ∈ inheritable ∧ page.get? key = none then inherited? table page key else none := by
  have named : supplied table page = inheritable.filterMap fun name =>
      (if page.contains name then none else inherited? table page name).map (name, ·) := by
    refine List.filterMap_congr fun name _ => ?_
    split <;> rfl
  rw [named, Dictionary.get?_filterMap]
  by_cases inherits : key ∈ inheritable <;>
    cases own : page.get? key <;> simp [inherits, own, Dictionary.contains]

theorem get?_flattened_of_inheritable (inherits : key ∈ inheritable) :
    (flattened table page).get? key =
      (page :: ancestors table ancestorLimit page).findSome? (Dictionary.get? · key) := by
  have apart : key ≠ Name.parent := by
    rintro rfl
    exact absurd inherits (by decide)
  rw [flattened_eq, Dictionary.get?_append, Dictionary.get?_filter_ne page apart, get?_supplied]
  cases own : page.get? key <;> simp [own, inherits, inherited?]

theorem get?_flattened_of_not_inheritable (own : key ∉ inheritable) (apart : key ≠ Name.parent) :
    (flattened table page).get? key = page.get? key := by
  rw [flattened_eq, Dictionary.get?_append, Dictionary.get?_filter_ne page apart, get?_supplied]
  simp [own]

/-- A flattened page has the attribute exactly if it or a node near enough above it does. -/
theorem isSome_get?_flattened_iff (inherits : key ∈ inheritable) :
    ((flattened table page).get? key).isSome ↔ ∃ level ≤ ancestorLimit, ∃ node,
      Above table page level node ∧ (node.get? key).isSome := by
  rw [get?_flattened_of_inheritable inherits, List.findSome?_isSome_iff]
  simp only [List.mem_iff_getElem?, getElem?_nodes]
  constructor
  · rintro ⟨node, ⟨level, near, above⟩, has⟩
    exact ⟨level, near, node, above, has⟩
  · rintro ⟨level, near, node, above, has⟩
    exact ⟨node, ⟨level, near, above⟩, has⟩

/-- The nearest of these gives the value. -/
theorem get?_flattened_eq_some_iff (inherits : key ∈ inheritable) {value : Object} :
    (flattened table page).get? key = some value ↔ ∃ level, Nearest table page key level value := by
  rw [get?_flattened_of_inheritable inherits]
  exact findSome?_nodes_eq_some_iff

end Page

end Pdf

namespace Appending

variable {call : Appending}

structure Inherits (call : Appending) (entries : Dictionary) : Prop where
  has : ∀ key ∈ [Name.resources, Name.mediaBox, Name.cropBox, Name.rotate],
    (entries.get? key).isSome ↔ ∃ level ≤ 64, ∃ node,
      Page.Above call.source.table call.page.entries level node ∧ (node.get? key).isSome
  value : ∀ key ∈ [Name.resources, Name.mediaBox, Name.cropBox, Name.rotate], ∀ copy,
    entries.get? key = some copy → ∃ level value,
      Page.Nearest call.source.table call.page.entries key level value ∧
      Translates call.Means value copy
  parent : entries.get? Name.parent = some (.reference Output.pagesNode)
  /-- Everything else is the page's own. -/
  other : ∀ key ∉ [Name.resources, Name.mediaBox, Name.cropBox, Name.rotate],
    key ≠ Name.parent → ((entries.get? key).isSome ↔ (call.page.entries.get? key).isSome)
  /-- The walk up the tree ends, also where the parents form a circle. -/
  ends : (Page.ancestors call.source.table Page.ancestorLimit call.page.entries).length ≤ 64
  visits : ∀ level node,
    (Page.ancestors call.source.table Page.ancestorLimit call.page.entries)[level]? = some node ↔
      level < 64 ∧ Page.Above call.source.table call.page.entries (level + 1) node

theorem Valid.inherits (valid : call.Valid) (shares : call.store.Shares) {entries : Dictionary}
    (page : call.pageCopy = .dictionary entries) : call.Inherits entries := by
  have apart (key : Bytes) (inherits : key ∈ Page.inheritable) : key ≠ Name.parent := by
    rintro rfl
    exact absurd inherits (by decide)
  constructor
  · intro key inherits
    rw [call.get?_pageCopy page (apart key inherits), Option.isSome_map, Appending.entries]
    exact Page.isSome_get?_flattened_iff inherits
  · intro key inherits copy found
    rw [call.get?_pageCopy page (apart key inherits), Option.map_eq_some_iff] at found
    obtain ⟨value, entry, rfl⟩ := found
    obtain ⟨level, nearest⟩ := (Page.get?_flattened_eq_some_iff inherits).1 entry
    exact ⟨level, value, nearest,
      valid.translates_entry (fun _ _ => valid.copyable shares) entry⟩
  · exact call.get?_parent_pageCopy page
  · intro key own apart
    rw [call.get?_pageCopy page apart, Option.isSome_map, Appending.entries,
      Page.get?_flattened_of_not_inheritable own apart]
  · exact Page.length_ancestors_le ..
  · exact fun _ _ => Page.getElem?_ancestors

end Appending

/-- Whatever is done with a store of loaded documents, every page that is appended on the way
states for itself what its own document had it inherit. -/
theorem pages_inherit {sources : List Source} (loaded : ∀ source ∈ sources, source.Loaded)
    (settings : Settings) (operations : List Operation) :
    let start := Store.ofSources sources settings
    ∃ history, Session start history (Store.taken operations start)
        (Store.performAll operations start) ∧
      List.Forall₂ (Appending.Answers sources) (Store.appended operations start) history ∧
      ∀ call ∈ history, call.page.Read call.source.table ∧
        ∃ entries, call.result.output.table.get? call.target = some (.dictionary entries) ∧
          call.Inherits entries := by
  intro start
  obtain ⟨history, session, answers⟩ := Session.ofSources sources settings operations
  refine ⟨history, session, answers, fun call member => ?_⟩
  obtain ⟨valid, _, _, before⟩ := session.before member
  have loaded : ∀ source ∈ start.sources, source.Loaded := by simpa [start] using loaded
  have shares := before.shares (Store.shares_ofSources sources settings)
  refine ⟨before.read valid loaded, _, valid.get?_target.trans (congrArg some call.pageCopy_eq), ?_⟩
  exact valid.inherits shares call.pageCopy_eq

/-- The page has its box from two levels up, but it is not turned. -/
theorem circular_page_inherits : ∃ (call : Appending) (entries : Dictionary),
    call.source = circular ∧ call.page = circularPage ∧
    call.result.output.table.get? call.target = some (.dictionary entries) ∧
    call.Inherits entries ∧ (entries.get? Name.mediaBox).isSome ∧
    entries.get? Name.rotate = some .null := by
  obtain ⟨history, _, answers, inherit⟩ :=
    pages_inherit circular_loaded {} [.assemble [⟨0, 0⟩], .save ⟨2024, 2, 29, 12, 0, 0, 0⟩]
  have once : List.Forall₂ (Appending.Answers [circular]) [⟨0, 0⟩] history := answers
  obtain ⟨call, _, answer, none, rfl⟩ := List.forall₂_cons_left_iff.1 once
  cases none
  obtain ⟨_, entries, found, inherits⟩ := inherit call (by simp)
  have source : call.source = circular := (Option.some.inj answer.names.1).symm
  have page : call.page = circularPage := by
    have names := answer.names.2
    rw [source] at names
    exact (Option.some.inj names).symm
  refine ⟨call, entries, source, page, found, inherits, ?_, ?_⟩
  · rw [inherits.has Name.mediaBox (by decide), source, page]
    exact ⟨2, by decide, _, .parent (.parent .self rfl rfl) rfl rfl, rfl⟩
  · have own : circularPage.entries.get? Name.rotate = some .null := rfl
    have here := (inherits.has Name.rotate (by decide)).2
      ⟨0, by decide, _, .self, by rw [page, own]; rfl⟩
    obtain ⟨copy, entry⟩ := Option.isSome_iff_exists.1 here
    obtain ⟨level, value, nearest, translated⟩ := inherits.value _ (by decide) copy entry
    rw [page] at nearest
    rw [nearest.eq_own own] at translated
    cases translated
    exact entry

end PdfAssembly
