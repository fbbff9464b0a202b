import PdfAssembly.Proofs.Renumbering

/-! What copying a page reads of its document: the page, nodes above it as long as an attribute is
sought there, and whatever references lead to. What the document has under other identifiers can
make no difference. -/
namespace PdfAssembly.Pdf

namespace Table

variable {table other : Table}

def Agree (table other : Table) (ids : ObjectId → Prop) : Prop :=
  ∀ id, ids id → other.get? id = table.get? id

theorem Agree.mono {ids fewer : ObjectId → Prop} (agree : table.Agree other ids)
    (within : ∀ id, fewer id → ids id) : table.Agree other fewer :=
  fun id inside => agree id (within id inside)

/-- The identifier and those that come after it while one is a mere reference to the next. -/
inductive Chain (table : Table) (id : ObjectId) : ObjectId → Prop
  | here : Chain table id id
  | next {via next : ObjectId} : Chain table id via → table.get? via = some (.reference next) →
      Chain table id next

theorem Chain.cons {id next last : ObjectId} (entry : table.get? id = some (.reference next))
    (chain : table.Chain next last) : table.Chain id last := by
  induction chain with
  | here => exact .next .here entry
  | next _ found ih => exact .next ih found

theorem exists_chain_of_follow {steps : Nat} {id : ObjectId} {object : Object}
    (found : table.follow steps id = some object) :
    ∃ last, table.Chain id last ∧ table.get? last = some object := by
  fun_induction follow table steps id with
  | case1 => cases found
  | case2 id next entry steps ih =>
    obtain ⟨last, chain, there⟩ := ih found
    exact ⟨last, chain.cons entry, there⟩
  | case3 steps id => exact ⟨id, .here, found⟩

theorem follow_congr {steps : Nat} {id : ObjectId} (agree : table.Agree other (table.Chain id)) :
    other.follow steps id = table.follow steps id := by
  have first := agree id .here
  fun_induction follow table steps id with
  | case1 id next entry =>
    rw [follow, first, entry]
  | case2 id next entry steps ih =>
    have rest : table.Agree other (table.Chain next) := agree.mono fun _ chain => chain.cons entry
    rw [follow, first, entry]
    exact ih rest (rest next .here)
  | case3 steps id direct =>
    rw [follow, first]
    split
    · rename_i next entry
      exact absurd entry (direct next)
    · rfl

theorem resolve_congr {id : ObjectId} (agree : table.Agree other (table.Chain id)) :
    other.resolve id = table.resolve id :=
  follow_congr agree

theorem dictionary?_congr {id : ObjectId} (agree : table.Agree other (table.Chain id)) :
    other.dictionary? id = table.dictionary? id := by
  rw [dictionary?, resolve_congr agree, dictionary?]

end Table

namespace Page

variable {table other : Table}

/-- The identifiers visited above a node when an attribute is sought there. -/
inductive Climbs (table : Table) (key : Bytes) : Nat → Dictionary → ObjectId → Prop
  | parent {limit : Nat} {node : Dictionary} {parent id : ObjectId} :
      Dictionary.get? node Name.parent = some (.reference parent) → table.Chain parent id →
      Climbs table key (limit + 1) node id
  | above {limit : Nat} {node above : Dictionary} {id : ObjectId} :
      parent? table node = some above → Dictionary.get? above key = none →
      Climbs table key limit above id → Climbs table key (limit + 1) node id

theorem findSome?_ancestors_congr {key : Bytes} {limit : Nat} {node : Dictionary}
    (agree : table.Agree other (Climbs table key limit node)) :
    (ancestors other limit node).findSome? (Dictionary.get? · key) =
      (ancestors table limit node).findSome? (Dictionary.get? · key) := by
  induction limit generalizing node with
  | zero => rfl
  | succ limit ih =>
    have up : parent? other node = parent? table node := by
      simp only [parent?]
      cases entry : Dictionary.get? node Name.parent with
      | none => rfl
      | some value =>
        cases value with
        | reference parent =>
          exact Table.dictionary?_congr (agree.mono fun id chain => .parent entry chain)
        | _ => rfl
    simp only [ancestors, up]
    cases found : parent? table node with
    | none => rfl
    | some above =>
      simp only [List.findSome?_cons]
      cases value : Dictionary.get? above key with
      | none => exact ih (agree.mono fun id climbs => .above found value climbs)
      | some _ => rfl

end Page

namespace Source

/-- Looked up to find the entries that the copy of a page starts from. -/
inductive Consults (source : Source) (page : Page) : ObjectId → Prop
  | page {id : ObjectId} : source.table.Chain page.id id → Consults source page id
  | above {key : Bytes} {id : ObjectId} : key ∈ Page.inheritable →
      page.entries.contains key = false →
      Page.Climbs source.table key Page.ancestorLimit page.entries id → Consults source page id

def referred (source : Source) (page : Page) : List ObjectId :=
  Object.entryReferences (Page.flattened source.table page.entries)

/-- Looked up when the page is copied. An identifier is not followed when it is a page's; behind
other ones pages are found like anything else. -/
inductive Reads (source : Source) (page : Page) : ObjectId → Prop
  | entries {id : ObjectId} : source.Consults page id → Reads source page id
  | object {via id : ObjectId} : source.Meets (source.referred page) via →
      source.isPage via = false → source.table.Chain via id → Reads source page id

/-- Reached from these identifiers by following references, but not from pages and not from nodes
of the page tree. -/
inductive Follows (source : Source) (start : List ObjectId) : ObjectId → Prop
  | start {id : ObjectId} : id ∈ start → Follows source start id
  | step {via id : ObjectId} {object : Object} : Follows source start via →
      source.isPage via = false → source.table.get? via = some object →
      object.isPageTreeNode = false → id ∈ object.references → Follows source start id

/-- What the page reaches: besides what gives it its entries, all that these lead to. -/
inductive Reaches (source : Source) (page : Page) : ObjectId → Prop
  | entries {id : ObjectId} : source.Consults page id → Reaches source page id
  | object {id : ObjectId} : source.Follows (source.referred page) id → Reaches source page id

/-- No other identifier that the page reaches is a mere reference to a page. -/
def Plain (source : Source) (page : Page) : Prop :=
  ∀ id, source.Follows (source.referred page) id → source.isPage id = false →
    ∀ target, source.table.get? id = some (.reference target) → source.isPage target = false

variable {source other : Source} {page : Page}

theorem Plain.follows_chain (plain : source.Plain page) {id last : ObjectId}
    (follows : source.Follows (source.referred page) id) (unlisted : source.isPage id = false)
    (chain : source.table.Chain id last) :
    source.Follows (source.referred page) last ∧ source.isPage last = false := by
  induction chain with
  | here => exact ⟨follows, unlisted⟩
  | next _ entry ih =>
    obtain ⟨before, apart⟩ := ih
    exact ⟨.step before apart entry rfl (List.mem_singleton.2 rfl), plain _ before apart _ entry⟩

theorem Plain.follows_of_meets (plain : source.Plain page) {id : ObjectId}
    (meets : source.Meets (source.referred page) id) :
    source.Follows (source.referred page) id := by
  induction meets with
  | start inside => exact .start inside
  | step _ copyable refers ih =>
    obtain ⟨unlisted, resolved, noNode⟩ := copyable
    obtain ⟨last, chain, there⟩ := Table.exists_chain_of_follow resolved
    obtain ⟨follows, apart⟩ := plain.follows_chain ih unlisted chain
    exact .step follows apart there noNode refers

/-- Then nothing is read that the page does not reach. -/
theorem Plain.reaches_of_reads (plain : source.Plain page) {id : ObjectId}
    (reads : source.Reads page id) : source.Reaches page id := by
  cases reads with
  | entries consults => exact .entries consults
  | object meets unlisted chain =>
    exact .object (plain.follows_chain (plain.follows_of_meets meets) unlisted chain).1

def pageIds (source : Source) : List ObjectId := source.pages.map Page.id

theorem isPage_congr (same : other.pageIds = source.pageIds) (id : ObjectId) :
    other.isPage id = source.isPage id := by
  have listed := congrArg (List.any · (· == id)) same
  rw [pageIds, List.any_map, pageIds, List.any_map] at listed
  exact listed

/-- A page that is read alike is the same. -/
theorem Loaded.page_eq (loaded : source.Loaded) (loaded' : other.Loaded) {twin : Page}
    (member : page ∈ source.pages) (member' : twin ∈ other.pages) (same : twin.id = page.id)
    (agree : source.table.Agree other.table (source.Reads page)) : twin = page := by
  have own := (loaded.read member).entries
  have own' := (loaded'.read member').entries
  have alike : other.table.dictionary? page.id = source.table.dictionary? page.id :=
    Table.dictionary?_congr (agree.mono fun _ chain => .entries (.page chain))
  rw [same, alike, own, Option.some.injEq] at own'
  cases twin
  cases page
  simp_all

theorem flattened_congr (agree : source.table.Agree other.table (source.Reads page)) :
    Page.flattened other.table page.entries = Page.flattened source.table page.entries := by
  simp only [Page.flattened]
  congr 1
  apply List.filterMap_congr
  intro key inside
  split
  · rfl
  · rename_i absent
    congr 1
    apply Page.findSome?_ancestors_congr
    exact agree.mono fun _ climbs => .entries (.above inside (by simpa using absent) climbs)

theorem Loaded.resolve_listed (loaded : source.Loaded) {id : ObjectId}
    (listed : source.isPage id = true) :
    ∃ entries, source.table.resolve id = some (.dictionary entries) := by
  obtain ⟨page, member, same⟩ := List.any_eq_true.1 listed
  obtain ⟨object, resolved, dictionary⟩ := Option.bind_eq_some_iff.1 (loaded.read member).entries
  rw [eq_of_beq same] at resolved
  cases object <;> simp [Object.asDictionary?] at dictionary
  exact ⟨_, resolved⟩

theorem annotations_congr (loaded : source.Loaded) (loaded' : other.Loaded)
    (same : other.pageIds = source.pageIds)
    (agree : source.table.Agree other.table (source.Reads page)) :
    Page.annotations other.table page.entries = Page.annotations source.table page.entries := by
  have refers {id : ObjectId} (entry : page.entries.get? Name.annots = some (.reference id)) :
      source.Meets (source.referred page) id :=
    .start (Object.mem_entryReferences (Page.get?_flattened (by decide) entry)
      (List.mem_singleton.2 rfl))
  simp only [Page.annotations]
  split
  · rename_i id entry
    cases listed : source.isPage id with
    | true =>
      obtain ⟨own, resolved⟩ := loaded.resolve_listed listed
      obtain ⟨own', resolved'⟩ := loaded'.resolve_listed (isPage_congr same id ▸ listed)
      rw [resolved, resolved']
    | false =>
      rw [Table.resolve_congr (agree.mono fun _ chain => .object (refers entry) listed chain)]
  · rfl
  · rfl

theorem copyable_congr (same : other.pageIds = source.pageIds)
    (agree : source.table.Agree other.table (source.Reads page)) {id : ObjectId}
    (meets : source.Meets (source.referred page) id) (object : Object) :
    other.Copyable id object ↔ source.Copyable id object := by
  simp only [Copyable, isPage_congr same]
  cases listed : source.isPage id with
  | true => simp
  | false =>
    rw [Table.resolve_congr (agree.mono fun _ chain => .object meets listed chain)]

end Source

end PdfAssembly.Pdf
