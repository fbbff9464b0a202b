import PdfAssembly.Pdf.Copy
import PdfAssembly.Proofs.Results

/-! What a page has, wherever it stands. An attribute that the page lacks comes from the nearest
node above it that has one, and its annotations come in an array of its own or in an object. -/
namespace PdfAssembly

open Pdf

namespace Pdf

theorem Dictionary.typeName?_eq_some_iff {entries : Dictionary} {name : Bytes} :
    entries.typeName? = some name ↔ entries.get? Name.type = some (.name name) := by
  rw [typeName?, Option.bind_eq_some_iff]
  constructor
  · rintro ⟨value, entry, named⟩
    cases value <;> simp [Object.asName?] at named
    exact named ▸ entry
  · exact fun entry => ⟨_, entry, rfl⟩

theorem Object.isPageTreeNode_iff {object : Object} : object.isPageTreeNode = true ↔
    ∃ entries, object = .dictionary entries ∧
      Dictionary.get? entries Name.type = some (.name Name.pages) := by
  cases object <;> simp [isPageTreeNode, Dictionary.typeName?_eq_some_iff]

end Pdf

namespace Pdf.Page

/-- The node so many levels above a page. The page itself is at level 0, and a parent is a
dictionary that an entry of the node below refers to. -/
inductive Above (table : Table) (page : Dictionary) : Nat → Dictionary → Prop
  | self : Above table page 0 page
  | parent {level : Nat} {node parent : Dictionary} {id : ObjectId} :
      Above table page level node → node.get? Name.parent = some (.reference id) →
      table.dictionary? id = some parent → Above table page (level + 1) parent

/-- The value that an attribute has at the nearest node with this attribute, no more than 64 levels
up. -/
structure Nearest (table : Table) (page : Dictionary) (key : Bytes) (level : Nat)
    (value : Object) : Prop where
  near : level ≤ 64
  has : ∃ node, Above table page level node ∧ node.get? key = some value
  first : ∀ lower < level, ∀ node, Above table page lower node → node.get? key = none

variable {table : Table} {page node : Dictionary} {key : Bytes} {level : Nat}

/-- What the page has itself is nearest. -/
theorem Nearest.eq_own {value own : Object} (nearest : Nearest table page key level value)
    (has : page.get? key = some own) : value = own := by
  obtain ⟨_, ⟨node, above, entry⟩, first⟩ := nearest
  cases above with
  | self => exact Option.some.inj (entry.symm.trans has)
  | parent =>
    have absent := first 0 (Nat.zero_lt_succ _) page .self
    simp [has] at absent

theorem parent?_eq_some_iff {parent : Dictionary} : parent? table node = some parent ↔
    ∃ id, node.get? Name.parent = some (.reference id) ∧ table.dictionary? id = some parent := by
  simp only [parent?, Option.bind_eq_some_iff]
  constructor
  · rintro ⟨id, ⟨value, entry, refers⟩, found⟩
    cases value <;> simp [Object.asReference?] at refers
    exact ⟨id, refers ▸ entry, found⟩
  · rintro ⟨id, entry, found⟩
    exact ⟨id, ⟨_, entry, rfl⟩, found⟩

theorem above_zero_iff : Above table page 0 node ↔ node = page := by
  constructor
  · rintro ⟨⟩
    rfl
  · rintro rfl
    exact .self

/-- What is above a page is what is above its parent. -/
theorem above_succ_iff : Above table page (level + 1) node ↔
    ∃ parent, parent? table page = some parent ∧ Above table parent level node := by
  constructor
  · intro above
    induction level generalizing node with
    | zero =>
      obtain ⟨⟩ | ⟨here, entry, found⟩ := above
      cases here
      exact ⟨node, parent?_eq_some_iff.2 ⟨_, entry, found⟩, .self⟩
    | succ level ih =>
      obtain ⟨⟩ | ⟨below, entry, found⟩ := above
      obtain ⟨parent, up, rest⟩ := ih below
      exact ⟨parent, up, .parent rest entry found⟩
  · rintro ⟨parent, up, rest⟩
    obtain ⟨id, entry, found⟩ := parent?_eq_some_iff.1 up
    induction rest with
    | self => exact .parent .self entry found
    | parent _ next there ih => exact .parent ih next there

/-- The walk up the tree lists the nodes above the page in order, as far as it may go. -/
theorem getElem?_ancestors {limit : Nat} : (ancestors table limit page)[level]? = some node ↔
    level < limit ∧ Above table page (level + 1) node := by
  induction limit generalizing page level with
  | zero => simp [ancestors]
  | succ limit ih =>
    rw [above_succ_iff]
    simp only [ancestors]
    cases up : parent? table page with
    | none => simp
    | some parent =>
      cases level with
      | zero => simp [above_zero_iff, eq_comm]
      | succ level => simp [ih]

/-- However the parents are linked, in a circle or not, the walk ends. -/
theorem length_ancestors_le (table : Table) (limit : Nat) (page : Dictionary) :
    (ancestors table limit page).length ≤ limit := by
  induction limit generalizing page with
  | zero => simp [ancestors]
  | succ limit ih =>
    simp only [ancestors]
    split
    · simp
    · exact Nat.succ_le_succ (ih _)

theorem getElem?_nodes {limit : Nat} : (page :: ancestors table limit page)[level]? = some node ↔
    level ≤ limit ∧ Above table page level node := by
  cases level with
  | zero => simp [above_zero_iff, eq_comm]
  | succ level => exact getElem?_ancestors

/-- On the way up from the page the nearest node with the attribute comes first. -/
theorem findSome?_nodes_eq_some_iff {value : Object} :
    (page :: ancestors table ancestorLimit page).findSome? (Dictionary.get? · key) = some value ↔
      ∃ level, Nearest table page key level value := by
  simp only [findSome?_eq_some_iff_comesTo, comesTo_iff_getElem?]
  constructor
  · rintro ⟨node, ⟨level, place, nearer⟩, has⟩
    obtain ⟨near, above⟩ := getElem?_nodes.1 place
    refine ⟨level, near, ⟨node, above, has⟩, fun lower below other there => ?_⟩
    have reached : lower ≤ ancestorLimit := Nat.le_trans (Nat.le_of_lt below) near
    exact nearer lower below other (getElem?_nodes.2 ⟨reached, there⟩)
  · rintro ⟨level, near, ⟨node, above, has⟩, first⟩
    refine ⟨node, ⟨level, getElem?_nodes.2 ⟨near, above⟩, fun lower below other place => ?_⟩, has⟩
    exact first lower below other (getElem?_nodes.1 place).2

theorem findSome?_nodes_eq_none_iff :
    (page :: ancestors table ancestorLimit page).findSome? (Dictionary.get? · key) = none ↔
      ∀ level ≤ 64, ∀ node, Above table page level node → node.get? key = none := by
  simp only [List.findSome?_eq_none_iff, List.mem_iff_getElem?, getElem?_nodes]
  constructor
  · exact fun absent level near node above => absent node ⟨level, near, above⟩
  · rintro absent node ⟨level, near, above⟩
    exact absent level near node above

/-- The entries that the nodes above a page supply for these keys, in the order of the keys: none
for a key that the page has itself, else the one of the nearest node with this key, if any. -/
inductive Supplies (table : Table) (page : Dictionary) : List Bytes → Dictionary → Prop
  | nil : Supplies table page [] []
  | own {key : Bytes} {keys : List Bytes} {value : Object} {entries : Dictionary} :
      page.get? key = some value → Supplies table page keys entries →
      Supplies table page (key :: keys) entries
  | above {key : Bytes} {keys : List Bytes} {level : Nat} {value : Object} {entries : Dictionary} :
      Nearest table page key (level + 1) value → Supplies table page keys entries →
      Supplies table page (key :: keys) ((key, value) :: entries)
  | nowhere {key : Bytes} {keys : List Bytes} {entries : Dictionary} :
      (∀ level ≤ 64, ∀ node, Above table page level node → node.get? key = none) →
      Supplies table page keys entries → Supplies table page (key :: keys) entries

def supplied (table : Table) (page : Dictionary) : Dictionary :=
  inheritable.filterMap fun key =>
    if page.contains key then none else (inherited? table page key).map (key, ·)

theorem flattened_eq (table : Table) (page : Dictionary) :
    flattened table page = page.filter (·.1 ≠ Name.parent) ++ supplied table page := rfl

theorem parent_notMem_flattened (table : Table) (page : Dictionary) :
    Name.parent ∉ (flattened table page).map (·.1) := by
  intro member
  obtain ⟨⟨key, value⟩, inside, same⟩ := List.mem_map.1 member
  change key = Name.parent at same
  subst same
  rw [flattened_eq, List.mem_append] at inside
  rcases inside with own | above
  · simp at own
  · obtain ⟨name, listed, supply⟩ := List.mem_filterMap.1 above
    have named : name = Name.parent := by
      split at supply
      · contradiction
      · obtain ⟨_, _, entry⟩ := Option.map_eq_some_iff.1 supply
        exact congrArg Prod.fst entry
    rw [named] at listed
    exact absurd listed (by decide)

theorem supplies_supplied (table : Table) (page : Dictionary) :
    Supplies table page inheritable (supplied table page) := by
  simp only [supplied]
  induction inheritable with
  | nil => exact .nil
  | cons key keys ih =>
    cases own : page.get? key with
    | some value =>
      rw [List.filterMap_cons_none (by simp [Dictionary.contains, own])]
      exact .own own ih
    | none =>
      have first : inherited? table page key =
          (page :: ancestors table ancestorLimit page).findSome? (Dictionary.get? · key) := by
        simp [inherited?, own]
      cases above : inherited? table page key with
      | none =>
        rw [List.filterMap_cons_none (by simp [above])]
        exact .nowhere (findSome?_nodes_eq_none_iff.1 (first.symm.trans above)) ih
      | some value =>
        rw [List.filterMap_cons_some (by simp [Dictionary.contains, own, above]; rfl)]
        obtain ⟨level, nearest⟩ := findSome?_nodes_eq_some_iff.1 (first.symm.trans above)
        cases level with
        | zero =>
          obtain ⟨node, here, has⟩ := nearest.has
          rw [above_zero_iff.1 here, own] at has
          cases has
        | succ level => exact .above nearest ih

/-- What a page lists as its annotations, in an array of its own or in an object. -/
inductive Lists (table : Table) (page : Dictionary) : List Object → Prop
  | inline {items : List Object} : page.get? Name.annots = some (.array items) →
      Lists table page items
  | indirect {id : ObjectId} {items : List Object} :
      page.get? Name.annots = some (.reference id) → table.resolve id = some (.array items) →
      Lists table page items

theorem mem_annotations_iff {table : Table} {page : Dictionary} {id : ObjectId} :
    id ∈ annotations table page ↔ page.get? Name.annots = some (.reference id) ∨
      ∃ items, Lists table page items ∧ .reference id ∈ items := by
  have listed {items : List Object} :
      id ∈ items.filterMap Object.asReference? ↔ .reference id ∈ items := by
    rw [List.mem_filterMap]
    constructor
    · rintro ⟨item, member, refers⟩
      cases item <;> simp [Object.asReference?] at refers
      exact refers ▸ member
    · exact fun member => ⟨_, member, rfl⟩
  constructor
  · intro member
    simp only [annotations] at member
    split at member
    · rename_i other entry
      split at member
      · rename_i items resolved
        rcases List.mem_cons.1 member with rfl | inside
        · exact .inl entry
        · exact .inr ⟨items, .indirect entry resolved, listed.1 inside⟩
      · exact .inl (List.mem_singleton.1 member ▸ entry)
    · rename_i items entry
      exact .inr ⟨items, .inline entry, listed.1 member⟩
    · simp at member
  · rintro (entry | ⟨items, lists, member⟩)
    · simp only [annotations, entry]
      split <;> simp
    · cases lists with
      | inline entry => simpa only [annotations, entry] using listed.2 member
      | indirect entry resolved =>
        simp only [annotations, entry, resolved]
        exact List.mem_cons_of_mem _ (listed.2 member)

end Pdf.Page

end PdfAssembly
