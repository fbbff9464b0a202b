import PdfAssembly.Pdf.Source

/-! Copying a page out of its document. First the identifiers that the page leads to are given
copies, in the order of a depth-first search; then the page and each of these objects is copied
with its references replaced by the copies of what they refer to.

Annotations belong to one page and are copied anew each time, other objects once for all pages
that share them. Other pages and the page tree are never copied. -/
namespace PdfAssembly.Pdf

/-- The copy of each identifier that has one. -/
abbrev ObjectMap := OrderedMap ObjectId ObjectId

namespace Page

def inheritable : List Bytes := [Name.resources, Name.mediaBox, Name.cropBox, Name.rotate]

def ancestorLimit : Nat := 64

def parent? (table : Table) (node : Dictionary) : Option Dictionary :=
  ((node.get? Name.parent).bind Object.asReference?).bind table.dictionary?

/-- The nodes above a node of the page tree, the nearest first. -/
def ancestors (table : Table) : (limit : Nat) → Dictionary → List Dictionary
  | 0, _ => []
  | limit + 1, node =>
    match parent? table node with
    | none => []
    | some parent => parent :: ancestors table limit parent

def inherited? (table : Table) (page : Dictionary) (key : Bytes) : Option Object :=
  (ancestors table ancestorLimit page).findSome? (Dictionary.get? · key)

/-- The page's own entries, without its parent, and behind them those it inherits. -/
def flattened (table : Table) (page : Dictionary) : Dictionary :=
  page.filter (·.1 ≠ Name.parent) ++ inheritable.filterMap fun key =>
    if page.contains key then none else (inherited? table page key).map (key, ·)

/-- The array of the page's annotations, if it is an object of its own, and the annotations. -/
def annotations (table : Table) (page : Dictionary) : List ObjectId :=
  match page.get? Name.annots with
  | some (.reference id) =>
    match table.resolve id with
    | some (.array items) => id :: items.filterMap Object.asReference?
    | _ => [id]
  | some (.array items) => items.filterMap Object.asReference?
  | _ => []

end Page

def Object.isPageTreeNode : Object → Bool
  | .dictionary entries => Dictionary.typeName? entries == some Name.pages
  | _ => false

/-- A page to be copied and the identifier of its copy. -/
structure CopyScope where
  source : Source
  page : Page
  target : ObjectId

/-- Copies handed out so far: those that all pages of the document share and those that belong
to the page alone, with the next free number and the pairs of this page, the latest first. -/
structure Copies where
  shared : ObjectMap
  own : ObjectMap := ∅
  next : Nat
  made : List (ObjectId × ObjectId) := []

namespace CopyScope

def owned (scope : CopyScope) : List ObjectId :=
  Page.annotations scope.source.table scope.page.entries

def copy? (scope : CopyScope) (copies : Copies) (id : ObjectId) : Option ObjectId :=
  if id ∈ scope.owned then copies.own.get? id else copies.shared.get? id

def register (scope : CopyScope) (copies : Copies) (id : ObjectId) : Copies :=
  let copy : ObjectId := ⟨copies.next, 0⟩
  let copies := { copies with next := copies.next + 1, made := (id, copy) :: copies.made }
  if id ∈ scope.owned then { copies with own := copies.own.insert id copy }
  else { copies with shared := copies.shared.insert id copy }

/-- The object to be copied because of a reference, if there is still one. -/
def uncopied? (scope : CopyScope) (copies : Copies) (id : ObjectId) : Option Object :=
  if id = scope.page.id ∨ scope.source.isPage id ∨ (scope.copy? copies id).isSome then none
  else (scope.source.table.resolve id).filter fun object => !object.isPageTreeNode

theorem copy?_register (scope : CopyScope) (copies : Copies) (id other : ObjectId) :
    scope.copy? (scope.register copies id) other =
      if id = other then some ⟨copies.next, 0⟩ else scope.copy? copies other := by
  unfold copy? register
  by_cases mine : id ∈ scope.owned <;> by_cases others : other ∈ scope.owned <;>
    by_cases same : id = other <;> simp_all [OrderedMap.get?_insert]

def remaining (scope : CopyScope) (copies : Copies) : List ObjectId :=
  scope.source.table.keys.filter fun id => (scope.copy? copies id).isNone

private theorem filter_length_lt {p q : α → Bool} {list : List α} {a : α} (member : a ∈ list)
    (weaker : ∀ x, q x = true → p x = true) (holds : p a = true) (fails : q a = false) :
    (list.filter q).length < (list.filter p).length := by
  induction list with
  | nil => simp at member
  | cons x xs ih =>
    have rest : (xs.filter q).length ≤ (xs.filter p).length := by
      rw [← List.countP_eq_length_filter, ← List.countP_eq_length_filter]
      exact List.countP_mono_left fun y _ => weaker y
    rcases List.mem_cons.1 member with rfl | inside
    · simp only [List.filter_cons, fails, holds]
      simp only [Bool.false_eq_true, if_false, if_true, List.length_cons]
      omega
    · have := ih inside
      have step := weaker x
      by_cases left : q x = true
      · simp only [List.filter_cons, left, step left, if_true, List.length_cons]
        omega
      · by_cases right : p x = true <;>
          simp only [List.filter_cons, left, right, if_true, List.length_cons,
            Bool.false_eq_true, if_false] <;> omega

theorem remaining_register {scope : CopyScope} {copies : Copies} {id : ObjectId} {object : Object}
    (found : scope.uncopied? copies id = some object) :
    (scope.remaining (scope.register copies id)).length < (scope.remaining copies).length := by
  unfold uncopied? at found
  split at found
  · contradiction
  · rename_i fresh
    refine filter_length_lt (a := id)
      (Table.mem_keys_of_resolve (Option.filter_eq_some_iff.1 found).1) ?_ ?_ ?_
    · intro other absent
      rw [copy?_register] at absent
      split at absent
      · simp at absent
      · exact absent
    · simpa using (not_or.1 (not_or.1 fresh).2).2
    · simp [copy?_register]

/-- Gives copies to everything that these references lead to. -/
def discover (scope : CopyScope) (copies : Copies) (pending : List ObjectId) : Copies :=
  match pending with
  | [] => copies
  | id :: rest =>
    match _found : scope.uncopied? copies id with
    | none => discover scope copies rest
    | some object => discover scope (scope.register copies id) (object.references ++ rest)
termination_by ((scope.remaining copies).length, pending.length)
decreasing_by
  · exact Prod.Lex.right _ (Nat.lt_succ_self _)
  · exact Prod.Lex.left _ _ (remaining_register _found)

/-- What a reference of the source becomes in the output. -/
def meaning (scope : CopyScope) (copies : Copies) (id : ObjectId) : Object :=
  if id = scope.page.id then .reference scope.target
  else if scope.source.isPage id then .null
  else match scope.copy? copies id with
    | some copy => .reference copy
    | none => .null

def pageCopy (scope : CopyScope) (copies : Copies) (parent : ObjectId) : Object :=
  .dictionary (Dictionary.set Name.parent (.reference parent)
    (Object.replaceEntries (scope.meaning copies)
      (Page.flattened scope.source.table scope.page.entries)))

def objectCopies (scope : CopyScope) (copies : Copies) : List (ObjectId × Object) :=
  copies.made.map fun (id, copy) =>
    (copy, ((scope.source.table.resolve id).getD .null).replace (scope.meaning copies))

end CopyScope

end PdfAssembly.Pdf
