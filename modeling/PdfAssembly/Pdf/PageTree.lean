import PdfAssembly.Pdf.Table

/-! The pages of a document: the leaves of the tree that its catalog names, from left to right.
The walk visits at most as many kids as the table has objects, so that trees with cycles end. -/
namespace PdfAssembly.Pdf

structure Page where
  id : ObjectId
  entries : Dictionary

namespace PageTree

/-- How many unfinished lists of siblings a walk keeps. -/
def depthLimit : Nat := 256

def kids? (table : Table) (node : Dictionary) : Option (List Object) := do
  (← table.dereference (← node.get? Name.kids)).asArray?

/-- The pages below the kids that are still to be visited, the innermost list first. -/
def walk (table : Table) (visits : Nat) (pending : List (List Object)) : List Page :=
  match visits, pending.dropWhile List.isEmpty with
  | visits + 1, (kid :: siblings) :: outer =>
    match kid.asReference?.bind fun id => (table.dictionary? id).map (id, ·) with
    | none => walk table visits (siblings :: outer)
    | some (id, entries) =>
      if entries.typeName? = some Name.page then
        ⟨id, entries⟩ :: walk table visits (siblings :: outer)
      else if entries.typeName? = some Name.pages ∧ outer.length < depthLimit then
        let outer := if siblings.isEmpty then outer else siblings :: outer
        walk table visits ((kids? table entries).getD [] :: outer)
      else walk table visits (siblings :: outer)
  | _, _ => []

def rootKids? (table : Table) (root : Option Object) : Option (List Object) := do
  let catalog ← table.dictionary? (← (← root).asReference?)
  let tree ← table.dictionary? (← (← catalog.get? Name.pages).asReference?)
  kids? table tree

def pages (table : Table) (root : Option Object) : List Page :=
  match rootKids? table root with
  | none => []
  | some kids => walk table table.size [kids]

end PageTree

end PdfAssembly.Pdf
