import PdfAssembly.Pdf.Object

/-! Tables of numbered objects, and what an identifier stands for when references that lead to
other references are followed. -/
namespace PdfAssembly.Pdf

abbrev Table := OrderedMap ObjectId Object

namespace Table

/-- How many references are followed before an identifier counts as unresolvable. -/
def followLimit : Nat := 128

def follow (table : Table) : (steps : Nat) → ObjectId → Option Object
  | steps, id =>
    match table.get? id with
    | some (.reference next) =>
      match steps with
      | 0 => none
      | steps + 1 => follow table steps next
    | found => found

/-- The object of an identifier, which is never a reference. -/
def resolve (table : Table) (id : ObjectId) : Option Object := table.follow followLimit id

def dictionary? (table : Table) (id : ObjectId) : Option Dictionary :=
  (table.resolve id).bind Object.asDictionary?

/-- The object itself, unless it is a reference; that one counts among those followed. -/
def dereference (table : Table) : Object → Option Object
  | .reference id => table.follow (followLimit - 1) id
  | object => some object

theorem contains_of_follow {table : Table} {steps : Nat} {id : ObjectId} {object : Object}
    (found : table.follow steps id = some object) : (table.get? id).isSome := by
  unfold follow at found
  split at found
  · simp [*]
  · simp [found]

theorem mem_keys_of_resolve {table : Table} {id : ObjectId} {object : Object}
    (found : table.resolve id = some object) : id ∈ table.keys :=
  OrderedMap.mem_keys_iff.2 (contains_of_follow found)

end Table

end PdfAssembly.Pdf
