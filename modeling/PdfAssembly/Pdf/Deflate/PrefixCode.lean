import PdfAssembly.Pdf.Deflate.Bits

/-! Prefix codes. Frequent symbols have short codes, no code is longer than a limit, and the
lengths alone tell the codes: shorter ones come first, equally long ones in the order of their
symbols. -/
namespace PdfAssembly.Pdf.Deflate.PrefixCode

/-- A tree of codes: its weight, and how many leaves lie at each depth from the root on. -/
structure Tree where
  weight : Nat
  leaves : List Nat

def sums : List Nat → List Nat → List Nat
  | [], others => others
  | counts, [] => counts
  | m :: counts, n :: others => (m + n) :: sums counts others

def Tree.join (a b : Tree) : Tree := ⟨a.weight + b.weight, 0 :: sums a.leaves b.leaves⟩

/-- Takes the lightest tree from two queues, of equally light ones one from the first. -/
def lightest? : List Tree → List Tree → Option (Tree × List Tree × List Tree)
  | [], [] => none
  | first :: single, [] => some (first, single, [])
  | [], first :: joined => some (first, [], joined)
  | leaf :: single, tree :: joined =>
    if tree.weight < leaf.weight then some (tree, leaf :: single, joined)
    else some (leaf, single, tree :: joined)

/-- Joins the two lightest trees again and again, and counts the leaves of the tree that is left.
The first queue holds leaves and the second one joined trees, each in the order of weights. -/
def leaves : (joins : Nat) → List Tree → List Tree → List Nat
  | 0, _, _ => []
  | joins + 1, single, joined =>
    match lightest? single joined with
    | none => []
    | some (first, single, joined) =>
      match lightest? single joined with
      | none => first.leaves
      | some (second, single, joined) => leaves joins single (joined ++ [first.join second])

/-- Makes room below the first depth that has leaves: one of them moves down a level. -/
def lower (below : Nat) : List Nat → List Nat
  | [] => [below]
  | 0 :: above => below :: lower 0 above
  | (count + 1) :: above => (below + 2) :: count :: above

/-- Moves a leaf of the greatest depth up beside one that moves down. Depths come greatest first. -/
def shorten : List Nat → List Nat
  | [] => []
  | deepest :: above => lower (deepest - 1) above

/-- How many codes have each length from 1 to the limit, given how many there would be without
one. What is too much for a prefix code is made up for step by step. -/
def limited (limit : Nat) (counts : List Nat) : List Nat :=
  let within := (counts.take limit ++ List.replicate (limit - counts.length) 0).reverse
  match within with
  | [] => []
  | deepest :: above =>
    let cut := (deepest + (counts.drop limit).foldl (· + ·) 0) :: above
    let filled := cut.foldr (fun count sum => count + 2 * sum) 0
    (Nat.repeat shorten (filled - Nat.pow 2 limit) cut).reverse

/-- The length of each symbol's code, given how often each occurs; 0 for those that do not. -/
def lengths (limit : Nat) (occurrences : List Nat) : List Nat :=
  let used := (occurrences.zipIdx.filter fun entry => 0 < entry.1).mergeSort fun a b => a.1 ≤ b.1
  let counts := match used with
    | [_] => [1]
    | _ => (leaves used.length (used.map fun entry => ⟨entry.1, [1]⟩) []).drop 1
  let ascending := ((limited limit counts).zipIdx 1).flatMap fun entry =>
    List.replicate entry.1 entry.2
  let assigned := (used.reverse.map (·.2)).zip ascending
  (assigned.foldl (fun table entry => table.setIfInBounds entry.1 entry.2)
    (Array.replicate occurrences.length 0)).toList

/-- Numbers codes in turn, each one more than the one before and as many bits longer as needed. -/
def numbered (next width : Nat) (table : Array (List Bool)) :
    List (Nat × Nat) → Array (List Bool)
  | [] => table
  | (length, symbol) :: rest =>
    let value := next * Nat.pow 2 (length - width)
    numbered (value + 1) length (table.setIfInBounds symbol (code value length)) rest

def codes (lengths : List Nat) : Array (List Bool) :=
  numbered 0 0 (Array.replicate lengths.length [])
    ((lengths.zipIdx.filter fun entry => 0 < entry.1).mergeSort fun a b => a.1 ≤ b.1)

end PdfAssembly.Pdf.Deflate.PrefixCode
