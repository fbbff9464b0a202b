import PdfAssembly.Number.Numeral
import PdfAssembly.Text.Pieces

/-! Page items: a page number, or two page numbers around a hyphen that stand for all pages
from the first to the second, downwards when the second is smaller. -/
namespace PdfAssembly

/-- Page numbers count from 1. -/
inductive PageItem
  | single (page : Nat)
  | range (first last : Nat)
deriving DecidableEq, Repr

inductive ItemFault
  /-- More than one hyphen. -/
  | malformed
  /-- A side of the hyphen that is no number. -/
  | notNumeric
deriving DecidableEq, Repr

namespace PageItem

def number (text : String) : Except ItemFault Nat :=
  match Numeral.read? text with
  | some n => .ok n
  | none => .error .notNumeric

def parse (text : String) : Except ItemFault PageItem :=
  match Text.split '-' text with
  | [page] => do return .single (← number page)
  | [first, last] => do
    let first ← number first
    let last ← number last
    return .range first last
  | _ => .error .malformed

def text : PageItem → String
  | single page => Numeral.write page
  | range first last => Text.join '-' [Numeral.write first, Numeral.write last]

def ends : PageItem → List Nat
  | single page => [page]
  | range first last => [first, last]

def InBounds (item : PageItem) (count : Nat) : Prop := ∀ n ∈ item.ends, 1 ≤ n ∧ n ≤ count

instance (item : PageItem) (count : Nat) : Decidable (item.InBounds count) :=
  inferInstanceAs (Decidable (∀ n ∈ item.ends, _))

/-- The pages of the item counted from 0, in the order in which they are walked. -/
def indices : PageItem → List Nat
  | single page => [page - 1]
  | range first last =>
    if last < first then (List.range' (last - 1) (first - (last - 1))).reverse
    else List.range' (first - 1) (last - (first - 1))

/-- The pages of an item within a document of `count` pages; nothing when a number is
outside it, so that no part of a bad range is produced. -/
def expand? (item : PageItem) (count : Nat) : Option (List Nat) :=
  if item.InBounds count then some item.indices else none

theorem expand?_eq_some_iff {item : PageItem} {count : Nat} {pages : List Nat} :
    item.expand? count = some pages ↔ item.InBounds count ∧ item.indices = pages := by
  unfold expand?
  split <;> simp_all

theorem indices_lt {item : PageItem} {count : Nat} (inside : item.InBounds count) :
    ∀ page ∈ item.indices, page < count := by
  intro page member
  cases item with
  | single n =>
    have := inside n (by simp [ends])
    simp [indices] at member
    omega
  | range first last =>
    have := inside first (by simp [ends])
    have := inside last (by simp [ends])
    simp only [indices] at member
    split at member
    · have := List.mem_range'_1.1 (List.mem_reverse.1 member)
      omega
    · have := List.mem_range'_1.1 member
      omega

end PageItem

namespace PageList

/-- Reads items between commas, each beside its text; a fault comes with the item's text. -/
def parse (list : String) : Except (ItemFault × String) (List (String × PageItem)) :=
  (Text.split ',' list).mapM fun text =>
    match PageItem.parse text with
    | .ok item => .ok (text, item)
    | .error fault => .error (fault, text)

end PageList

end PdfAssembly
