import PdfAssembly.Proofs.Results
import PdfAssembly.Spec.Rotation
import PdfAssembly.Spec.Selection

/-! What specifications resolve to exists: selections name pages of documents, and rotations turn
pages of the output. -/
namespace PdfAssembly

def PageReference.InRange (counts : List Nat) (reference : PageReference) : Prop :=
  ∃ count, counts[reference.document]? = some count ∧ reference.page < count

theorem inRange_of_mem_pages {counts : List Nat} {document count : Nat} {pages : List Nat}
    (found : counts[document]? = some count) (below : ∀ page ∈ pages, page < count) :
    ∀ reference ∈ pages.map (PageReference.mk document), reference.InRange counts := by
  intro reference member
  obtain ⟨page, inside, rfl⟩ := List.mem_map.1 member
  exact ⟨count, found, below page inside⟩

namespace Selector

theorem inRange_expand {counts : List Nat} {document count : Nat} {item : String × PageItem}
    {pages : List PageReference} (found : counts[document]? = some count)
    (done : expand document count item = .ok pages) :
    ∀ reference ∈ pages, reference.InRange counts := by
  simp only [expand] at done
  split at done
  · rename_i inside
    obtain ⟨bounded, rfl⟩ := PageItem.expand?_eq_some_iff.1 inside
    cases done
    exact inRange_of_mem_pages found (PageItem.indices_lt bounded)
  · cases done

theorem inRange_resolve {counts : List Nat} {selector : Selector} {pages : List PageReference}
    (done : selector.resolve counts = .ok pages) :
    ∀ reference ∈ pages, reference.InRange counts := by
  simp only [resolve] at done
  split at done
  · cases done
  split at done
  · cases done
  rename_i found
  obtain ⟨items, _, chosen⟩ := bind_eq_ok_iff.1 done
  cases items with
  | none =>
    cases chosen
    exact inRange_of_mem_pages found fun page member => List.mem_range.1 member
  | some items =>
    obtain ⟨parts, expanded, same⟩ := bind_eq_ok_iff.1 chosen
    cases same
    intro reference member
    obtain ⟨part, inside, present⟩ := List.mem_flatten.1 member
    obtain ⟨item, _, step⟩ := exists_of_mem_mapM expanded inside
    exact inRange_expand found step reference present

end Selector

namespace Selection

theorem inRange_everything (counts : List Nat) :
    ∀ reference ∈ everything counts, reference.InRange counts := by
  intro reference member
  obtain ⟨⟨count, document⟩, listed, inside⟩ := List.mem_flatMap.1 member
  have found := List.mk_mem_zipIdx_iff_getElem?.1 listed
  exact inRange_of_mem_pages found (fun page below => List.mem_range.1 below) reference inside

/-- Every page that is selected exists. -/
theorem inRange_resolve {tokens : List String} {counts : List Nat} {pages : List PageReference}
    (done : resolve tokens counts = .ok pages) :
    ∀ reference ∈ pages, reference.InRange counts := by
  simp only [resolve] at done
  split at done
  · cases done
    exact inRange_everything counts
  · obtain ⟨parts, resolved, same⟩ := bind_eq_ok_iff.1 done
    cases same
    intro reference member
    obtain ⟨part, inside, present⟩ := List.mem_flatten.1 member
    obtain ⟨token, _, step⟩ := exists_of_mem_mapM resolved inside
    obtain ⟨selector, _, chosen⟩ := bind_eq_ok_iff.1 step
    exact Selector.inRange_resolve chosen reference present

end Selection

def TurnMap.Below (count : Nat) (turns : TurnMap) : Prop :=
  ∀ page turn, turns.get? page = some turn → page < count

theorem TurnMap.Below.assign {count : Nat} {map : TurnMap} (below : map.Below count)
    {pages : List Nat} (inside : ∀ page ∈ pages, page < count) (turn : Turn) :
    (map.assign pages turn).Below count := by
  intro page other found
  rw [TurnMap.get?_assign] at found
  split at found
  · rename_i member
    exact inside page member
  · exact below page other found

theorem TurnMap.Below.foldl {count : Nat} {map : TurnMap} (below : map.Below count)
    {parts : List (List Nat × Turn)} (inside : ∀ part ∈ parts, ∀ page ∈ part.1, page < count) :
    (parts.foldl (fun map (pages, turn) => map.assign pages turn) map).Below count := by
  induction parts generalizing map with
  | nil => exact below
  | cons part rest ih =>
    apply ih (below.assign (inside part (by simp)) part.2)
    exact fun other member => inside other (List.mem_cons_of_mem _ member)

theorem TurnMap.below_empty (count : Nat) : TurnMap.Below count ∅ := by
  intro page turn found
  cases found

namespace Assignment

theorem lt_of_resolve {count : Nat} {assignment : Assignment} {pages : List Nat} {turn : Turn}
    (done : assignment.resolve count = .ok (pages, turn)) : ∀ page ∈ pages, page < count := by
  simp only [resolve] at done
  split at done
  · rename_i expanded
    cases done
    intro page member
    obtain ⟨part, inside, present⟩ := List.mem_flatten.1 member
    obtain ⟨item, _, step⟩ := exists_of_mem_mapM_some expanded inside
    obtain ⟨bounded, rfl⟩ := PageItem.expand?_eq_some_iff.1 step
    exact PageItem.indices_lt bounded page present
  · cases done

end Assignment

namespace Rotation

/-- Every page that is turned exists. -/
theorem below_resolve {tokens : List String} {count : Nat} {turns : TurnMap}
    (done : resolve tokens count = .ok turns) : turns.Below count := by
  obtain ⟨spec, _, resolved⟩ := bind_eq_ok_iff.1 done
  cases spec with
  | unset =>
    cases resolved
    exact TurnMap.below_empty count
  | everyPage turn =>
    cases resolved
    exact (TurnMap.below_empty count).assign
      (fun page member => List.mem_range.1 member) turn
  | assignments list =>
    obtain ⟨parts, each, same⟩ := bind_eq_ok_iff.1 resolved
    cases same
    apply (TurnMap.below_empty count).foldl
    intro part inside
    obtain ⟨assignment, _, step⟩ := exists_of_mem_mapM each inside
    exact assignment.lt_of_resolve step

end Rotation

end PdfAssembly
