import PdfAssembly.Failure
import PdfAssembly.Spec.Rotation
import PdfAssembly.Spec.Selection

/-! Assembling an output: select pages, append them, then turn pages of the output. A plan says
what would be done without doing it; a run does it on anything that can assemble. -/
namespace PdfAssembly

/-- Loaded documents, of which only page counts are asked, and an output made of their pages.
Operations that change the state give it back also when they fail. -/
class Assembler (σ : Type) where
  documentCount : σ → Nat
  pageCount : σ → Nat → Except Failure Nat
  /-- Appends these pages and tells how many pages the output has then. -/
  assemble : List PageReference → σ → Except Failure Nat × σ
  /-- Turns pages that were appended before. -/
  applyTurns : TurnMap → σ → Except Failure Unit × σ

structure Plan where
  pages : List PageReference
  turns : TurnMap

structure Summary where
  outputPages : Nat
  turnedPages : Nat
deriving DecidableEq, Repr

namespace Pipeline

variable [Assembler σ]

def pageCounts (state : σ) : Except Failure (List Nat) :=
  (List.range (Assembler.documentCount state)).mapM (Assembler.pageCount state)

def liftSpec : Except SpecError α → Except Failure α
  | .ok value => .ok value
  | .error error => .error (.spec error)

def selected (selection : List String) (state : σ) : Except Failure (List PageReference) := do
  let counts ← pageCounts state
  liftSpec (Selection.resolve selection counts)

/-- Every selected page becomes one page of the output, so the selection's length bounds the
page numbers of the rotation. -/
def plan (selection rotation : List String) (state : σ) : Except Failure Plan := do
  let pages ← selected selection state
  let turns ← liftSpec (Rotation.resolve rotation pages.length)
  return ⟨pages, turns⟩

/-- The rotation is resolved after the pages are appended, against the count that is reported
then. Without turns to make, none are asked for. -/
def run (selection rotation : List String) (state : σ) : Except Failure Summary × σ :=
  match selected selection state with
  | .error failure => (.error failure, state)
  | .ok pages =>
    match Assembler.assemble pages state with
    | (.error failure, state) => (.error failure, state)
    | (.ok count, state) =>
      match Rotation.resolve rotation count with
      | .error error => (.error (.spec error), state)
      | .ok turns =>
        if turns.isEmpty then (.ok ⟨count, 0⟩, state)
        else match Assembler.applyTurns turns state with
          | (.error failure, state) => (.error failure, state)
          | (.ok (), state) => (.ok ⟨count, turns.size⟩, state)

end Pipeline

end PdfAssembly
