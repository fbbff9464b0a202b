import PdfAssembly.Pdf.Output
import PdfAssembly.Pipeline

/-! Loaded documents together with the output that is assembled from them. References are
located before the first page is appended, so that a bad one leaves everything as it was. -/
namespace PdfAssembly

open Pdf

/-- A loaded document and the copies that pages of it already share in the output. -/
structure Input where
  source : Source
  copies : ObjectMap := ∅

structure Store where
  /-- In the order in which they were loaded. -/
  inputs : List Input
  output : Output

namespace Store

def ofSources (sources : List Source) (settings : Settings) : Store :=
  ⟨sources.map ({ source := · }), Output.empty settings⟩

def pageCount (store : Store) (document : Nat) : Except Failure Nat :=
  match store.inputs[document]? with
  | some input => .ok input.source.pages.length
  | none => .error (.documentOutOfRange document store.inputs.length)

def locate (store : Store) (reference : PageReference) : Except Failure Page :=
  match store.inputs[reference.document]? with
  | none => .error (.documentOutOfRange reference.document store.inputs.length)
  | some input =>
    match input.source.pages[reference.page]? with
    | some page => .ok page
    | none => .error
        (.pdf (.pageNotFound reference.page input.source.name input.source.pages.length))

def appendPage (store : Store) (document : Nat) (page : Page) : Store :=
  match store.inputs[document]? with
  | none => store
  | some input =>
    let appended := store.output.appendPage input.source page input.copies
    { inputs := store.inputs.set document { input with copies := appended.shared }
      output := appended.output }

def assemble (references : List PageReference) (store : Store) : Except Failure Nat × Store :=
  match references.mapM store.locate with
  | .error failure => (.error failure, store)
  | .ok pages =>
    let store := (references.zip pages).foldl
      (fun store (reference, page) => store.appendPage reference.document page) store
    (.ok store.output.pages.length, store)

/-- Makes one turn after the other; the first failure ends it. -/
def turnPages : List (Nat × Turn) → Output → Except Failure Unit × Output
  | [], output => (.ok (), output)
  | (position, turn) :: rest, output =>
    match output.turnPage position turn with
    | .ok output => turnPages rest output
    | .error failure => (.error failure, output)

def applyTurns (turns : TurnMap) (store : Store) : Except Failure Unit × Store :=
  let (result, output) := turnPages turns.entries store.output
  (result, { store with output })

def save (store : Store) (moment : Moment) : SavedFile × Store :=
  let (file, output) := store.output.save moment
  (file, { store with output })

instance : Assembler Store where
  documentCount store := store.inputs.length
  pageCount := pageCount
  assemble := assemble
  applyTurns := applyTurns

end Store

end PdfAssembly
