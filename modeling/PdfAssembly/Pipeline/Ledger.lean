import PdfAssembly.Pipeline

/-! An assembler that only keeps books: documents are page counts, and the output is the list of
references appended so far with the turns they were given. It can be told to misreport its size
or to refuse a step, so that a pipeline can be rehearsed against a faulty output. -/
namespace PdfAssembly

inductive LedgerStep
  | assemble
  | applyTurns
deriving DecidableEq, Repr

structure Ledger where
  counts : List Nat
  /-- The number of documents it claims to have; without one, as many as there are counts. -/
  claimedDocuments : Option Nat := none
  /-- The size it reports after appending; without one, the true size. -/
  reportedSize : Option Nat := none
  refused : Option LedgerStep := none
  output : List (PageReference × Option Turn) := []
  /-- How often turns were asked for. -/
  turnRequests : Nat := 0
deriving DecidableEq, Repr

namespace Ledger

/-- Sets one entry after the other; the first page that does not exist ends it. -/
def setTurns (output : List (PageReference × Option Turn)) :
    List (Nat × Turn) → Except Failure Unit × List (PageReference × Option Turn)
  | [] => (.ok (), output)
  | (page, turn) :: rest =>
    match output[page]? with
    | some (reference, _) => setTurns (output.set page (reference, some turn)) rest
    | none => (.error (.pdf (.reported s!"no output page {Numeral.write page}")), output)

def append (pages : List PageReference) (ledger : Ledger) : Except Failure Nat × Ledger :=
  if ledger.refused = some .assemble then (.error (.pdf (.reported "assemble failed")), ledger)
  else
    let output := ledger.output ++ pages.map (·, none)
    (.ok (ledger.reportedSize.getD output.length), { ledger with output })

def turn (turns : TurnMap) (ledger : Ledger) : Except Failure Unit × Ledger :=
  let turnRequests := ledger.turnRequests + 1
  if ledger.refused = some .applyTurns then
    (.error (.pdf (.reported "apply failed")), { ledger with turnRequests })
  else
    let (result, output) := setTurns ledger.output turns.entries
    (result, { ledger with output, turnRequests })

instance : Assembler Ledger where
  documentCount ledger := ledger.claimedDocuments.getD ledger.counts.length
  pageCount ledger document :=
    match ledger.counts[document]? with
    | some count => .ok count
    | none => .error (.documentOutOfRange document ledger.counts.length)
  assemble := append
  applyTurns := turn

end Ledger

end PdfAssembly
