import PdfAssembly.Spec.Error
import PdfAssembly.Spec.Item
import PdfAssembly.Spec.Turn

/-! Rotation specifications: nothing, one number of degrees for every page, or a list of
assignments of degrees to pages, of which the last one that covers a page counts. -/
namespace PdfAssembly

structure Assignment where
  /-- The assignment as it was written. -/
  text : String
  items : List PageItem
  turn : Turn
deriving DecidableEq, Repr

inductive RotationSpec
  | unset
  | everyPage (turn : Turn)
  | assignments (list : List Assignment)
deriving DecidableEq, Repr

def Turn.parse (text : String) : Except SpecError Turn :=
  match (Numeral.read? text).bind Turn.ofDegrees? with
  | some turn => .ok turn
  | none => .error (.invalidRotationValue text)

namespace Assignment

/-- Reads the degrees after the last colon before the pages in front of it. -/
def parse (token : String) : Except SpecError Assignment :=
  match Text.splitLast? ':' token with
  | none => .error (.malformedToken token)
  | some (list, degrees) => do
    let turn ← Turn.parse degrees
    if list.isEmpty then .error (.emptyPageList token)
    else match PageList.parse list with
      | .ok items => return ⟨token, items.map (·.2), turn⟩
      | .error (.malformed, item) => .error (.malformedToken item)
      | .error (.notNumeric, _) => .error (.invalidPageIndex .rotation token)

def resolve (count : Nat) (assignment : Assignment) : Except SpecError (List Nat × Turn) :=
  match assignment.items.mapM (·.expand? count) with
  | some pages => .ok (pages.flatten, assignment.turn)
  | none => .error (.invalidPageIndex .rotation assignment.text)

end Assignment

namespace RotationSpec

/-- A single token without a colon is a number of degrees for every page. -/
def parse (tokens : List String) : Except SpecError RotationSpec :=
  let several := do return assignments (← tokens.mapM Assignment.parse)
  match tokens with
  | [] => .ok unset
  | [token] => if ':' ∈ token.toList then several else do return everyPage (← Turn.parse token)
  | _ => several

/-- The turns of the pages of an output of `count` pages. All assignments are checked before
the first is made. -/
def resolve (count : Nat) : RotationSpec → Except SpecError TurnMap
  | unset => .ok ∅
  | everyPage turn => .ok (TurnMap.assign ∅ (List.range count) turn)
  | assignments list => do
    let resolved ← list.mapM (Assignment.resolve count)
    return resolved.foldl (fun map (pages, turn) => map.assign pages turn) ∅

end RotationSpec

namespace Rotation

def resolve (tokens : List String) (count : Nat) : Except SpecError TurnMap := do
  (← RotationSpec.parse tokens).resolve count

end Rotation

end PdfAssembly
