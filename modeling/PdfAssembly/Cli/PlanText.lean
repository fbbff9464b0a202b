import PdfAssembly.Json.Value
import PdfAssembly.Pipeline

/-! A plan as it is shown: a line for each page of the output, or JSON. -/
namespace PdfAssembly

namespace Plan

def paddedLeft (width : Nat) (text : String) : String :=
  String.ofList (List.replicate (width - text.length) ' ') ++ text

def line (turns : TurnMap) (entry : PageReference × Nat) : String :=
  let (reference, position) := entry
  let turn := match turns.get? position with
    | some turn => "  +" ++ turn.text
    | none => ""
  paddedLeft 4 (Numeral.write (position + 1)) ++ "  " ++ reference.text ++ turn

def lines (plan : Plan) : List String := plan.pages.zipIdx.map (line plan.turns)

def text (plan : Plan) : String := String.join (plan.lines.map (· ++ "\n"))

def json (plan : Plan) : Json.Value :=
  .object
    [("pages", .list (plan.pages.map fun reference => .object
        [("document", .number reference.document), ("page", .number reference.page)])),
      ("rotations", .object
        [("entries", .object (plan.turns.entries.map fun (page, turn) =>
          (Numeral.write page, .text turn.label)))])]

end Plan

end PdfAssembly
