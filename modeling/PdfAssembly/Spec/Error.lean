/-! The ways in which a structure or rotation specification can fail to resolve. Every case
carries the offending text as it was written. -/
namespace PdfAssembly

inductive SpecScope
  | selection
  | rotation
deriving DecidableEq, Repr

inductive SpecError
  | malformedToken (literal : String)
  | invalidDocumentIndex (literal : String)
  | invalidPageIndex (scope : SpecScope) (literal : String)
  | invalidRotationValue (literal : String)
  | emptyPageList (literal : String)
deriving DecidableEq, Repr

namespace SpecError

def literal : SpecError → String
  | malformedToken literal => literal
  | invalidDocumentIndex literal => literal
  | invalidPageIndex _ literal => literal
  | invalidRotationValue literal => literal
  | emptyPageList literal => literal

def message : SpecError → String
  | malformedToken literal => s!"malformed token: {literal}"
  | invalidDocumentIndex literal => s!"invalid document index: {literal}"
  | invalidPageIndex .selection literal => s!"invalid page index: {literal}"
  | invalidPageIndex .rotation literal => s!"invalid rotation argument: {literal}"
  | invalidRotationValue literal => s!"invalid rotation value: {literal}"
  | emptyPageList literal => s!"empty page range list: {literal}"

end SpecError

end PdfAssembly
