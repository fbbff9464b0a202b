import PdfAssembly.Spec.Error
import PdfAssembly.Spec.Item

/-! Selecting pages. A selector names a document and, after a colon, the pages wanted of it;
a list of selectors means the pages of each in turn, repeats included. Without selectors every
page of every document is meant. -/
namespace PdfAssembly

/-- A page of a document, both counted from 0. -/
structure PageReference where
  document : Nat
  page : Nat
deriving DecidableEq, Repr

def PageReference.text (reference : PageReference) : String :=
  Text.join ':' [Numeral.write (reference.document + 1), Numeral.write (reference.page + 1)]

/-- One selector. The list of pages is read only once the document is known to exist. -/
structure Selector where
  /-- The selector as it was written. -/
  text : String
  /-- The number of the document, counted from 1. -/
  document : Nat
  /-- The list of pages as it was written; without one, all pages are meant. -/
  pages : Option String
deriving DecidableEq, Repr

namespace Selector

def parse (text : String) : Except SpecError Selector :=
  let read (document : String) (pages : Option String) : Except SpecError Selector :=
    match Numeral.read? document with
    | some n => .ok ⟨text, n, pages⟩
    | none => .error (.invalidDocumentIndex text)
  match Text.split ':' text with
  | [document] => read document none
  | [document, pages] => read document (some pages)
  | _ => .error (.malformedToken text)

def items (selector : Selector) : Except SpecError (Option (List (String × PageItem))) :=
  match selector.pages with
  | none => .ok none
  | some list =>
    if list.isEmpty then .error (.malformedToken selector.text)
    else match PageList.parse list with
      | .ok items => .ok (some items)
      | .error (.malformed, item) => .error (.malformedToken item)
      | .error (.notNumeric, item) => .error (.invalidPageIndex .selection item)

def expand (document count : Nat) (item : String × PageItem) :
    Except SpecError (List PageReference) :=
  match item.2.expand? count with
  | some pages => .ok (pages.map (⟨document, ·⟩))
  | none => .error (.invalidPageIndex .selection item.1)

def resolve (counts : List Nat) (selector : Selector) : Except SpecError (List PageReference) :=
  match selector.document with
  | 0 => .error (.invalidDocumentIndex selector.text)
  | document + 1 =>
    match counts[document]? with
    | none => .error (.invalidDocumentIndex selector.text)
    | some count => do
      match ← selector.items with
      | none => return (List.range count).map (⟨document, ·⟩)
      | some items => return (← items.mapM (expand document count)).flatten

end Selector

namespace Selection

def everything (counts : List Nat) : List PageReference :=
  counts.zipIdx.flatMap fun (count, document) => (List.range count).map (⟨document, ·⟩)

/-- The pages that a list of selectors selects; the first selector that fails decides. -/
def resolve (tokens : List String) (counts : List Nat) : Except SpecError (List PageReference) :=
  if tokens.isEmpty then .ok (everything counts)
  else do
    let pages ← tokens.mapM fun token => do (← Selector.parse token).resolve counts
    return pages.flatten

end Selection

end PdfAssembly
