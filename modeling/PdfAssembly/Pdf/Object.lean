import PdfAssembly.Number.Binary
import PdfAssembly.OrderedMap

/-! The objects of a document. Dictionaries keep their entries in the order in which they were
written; streams keep the bytes that they stand for and whether these are stored deflated. -/
namespace PdfAssembly.Pdf

abbrev Bytes := List UInt8

/-- One byte for every character of a text below U+0100. -/
def bytes (text : String) : Bytes := text.toList.map fun c => c.toNat.toUInt8

structure ObjectId where
  number : Nat
  generation : Nat
deriving DecidableEq, Repr, Inhabited

instance : Key ObjectId where
  lt a b := a.number < b.number ∨ a.number = b.number ∧ a.generation < b.generation
  decEq := inferInstance
  decLt _ _ := inferInstanceAs (Decidable (_ ∨ _))
  irrefl a := by omega
  trans {a b c} left right := by
    change a.number < b.number ∨ a.number = b.number ∧ a.generation < b.generation at left
    change b.number < c.number ∨ b.number = c.number ∧ b.generation < c.generation at right
    omega
  connected {a b} left right := by
    change ¬ (a.number < b.number ∨ a.number = b.number ∧ a.generation < b.generation) at left
    change ¬ (b.number < a.number ∨ b.number = a.number ∧ b.generation < a.generation) at right
    obtain ⟨number, generation⟩ := a
    obtain ⟨number', generation'⟩ := b
    simp only [ObjectId.mk.injEq] at *
    omega

/-- A single precision number with its sign. -/
structure Real where
  negative : Bool
  magnitude : Binary
deriving DecidableEq, Repr

structure StreamData where
  plain : Bytes
  deflated : Bool := false
deriving DecidableEq, Repr

inductive Object
  | null
  | boolean (value : Bool)
  | integer (value : Int)
  | real (value : Real)
  | name (value : Bytes)
  | literal (value : Bytes)
  | hexadecimal (value : Bytes)
  | reference (id : ObjectId)
  | array (items : List Object)
  | dictionary (entries : List (Bytes × Object))
  | stream (entries : List (Bytes × Object)) (data : StreamData)
deriving Inhabited

abbrev Dictionary := List (Bytes × Object)

namespace Dictionary

def get? (dictionary : Dictionary) (key : Bytes) : Option Object := Entries.find? key dictionary

def contains (dictionary : Dictionary) (key : Bytes) : Bool := (dictionary.get? key).isSome

def set (key : Bytes) (value : Object) (dictionary : Dictionary) : Dictionary :=
  Entries.put key value dictionary

def ofList (entries : List (Bytes × Object)) : Dictionary :=
  entries.foldl (fun dictionary entry => set entry.1 entry.2 dictionary) []

theorem get?_set (dictionary : Dictionary) (key other : Bytes) (value : Object) :
    get? (set key value dictionary) other =
      if key = other then some value else dictionary.get? other :=
  Entries.find?_put key other value dictionary

end Dictionary

namespace Name

def annots := bytes "Annots"
def author := bytes "Author"
def catalog := bytes "Catalog"
def count := bytes "Count"
def creationDate := bytes "CreationDate"
def cropBox := bytes "CropBox"
def filter := bytes "Filter"
def flateDecode := bytes "FlateDecode"
def index := bytes "Index"
def info := bytes "Info"
def kids := bytes "Kids"
def length := bytes "Length"
def mediaBox := bytes "MediaBox"
def modDate := bytes "ModDate"
def page := bytes "Page"
def pages := bytes "Pages"
def parent := bytes "Parent"
def producer := bytes "Producer"
def resources := bytes "Resources"
def root := bytes "Root"
def rotate := bytes "Rotate"
def size := bytes "Size"
def title := bytes "Title"
def type := bytes "Type"
def widths := bytes "W"
def xref := bytes "XRef"

end Name

namespace Object

def asReference? : Object → Option ObjectId
  | reference id => some id
  | _ => none

def asName? : Object → Option Bytes
  | name value => some value
  | _ => none

def asInteger? : Object → Option Int
  | integer value => some value
  | _ => none

def asArray? : Object → Option (List Object)
  | array items => some items
  | _ => none

def asDictionary? : Object → Option Dictionary
  | dictionary entries => some entries
  | _ => none

mutual

def references : Object → List ObjectId
  | reference id => [id]
  | array items => itemReferences items
  | dictionary entries => entryReferences entries
  | stream entries _ => entryReferences entries
  | _ => []

def itemReferences : List Object → List ObjectId
  | [] => []
  | item :: rest => references item ++ itemReferences rest

def entryReferences : List (Bytes × Object) → List ObjectId
  | [] => []
  | (_, value) :: rest => references value ++ entryReferences rest

end

mutual

def replace (meaning : ObjectId → Object) : Object → Object
  | reference id => meaning id
  | array items => array (replaceItems meaning items)
  | dictionary entries => dictionary (replaceEntries meaning entries)
  | stream entries data => stream (replaceEntries meaning entries) data
  | null => null
  | boolean value => boolean value
  | integer value => integer value
  | real value => real value
  | name value => name value
  | literal value => literal value
  | hexadecimal value => hexadecimal value

def replaceItems (meaning : ObjectId → Object) : List Object → List Object
  | [] => []
  | item :: rest => replace meaning item :: replaceItems meaning rest

def replaceEntries (meaning : ObjectId → Object) : List (Bytes × Object) → List (Bytes × Object)
  | [] => []
  | (key, value) :: rest => (key, replace meaning value) :: replaceEntries meaning rest

end

end Object

def Dictionary.typeName? (dictionary : Dictionary) : Option Bytes :=
  (dictionary.get? Name.type).bind Object.asName?

end PdfAssembly.Pdf
