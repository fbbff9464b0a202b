import PdfAssembly.Number.Numeral
import PdfAssembly.OrderedMap

/-! Clockwise quarter turns, and which page is to be given which turn. -/
namespace PdfAssembly

inductive Turn
  | upright
  | quarter
  | half
  | threeQuarters
deriving DecidableEq, Repr

namespace Turn

def degrees : Turn → Nat
  | upright => 0
  | quarter => 90
  | half => 180
  | threeQuarters => 270

def all : List Turn := [upright, quarter, half, threeQuarters]

def ofDegrees? (degrees : Nat) : Option Turn := all.find? fun turn => turn.degrees == degrees

@[simp] theorem ofDegrees?_degrees (turn : Turn) : ofDegrees? turn.degrees = some turn := by
  cases turn <;> rfl

theorem degrees_of_ofDegrees? {degrees : Nat} {turn : Turn}
    (found : ofDegrees? degrees = some turn) :
    turn.degrees = degrees := by
  simpa using List.find?_some found

def text (turn : Turn) : String := Numeral.write turn.degrees ++ "°"

def label : Turn → String
  | upright => "None"
  | quarter => "Clockwise90"
  | half => "Upside180"
  | threeQuarters => "Clockwise270"

end Turn

/-- The turn of each page that has one; pages count from 0. -/
abbrev TurnMap := OrderedMap Nat Turn

namespace TurnMap

def assign (map : TurnMap) (pages : List Nat) (turn : Turn) : TurnMap :=
  pages.foldr (fun page map => map.insert page turn) map

theorem get?_assign (map : TurnMap) (pages : List Nat) (turn : Turn) (page : Nat) :
    (map.assign pages turn).get? page = if page ∈ pages then some turn else map.get? page := by
  induction pages with
  | nil => simp [assign]
  | cons first rest ih =>
    have step : map.assign (first :: rest) turn = (map.assign rest turn).insert first turn := rfl
    rw [step, OrderedMap.get?_insert, ih]
    by_cases later : page ∈ rest <;> by_cases now : first = page <;> grind

end TurnMap

end PdfAssembly
