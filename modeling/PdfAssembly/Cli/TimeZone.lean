import PdfAssembly.Cli.Calendar
import PdfAssembly.Number.Numeral

/-! Time zones such as `XXX3:30`: a name and an offset, which counts westwards, and perhaps the
name and the offset of daylight saving time with the rules for its start and its end. -/
namespace PdfAssembly

inductive ChangeDay
  /-- A weekday of a month, 0 being Sunday, in a week from 1 on; the fifth one is the last. -/
  | ofMonth (month week weekday : Nat)
  /-- Counted from 1, without 29 February. -/
  | withoutLeapDay (day : Nat)
  /-- Counted from 0. -/
  | ofYear (day : Nat)
deriving DecidableEq, Repr

namespace ChangeDay

def inYear (year : Int) : ChangeDay → Int
  | ofMonth month week weekday =>
    let first := Calendar.firstDayOfMonth year month
    let day := first + (weekday + 7 - Calendar.weekday first) % 7 + (week - 1) * 7
    if day < Calendar.firstDayOfMonth year (month + 1) then day else day - 7
  | withoutLeapDay day =>
    Calendar.firstDay year + (day - 1) + (if 59 < day ∧ Calendar.isLeap year then 1 else 0)
  | ofYear day => Calendar.firstDay year + day

end ChangeDay

structure Change where
  day : ChangeDay
  /-- Seconds since midnight, by the clock that is about to change. -/
  time : Nat
deriving DecidableEq, Repr

/-- Offsets tell how many seconds local time is ahead of universal time. -/
structure DaylightSaving where
  offset : Int
  start : Change
  finish : Change
deriving DecidableEq, Repr

structure TimeZone where
  offset : Int
  daylight : Option DaylightSaving
deriving DecidableEq, Repr

/-- The moments of a change around an instant, by a clock with this offset. -/
def Change.around (change : Change) (offset instant : Int) : List Int :=
  let year := Calendar.year (instant / 86400)
  [year - 2, year - 1, year, year + 1].map fun year =>
    86400 * change.day.inYear year + change.time - offset

namespace TimeZone

def universal : TimeZone := ⟨0, none⟩

def isDaylight (zone : TimeZone) (rule : DaylightSaving) (instant : Int) : Bool :=
  let ends := rule.finish.around rule.offset instant
  (rule.start.around zone.offset instant).any fun start =>
    start ≤ instant && ends.all fun finish => finish < start || instant < finish

def offsetAt (zone : TimeZone) (instant : Int) : Int :=
  match zone.daylight with
  | none => zone.offset
  | some rule => if zone.isDaylight rule instant then rule.offset else zone.offset

/-! Each reader gives back what is left of the text behind what it reads. -/

def expect? (c : Char) : List Char → Option (List Char)
  | first :: rest => if first = c then some rest else none
  | [] => none

def number? (least greatest : Nat) (text : List Char) : Option (Nat × List Char) := do
  let n ← Numeral.read? (String.ofList (text.takeWhile Char.isDigit))
  if least ≤ n ∧ n ≤ greatest then return (n, text.dropWhile Char.isDigit) else none

/-- Hours, and perhaps minutes and seconds, in seconds. -/
def seconds? (text : List Char) : Option (Nat × List Char) := do
  let (hours, text) ← number? 0 24 text
  match text with
  | ':' :: text =>
    let (minutes, text) ← number? 0 59 text
    match text with
    | ':' :: text =>
      let (seconds, text) ← number? 0 59 text
      return (hours * 3600 + minutes * 60 + seconds, text)
    | text => return (hours * 3600 + minutes * 60, text)
  | text => return (hours * 3600, text)

/-- How far a clock is ahead, given how far it is behind. -/
def offset? : List Char → Option (Int × List Char)
  | '-' :: text => (seconds? text).map fun (seconds, rest) => (seconds, rest)
  | '+' :: text => (seconds? text).map fun (seconds, rest) => (-seconds, rest)
  | text => (seconds? text).map fun (seconds, rest) => (-seconds, rest)

def isName (name : List Char) : Bool :=
  3 ≤ name.length && name.length ≤ 7 &&
    name.all fun c => c.isAlphanum || c == '+' || c == '-'

/-- What follows a name, which may stand in angle brackets. -/
def name? : List Char → Option (List Char)
  | '<' :: text =>
    if isName (text.takeWhile (· ≠ '>')) then expect? '>' (text.dropWhile (· ≠ '>')) else none
  | text =>
    if isName (text.takeWhile Char.isAlpha) then some (text.dropWhile Char.isAlpha) else none

def changeDay? : List Char → Option (ChangeDay × List Char)
  | 'M' :: text => do
    let (month, text) ← number? 1 12 text
    let (week, text) ← number? 1 5 (← expect? '.' text)
    let (weekday, text) ← number? 0 6 (← expect? '.' text)
    return (.ofMonth month week weekday, text)
  | 'J' :: text => (number? 1 365 text).map fun (day, rest) => (.withoutLeapDay day, rest)
  | text => (number? 0 365 text).map fun (day, rest) => (.ofYear day, rest)

/-- A rule behind a comma. Clocks change at two unless it says otherwise. -/
def change? (text : List Char) : Option (Change × List Char) := do
  let (day, text) ← changeDay? (← expect? ',' text)
  match text with
  | '/' :: text => (seconds? text).map fun (time, rest) => (⟨day, time⟩, rest)
  | text => return (⟨day, 7200⟩, text)

/-- Daylight saving time in all that is left. It is an hour ahead unless it says otherwise. -/
def daylight? (standard : Int) (text : List Char) : Option DaylightSaving := do
  let text ← name? text
  let (offset, text) ← if text.head? = some ',' then some (standard + 3600, text) else offset? text
  let (start, text) ← change? text
  let (finish, text) ← change? text
  if text = [] then return ⟨offset, start, finish⟩ else none

def isBlank (c : Char) : Bool := [' ', '\t', '\n', '\x0c', '\r'].contains c

def trim (text : List Char) : List Char :=
  ((text.dropWhile isBlank).reverse.dropWhile isBlank).reverse

def parse? (text : String) : Option TimeZone := do
  let (offset, rest) ← offset? (← name? (trim text.toList))
  if rest = [] then return ⟨offset, none⟩
  else return ⟨offset, some (← daylight? offset rest)⟩

/-- The zone that a setting names; universal time if it names none. -/
def ofSetting (text : Option String) : TimeZone := (text.bind parse?).getD universal

end TimeZone

end PdfAssembly
