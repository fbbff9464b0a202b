/-! Days of the Gregorian calendar, counted from 1970. -/
namespace PdfAssembly.Calendar

def firstDay (year : Int) : Int :=
  365 * (year - 1970) + (year - 1) / 4 - (year - 1) / 100 + (year - 1) / 400 - 477

theorem firstDay_succ (year : Int) :
    firstDay (year + 1) = firstDay year + 365 ∨ firstDay (year + 1) = firstDay year + 366 := by
  unfold firstDay
  omega

def isLeap (year : Int) : Bool := firstDay (year + 1) - firstDay year == 366

def months (year : Int) : List Nat :=
  [31, if isLeap year then 29 else 28, 31, 30, 31, 30, 31, 31, 30, 31, 30, 31]

def firstDayOfMonth (year : Int) (month : Nat) : Int :=
  let before : Nat := ((months year).take (month - 1)).foldl (· + ·) 0
  firstDay year + before

/-- The weekday of a day, 0 for Sundays. -/
def weekday (day : Int) : Nat := ((day + 4) % 7).toNat

def year (day : Int) : Int :=
  let guess := 1970 + day * 400 / 146097
  if day < firstDay guess then guess - 1
  else if day < firstDay (guess + 1) then guess
  else guess + 1

/-- Years have 365.2425 days on average, and no year begins far from where that would put it. -/
theorem firstDay_near (year : Int) :
    146097 * (year - 1970) - 600 ≤ 400 * firstDay year ∧
      400 * firstDay year ≤ 146097 * (year - 1970) + 600 := by
  unfold firstDay
  omega

theorem firstDay_year_le (day : Int) :
    firstDay (year day) ≤ day ∧ day < firstDay (year day + 1) := by
  unfold year
  dsimp only
  generalize guessed : 1970 + day * 400 / 146097 = guess
  have before := firstDay_near (guess - 1)
  have after := firstDay_near (guess + 2)
  have same : guess - 1 + 1 = guess := by omega
  have next : guess + 1 + 1 = guess + 2 := by omega
  split
  · rw [same]; omega
  · split
    · omega
    · rw [next]; omega

end PdfAssembly.Calendar
