/-! Unsigned decimal numerals. A numeral is a non-empty text of ASCII digits; leading zeros are
allowed and signs are not. Numbers in use fit a machine word of 64 bits. -/
namespace PdfAssembly.Numeral

/-- One more than the greatest number a numeral may denote. -/
def limit : Nat := UInt64.size

def WellFormed (text : String) : Prop :=
  text.toList ≠ [] ∧ ∀ c ∈ text.toList, c.isDigit = true

-- Only the characters of the text are looked at, not all that there are.
instance (text : String) : Decidable (WellFormed text) :=
  @instDecidableAnd _ _ _ (List.decidableBAll (fun c => c.isDigit = true) text.toList)

def value (text : String) : Nat := Nat.ofDigitChars 10 text.toList 0

/-- Refuses what is no numeral and what does not fit a word. -/
def read? (text : String) : Option Nat :=
  if WellFormed text ∧ value text < limit then some (value text) else none

def write (n : Nat) : String := String.ofList (Nat.toDigits 10 n)

theorem read?_eq_some_iff {text : String} {n : Nat} :
    read? text = some n ↔ WellFormed text ∧ value text = n ∧ n < limit := by
  unfold read?
  split <;> grind

theorem read?_eq_none_iff {text : String} :
    read? text = none ↔ ¬ (WellFormed text ∧ value text < limit) := by
  unfold read?
  split <;> simp_all

@[simp] theorem value_write (n : Nat) : value (write n) = n := by
  simp [value, write, Nat.ofDigitChars_ten_toDigits]

theorem wellFormed_write (n : Nat) : WellFormed (write n) := by
  refine ⟨by simp [write, Nat.toDigits_ne_nil], fun c member => ?_⟩
  simp only [write, String.toList_ofList] at member
  exact Nat.isDigit_of_mem_toDigits (by decide) (by decide) member

theorem read?_write {n : Nat} (fits : n < limit) : read? (write n) = some n := by
  simp [read?_eq_some_iff, wellFormed_write, fits]

end PdfAssembly.Numeral
