import PdfAssembly.Proofs.Grammar

/-! Why a list of pages cannot be read: its first item that is not written as one should be
decides, and a second hyphen in it weighs more than what stands around the hyphens. -/
namespace PdfAssembly

namespace Text

theorem length_pieces (separator : Char → Bool) (text : List Char) :
    (pieces separator text).length = text.countP separator + 1 := by
  induction text with
  | nil => rfl
  | cons c rest ih =>
    unfold pieces
    split
    · rename_i cut
      rw [List.length_cons, ih, List.countP_cons_of_pos cut]
    · rename_i other
      rw [List.countP_cons_of_neg other, ← ih]
      split
      · rename_i none
        exact absurd none (pieces_ne_nil separator rest)
      · rename_i found
        rw [found]
        rfl

theorem length_split (separator : Char) (text : String) :
    (split separator text).length = text.toList.count separator + 1 := by
  rw [split, List.length_map, length_pieces]
  rfl

structure Parts (separator : Char) (text : String) (parts : List String) : Prop where
  some : parts ≠ []
  free : ∀ part ∈ parts, separator ∉ part.toList
  joined : join separator parts = text

theorem parts_iff {separator : Char} {text : String} {parts : List String} :
    Parts separator text parts ↔ split separator text = parts := by
  rw [split_eq_iff]
  exact ⟨fun cut => ⟨cut.some, cut.free, cut.joined⟩, fun cut => ⟨cut.1, cut.2.1, cut.2.2⟩⟩

theorem Parts.length {separator : Char} {text : String} {parts : List String}
    (cut : Parts separator text parts) : parts.length = text.toList.count separator + 1 := by
  rw [← parts_iff.1 cut, length_split]

theorem parts_split (separator : Char) (text : String) :
    Parts separator text (split separator text) :=
  parts_iff.2 rfl

end Text

/-- The text stands for no number, or for one that does not fit a word. -/
def Numeral.Unreadable (text : String) : Prop := ∀ n, Denotes text n → limit ≤ n

theorem Numeral.read?_eq_none_iff_unreadable {text : String} :
    read? text = none ↔ Unreadable text := by
  rw [Option.eq_none_iff_forall_ne_some]
  simp only [ne_eq, read?_eq_some_iff_denotes, not_and, Nat.not_lt]
  rfl

namespace PageItem

inductive Fails (wording : String) : ItemFault → Prop
  | hyphens : 2 ≤ wording.toList.count '-' → Fails wording .malformed
  | side : wording.toList.count '-' < 2 → Text.Parts '-' wording sides → side ∈ sides →
      Numeral.Unreadable side → Fails wording .notNumeric

theorem number_eq_error_iff {numeral : String} {fault : ItemFault} :
    number numeral = .error fault ↔ Numeral.Unreadable numeral ∧ fault = .notNumeric := by
  rw [← Numeral.read?_eq_none_iff_unreadable, number]
  cases Numeral.read? numeral <;> simp [eq_comm]

theorem parse_eq_error_iff {wording : String} {fault : ItemFault} :
    parse wording = .error fault ↔ Fails wording fault := by
  have cut := Text.parts_split '-' wording
  have size := cut.length
  -- Up to one hyphen the sides are read one after the other, and all of them fail alike.
  have fails_iff (few : wording.toList.count '-' < 2) : Fails wording fault ↔
      fault = .notNumeric ∧ ∃ side ∈ Text.split '-' wording, Numeral.Unreadable side := by
    constructor
    · rintro (many | ⟨_, parts, member, unreadable⟩)
      · omega
      · rw [← Text.parts_iff.1 parts] at member
        exact ⟨rfl, _, member, unreadable⟩
    · rintro ⟨rfl, side, member, unreadable⟩
      exact .side few cut member unreadable
  simp only [parse]
  split
  · rename_i page found
    rw [fails_iff (by rw [found, List.length_singleton] at size; omega), found]
    simp [bind_eq_error_iff, number_eq_error_iff, pure, Except.pure, and_comm]
  · rename_i first last found
    rw [fails_iff (by rw [found, List.length_cons, List.length_singleton] at size; omega), found]
    simp only [bind_eq_error_iff, number_eq_error_iff, pure, Except.pure, reduceCtorEq, and_false,
      exists_false, or_false, List.mem_cons, List.not_mem_nil, exists_eq_or_imp, exists_eq_left]
    constructor
    · rintro (⟨bad, rfl⟩ | ⟨_, _, bad, rfl⟩)
      · exact ⟨rfl, .inl bad⟩
      · exact ⟨rfl, .inr bad⟩
    · rintro ⟨rfl, bad | bad⟩
      · exact .inl ⟨bad, rfl⟩
      · cases read : number first with
        | error other => exact .inl ⟨(number_eq_error_iff.1 read).1, rfl⟩
        | ok n => exact .inr ⟨n, rfl, bad, rfl⟩
  · rename_i noSingle noRange
    have many : 2 ≤ wording.toList.count '-' := by
      rcases sides : Text.split '-' wording with _ | ⟨first, _ | ⟨second, _ | ⟨third, more⟩⟩⟩
      · exact absurd sides (Text.split_ne_nil '-' wording)
      · exact absurd sides (noSingle first)
      · exact absurd sides (noRange first second)
      · simp only [sides, List.length_cons] at size
        omega
    constructor
    · intro failed
      cases failed
      exact .hyphens many
    · rintro (_ | ⟨few, _⟩)
      · rfl
      · omega

end PageItem

namespace PageList

/-- The first item that cannot be read, and why. -/
def Fails (list : String) (fault : ItemFault) (wording : String) : Prop :=
  ∃ parts, Text.Parts ',' list parts ∧
    ComesTo (fun part => ∃ item : PageItem, item.Written part ∧ item.Fits) parts wording ∧
    PageItem.Fails wording fault

theorem parse_eq_error_iff {list wording : String} {fault : ItemFault} :
    parse list = .error (fault, wording) ↔ Fails list fault wording := by
  simp only [parse, mapM_eq_error_iff, Fails, Text.parts_iff, exists_eq_left',
    ← PageItem.parse_eq_ok_iff, ← PageItem.parse_eq_error_iff]
  constructor
  · rintro ⟨part, reached, failed⟩
    cases read : PageItem.parse part with
    | ok item => simp [read] at failed
    | error other =>
      simp only [read, Except.error.injEq, Prod.mk.injEq] at failed
      obtain ⟨rfl, rfl⟩ := failed
      refine ⟨reached.imp ?_, read⟩
      rintro earlier ⟨pair, done⟩
      cases good : PageItem.parse earlier with
      | ok item => exact ⟨item, rfl⟩
      | error other => simp [good] at done
  · rintro ⟨reached, failed⟩
    refine ⟨wording, reached.imp ?_, by rw [failed]⟩
    rintro earlier ⟨item, good⟩
    exact ⟨(earlier, item), by rw [good]⟩

end PageList

end PdfAssembly
