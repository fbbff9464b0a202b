import Mathlib.Data.List.TakeWhile
import PdfAssembly.Proofs.Assignments
import PdfAssembly.Proofs.PageListFaults

/-! Which error a rotation that does not resolve ends with. All assignments are read before the
numbers of the first one are looked at, so that a page that does not exist is reported only when
every assignment is written as it should be. -/
namespace PdfAssembly

def Turn.Unreadable (text : String) : Prop := ∀ turn : Turn, ¬ Numeral.Denotes text turn.degrees

theorem Turn.parse_eq_error_iff {text : String} {error : SpecError} :
    Turn.parse text = .error error ↔
      Turn.Unreadable text ∧ error = .invalidRotationValue text := by
  simp only [Turn.Unreadable, ← Turn.parse_eq_ok_iff, Turn.parse]
  cases (Numeral.read? text).bind Turn.ofDegrees? <;> simp [eq_comm]

theorem Text.splitLast?_eq_none_iff {separator : Char} {text : String} :
    splitLast? separator text = none ↔ separator ∉ text.toList := by
  have nothing : splitLast? separator text = none ↔
      text.toList.reverse.dropWhile (· != separator) = [] := by
    simp only [splitLast?]
    split <;> simp [*]
  rw [nothing, List.dropWhile_eq_nil_iff]
  constructor
  · intro each inside
    simpa using each separator (List.mem_reverse.2 inside)
  · intro free c member
    have apart : c ≠ separator := fun same => free (same ▸ List.mem_reverse.1 member)
    simpa using apart

namespace Assignment

def ReadFrom (assignment : Assignment) (token : String) : Prop :=
  assignment.Written token ∧ ∀ item ∈ assignment.items, item.Fits

inductive Fails (token : String) : SpecError → Prop
  | noColon : ':' ∉ token.toList → Fails token (.malformedToken token)
  | degrees : ':' ∉ degrees.toList → Text.join ':' [list, degrees] = token →
      Turn.Unreadable degrees → Fails token (.invalidRotationValue degrees)
  | empty {turn : Turn} : Text.join ':' ["", degrees] = token →
      Numeral.Denotes degrees turn.degrees → Fails token (.emptyPageList token)
  | malformed {turn : Turn} : Text.join ':' [list, degrees] = token →
      Numeral.Denotes degrees turn.degrees → list ≠ "" → PageList.Fails list .malformed wording →
      Fails token (.malformedToken wording)
  | notNumeric {turn : Turn} : Text.join ':' [list, degrees] = token →
      Numeral.Denotes degrees turn.degrees → list ≠ "" → PageList.Fails list .notNumeric wording →
      Fails token (.invalidPageIndex .rotation token)

theorem fails_of_plain {token : String} {error : SpecError} (plain : ':' ∉ token.toList) :
    Fails token error ↔ error = .malformedToken token := by
  have joined {list degrees : String} (same : Text.join ':' [list, degrees] = token) : False := by
    subst same
    simp [Text.join, Text.glue] at plain
  constructor
  · intro failed
    cases failed with
    | noColon => rfl
    | degrees _ same | empty same | malformed same | notNumeric same => exact (joined same).elim
  · rintro rfl
    exact .noColon plain

/-- The degrees count for more than the list before them. -/
theorem fails_of_split {token list degrees : String} {error : SpecError}
    (cut : Text.splitLast? ':' token = some (list, degrees)) :
    Fails token error ↔ Turn.Unreadable degrees ∧ error = .invalidRotationValue degrees ∨
      ∃ turn : Turn, Numeral.Denotes degrees turn.degrees ∧
        (list = "" ∧ error = .emptyPageList token ∨
          list ≠ "" ∧ ∃ fault wording, PageList.Fails list fault wording ∧ error = match fault with
            | .malformed => .malformedToken wording
            | .notNumeric => .invalidPageIndex .rotation token) := by
  obtain ⟨free, whole⟩ := Text.splitLast?_eq_some_iff.1 cut
  have unique {before after : String} (free : ':' ∉ after.toList)
      (same : Text.join ':' [before, after] = token) : before = list ∧ after = degrees := by
    have also := Text.splitLast?_eq_some_iff.2 ⟨free, same⟩
    rw [cut] at also
    cases also
    exact ⟨rfl, rfl⟩
  constructor
  · intro failed
    cases failed with
    | noColon plain =>
      rw [Text.splitLast?_eq_none_iff.2 plain] at cut
      cases cut
    | degrees free same unreadable =>
      obtain ⟨rfl, rfl⟩ := unique free same
      exact .inl ⟨unreadable, rfl⟩
    | empty same denotes =>
      obtain ⟨rfl, rfl⟩ := unique (denotes.notMem (by decide)) same
      exact .inr ⟨_, denotes, .inl ⟨rfl, rfl⟩⟩
    | malformed same denotes some_text failed =>
      obtain ⟨rfl, rfl⟩ := unique (denotes.notMem (by decide)) same
      exact .inr ⟨_, denotes, .inr ⟨some_text, .malformed, _, failed, rfl⟩⟩
    | notNumeric same denotes some_text failed =>
      obtain ⟨rfl, rfl⟩ := unique (denotes.notMem (by decide)) same
      exact .inr ⟨_, denotes, .inr ⟨some_text, .notNumeric, _, failed, rfl⟩⟩
  · rintro (⟨unreadable, rfl⟩ |
      ⟨turn, denotes, ⟨rfl, rfl⟩ | ⟨some_text, fault, wording, failed, rfl⟩⟩)
    · exact .degrees free whole unreadable
    · exact .empty whole denotes
    · cases fault with
      | malformed => exact .malformed whole denotes some_text failed
      | notNumeric => exact .notNumeric whole denotes some_text failed

theorem parse_eq_error_iff {token : String} {error : SpecError} :
    parse token = .error error ↔ Fails token error := by
  cases cut : Text.splitLast? ':' token with
  | none =>
    rw [fails_of_plain (Text.splitLast?_eq_none_iff.1 cut)]
    simp [parse, cut, eq_comm]
  | some parts =>
    obtain ⟨list, degrees⟩ := parts
    rw [fails_of_split cut]
    simp only [parse, cut, bind_eq_error_iff, Turn.parse_eq_error_iff, Turn.parse_eq_ok_iff,
      ← PageList.parse_eq_error_iff]
    refine or_congr_right (exists_congr fun turn => and_congr_right fun _ => ?_)
    by_cases none : list = ""
    · rw [if_pos (String.isEmpty_iff.2 none)]
      simp only [none, true_and, ne_eq, not_true, false_and, or_false, Except.error.injEq]
      exact eq_comm
    · cases read : PageList.parse list with
      | ok pairs => simp [none, pure, Except.pure]
      | error fault =>
        obtain ⟨fault, wording⟩ := fault
        cases fault <;> simp [none] <;> exact eq_comm

theorem resolve_eq_error_iff {count : Nat} {assignment : Assignment} {error : SpecError} :
    assignment.resolve count = .error error ↔
      ¬ assignment.InBounds count ∧ error = .invalidPageIndex .rotation assignment.text := by
  cases done : assignment.resolve count with
  | ok part =>
    have inside := (resolve_eq_ok_iff.1 done).1
    simp [inside]
  | error other =>
    have outside : ¬ assignment.InBounds count := by
      intro inside
      rw [resolve_eq_ok_iff.2 ⟨inside, rfl⟩] at done
      cases done
    simp only [resolve] at done
    split at done
    · cases done
    · cases done
      simp [outside, eq_comm]

/-- A token can be read as one assignment only. -/
theorem ReadFrom.unique {token : String} {one other : Assignment} (left : one.ReadFrom token)
    (right : other.ReadFrom token) : one = other :=
  Except.ok.inj ((parse_eq_ok_iff.2 left).symm.trans (parse_eq_ok_iff.2 right))

theorem ReadFrom.text {token : String} {assignment : Assignment}
    (read : assignment.ReadFrom token) : assignment.text = token := by
  obtain ⟨⟨_, _⟩, _⟩ := read
  rfl

end Assignment

namespace Rotation

inductive Fails (count : Nat) (tokens : List String) : SpecError → Prop
  | everyPage : tokens = [token] → ':' ∉ token.toList → Turn.Unreadable token →
      Fails count tokens (.invalidRotationValue token)
  | unreadable : (∀ only, tokens = [only] → ':' ∈ only.toList) →
      ComesTo (fun earlier => ∃ assignment : Assignment, assignment.ReadFrom earlier) tokens token →
      Assignment.Fails token error → Fails count tokens error
  | outside {assignment : Assignment} :
      (∀ token ∈ tokens, ∃ assignment : Assignment, assignment.ReadFrom token) →
      ComesTo (fun earlier => ∃ assignment : Assignment,
        assignment.ReadFrom earlier ∧ assignment.InBounds count) tokens token →
      assignment.ReadFrom token → ¬ assignment.InBounds count →
      Fails count tokens (.invalidPageIndex .rotation token)

end Rotation

namespace RotationSpec

/-- A single token without a colon is read as degrees, and else the first token that is no
assignment decides. -/
theorem parse_eq_error_iff {tokens : List String} {error : SpecError} :
    parse tokens = .error error ↔
      (∃ token, tokens = [token] ∧ ':' ∉ token.toList ∧ Turn.Unreadable token ∧
        error = .invalidRotationValue token) ∨
      (∀ only, tokens = [only] → ':' ∈ only.toList) ∧
        ∃ token, ComesTo (fun earlier => ∃ assignment : Assignment, assignment.ReadFrom earlier)
          tokens token ∧ Assignment.Fails token error := by
  have several : (do return assignments (← tokens.mapM Assignment.parse)) = Except.error error ↔
      ∃ token, ComesTo (fun earlier => ∃ assignment : Assignment, assignment.ReadFrom earlier)
          tokens token ∧ Assignment.Fails token error := by
    simp [bind_eq_error_iff, mapM_eq_error_iff, pure, Except.pure, Assignment.parse_eq_ok_iff,
      Assignment.parse_eq_error_iff, Assignment.ReadFrom]
  unfold parse
  dsimp only
  split
  · simp [comesTo_nil]
  · rename_i token
    split
    · rename_i colon
      rw [several]
      simp [colon]
    · rename_i plain
      simp [plain, bind_eq_error_iff, Turn.parse_eq_error_iff, pure, Except.pure]
  · rename_i noToken oneToken
    have other (token : String) : tokens ≠ [token] := oneToken token
    rw [several]
    simp [other]

/-- Assignments that can be read fail at the first one with a page that does not exist. -/
theorem resolve_assignments_eq_error_iff {tokens : List String} {list : List Assignment}
    {count : Nat} {error : SpecError} (each : List.Forall₂
      (fun token assignment => Assignment.parse token = .ok assignment) tokens list) :
    (assignments list).resolve count = .error error ↔
      ∃ token, ComesTo (fun earlier => ∃ assignment : Assignment,
          assignment.ReadFrom earlier ∧ assignment.InBounds count) tokens token ∧
        ∃ assignment : Assignment, assignment.ReadFrom token ∧ ¬ assignment.InBounds count ∧
          error = .invalidPageIndex .rotation token := by
  have passes (token : String) :
      (∃ part, (Assignment.parse token >>= Assignment.resolve count) = .ok part) ↔
        ∃ assignment : Assignment, assignment.ReadFrom token ∧ assignment.InBounds count := by
    simp [bind_eq_ok_iff, Assignment.parse_eq_ok_iff, Assignment.resolve_eq_ok_iff,
      Assignment.ReadFrom]
  simp only [resolve, bind_eq_error_iff, mapM_of_forall₂ each, mapM_eq_error_iff, passes, pure,
    Except.pure, reduceCtorEq, and_false, exists_false, or_false]
  refine exists_congr fun token => and_congr_right fun reached => ?_
  -- The token can be read, so that only the second step can fail.
  obtain ⟨assignment, parsed⟩ := forall_ok_of_mapM (mapM_eq_ok_iff.2 each) token reached.mem
  have read : assignment.ReadFrom token := Assignment.parse_eq_ok_iff.1 parsed
  simp only [parsed, reduceCtorEq, Except.ok.injEq, false_or, exists_eq_left',
    Assignment.resolve_eq_error_iff, read.text]
  constructor
  · rintro ⟨outside, rfl⟩
    exact ⟨assignment, read, outside, rfl⟩
  · rintro ⟨other, also, outside, rfl⟩
    exact ⟨also.unique read ▸ outside, rfl⟩

end RotationSpec

/-- A rotation fails exactly with what is wrong with its tokens: what is wrong with a single token
that is no assignment, or else with the first one that cannot be read, or else, as all of them can
be read, with the first one that names a page that does not exist. -/
theorem rotation_error_iff {tokens : List String} {count : Nat} {error : SpecError} :
    Rotation.resolve tokens count = .error error ↔ Rotation.Fails count tokens error := by
  rw [Rotation.resolve, bind_eq_error_iff, RotationSpec.parse_eq_error_iff]
  constructor
  · rintro ((⟨token, one, plain, unreadable, rfl⟩ | ⟨several, token, reached, failed⟩) |
      ⟨spec, parsed, failed⟩)
    · exact .everyPage one plain unreadable
    · exact .unreadable several reached failed
    rcases RotationSpec.parse_eq_ok_iff.1 parsed with
      ⟨_, rfl⟩ | ⟨_, _, _, _, rfl⟩ | ⟨_, list, each, rfl⟩
    · cases failed
    · cases failed
    · obtain ⟨token, reached, assignment, read, outside, rfl⟩ :=
        (RotationSpec.resolve_assignments_eq_error_iff each).1 failed
      have all := forall_ok_of_mapM (mapM_eq_ok_iff.2 each)
      simp only [Assignment.parse_eq_ok_iff] at all
      exact .outside all reached read outside
  · intro failed
    cases failed with
    | everyPage one plain unreadable => exact .inl (.inl ⟨_, one, plain, unreadable, rfl⟩)
    | unreadable several reached failed => exact .inl (.inr ⟨several, _, reached, failed⟩)
    | outside all reached read outside =>
      have some : tokens ≠ [] := List.ne_nil_of_mem reached.mem
      simp only [Assignment.ReadFrom, ← Assignment.parse_eq_ok_iff] at all
      obtain ⟨list, parsed⟩ := exists_mapM_eq_ok all
      have each := mapM_eq_ok_iff.1 parsed
      refine .inr ⟨.assignments list,
        RotationSpec.parse_eq_ok_iff.2 (.inr (.inr ⟨some, list, each, rfl⟩)), ?_⟩
      exact (RotationSpec.resolve_assignments_eq_error_iff each).2
        ⟨_, reached, _, read, outside, rfl⟩

/-- The first token names a page that does not exist, but the second cannot be read. -/
example : Rotation.resolve ["9:90", "1:45"] 3 = .error (.invalidRotationValue "45") := rfl

end PdfAssembly
