import PdfAssembly.Cli.PlanText
import PdfAssembly.Pipeline.Ledger
import PdfAssembly.Proofs.Assignments
import PdfAssembly.Proofs.DryRun
import PdfAssembly.Proofs.Selection
import PdfAssembly.Text.Blank

/-! A plan can be replayed from the way it is shown. Each line names a page as a selector would,
and a turn as an assignment would; what is read off the lines resolves to the plan again. -/
namespace PdfAssembly

namespace Text

def IsWord (text : String) : Prop := text ≠ "" ∧ ∀ c ∈ text.toList, isBlank c = false

theorem words_blank_append {blanks rest : String} (blank : ∀ c ∈ blanks.toList, isBlank c = true) :
    words (blanks ++ rest) = words rest := by
  simp only [words, String.toList_append]
  generalize blanks.toList = front at blank
  induction front with
  | nil => rfl
  | cons c front ih =>
    obtain ⟨first, others⟩ := List.forall_mem_cons.1 blank
    simpa [pieces, first] using ih others

theorem words_word_append {word rest : String} (isWord : IsWord word)
    (apart : ∀ c ∈ rest.toList.head?, isBlank c = true) :
    words (word ++ rest) = word :: words rest := by
  obtain ⟨some, free⟩ := isWord
  have front : word.toList.isEmpty = false := by simpa using some
  simp only [words, String.toList_append]
  cases behind : rest.toList with
  | nil => simp [pieces_of_separator_free free, pieces, front]
  | cons c others =>
    have blank : isBlank c = true := apart c (by simp [behind])
    simp [pieces_append_separator c others free blank, pieces, blank, front]

theorem words_of_isWord {word : String} (isWord : IsWord word) : words word = [word] := by
  rw [← String.append_empty (s := word), words_word_append isWord (by simp), String.append_empty]
  rfl

/-- Words that are joined by a blank come apart again. -/
theorem words_join {blank : Char} (white : isBlank blank = true) {parts : List String}
    (each : ∀ part ∈ parts, IsWord part) : words (join blank parts) = parts := by
  induction parts with
  | nil => rfl
  | cons part rest ih =>
    obtain ⟨first, others⟩ := List.forall_mem_cons.1 each
    cases rest with
    | nil =>
      have alone : join blank [part] = part := by simp [join, glue]
      rw [alone, words_of_isWord first]
    | cons next rest =>
      have cut : join blank (part :: next :: rest) =
          part ++ (String.singleton blank ++ join blank (next :: rest)) := by
        simp [join, glue]
      rw [cut, words_word_append first (by simp [white]), words_blank_append (by simp [white]),
        ih others]

theorem isBlank_of_isDigit {c : Char} (digit : c.isDigit = true) : isBlank c = false := by
  have range : 48 ≤ c.toNat ∧ c.toNat ≤ 57 := by
    simp only [Char.isDigit, Bool.and_eq_true, decide_eq_true_eq, ge_iff_le,
      UInt32.le_iff_toNat_le] at digit
    exact digit
  simp only [isBlank, blankRanges, List.any_cons, List.any_nil, Bool.or_false,
    Bool.or_eq_false_iff, Bool.and_eq_false_iff, decide_eq_false_iff_not]
  omega

/-- Joining words by a character that is not blank gives a word. -/
theorem isWord_join {separator : Char} (plain : isBlank separator = false) {parts : List String}
    (some : parts ≠ []) (each : ∀ part ∈ parts, IsWord part) : IsWord (join separator parts) := by
  constructor
  · cases parts with
    | nil => contradiction
    | cons part rest =>
      have filled := (each part (by simp)).1
      cases rest <;> simp [join, glue, filled]
  · intro c member
    rcases mem_join member with rfl | ⟨part, present, inside⟩
    · exact plain
    · exact (each part present).2 c inside

theorem IsWord.notMem {word : String} (isWord : IsWord word) {c : Char}
    (blank : isBlank c = true) : c ∉ word.toList := by
  intro inside
  rw [isWord.2 c inside] at blank
  cases blank

def lines (text : String) : List String := (split '\n' text).dropLast

/-- Lines that are put together are found again. -/
theorem lines_join {parts : List String} (each : ∀ part ∈ parts, '\n' ∉ part.toList) :
    lines (String.join (parts.map (· ++ "\n"))) = parts := by
  have cut : pieces (· == '\n') (parts.flatMap (·.toList ++ ['\n'])) =
      parts.map String.toList ++ [[]] := by
    induction parts with
    | nil => rfl
    | cons part rest ih =>
      obtain ⟨first, others⟩ := List.forall_mem_cons.1 each
      rw [List.flatMap_cons, List.append_assoc, List.singleton_append,
        pieces_append_separator '\n' _ ?_ (by decide), ih others]
      · rfl
      · intro c inside
        have apart : c ≠ '\n' := fun same => first (same ▸ inside)
        simpa using apart
  have shown : (String.join (parts.map (· ++ "\n"))).toList =
      parts.flatMap (·.toList ++ ['\n']) := by
    simp [List.flatMap_map]
  simp [lines, split, shown, cut, Function.comp_def]

end Text

theorem Numeral.isWord_write (n : Nat) : Text.IsWord (write n) := by
  obtain ⟨some, digits⟩ := wellFormed_write n
  exact ⟨by simpa using some, fun c inside => Text.isBlank_of_isDigit (digits c inside)⟩

theorem Numeral.denotes_write (n : Nat) : Denotes (write n) n := ⟨wellFormed_write n, value_write n⟩

/-- A page number alone is a list of pages. -/
theorem PageList.written_single (page : Nat) :
    Written [(Numeral.write page, .single page)] (Numeral.write page) :=
  ⟨by simp, List.forall_mem_singleton.2 (.single (Numeral.denotes_write page)),
    by simp [Text.join, Text.glue]⟩

theorem PageItem.inBounds_single {page count : Nat} (below : page < count) :
    (single (page + 1)).InBounds count := by
  simpa [InBounds, ends, Nat.add_one_le_iff] using below

theorem PageReference.isWord_text (reference : PageReference) : Text.IsWord reference.text := by
  apply Text.isWord_join (by decide) (by simp)
  simp [Numeral.isWord_write]

theorem Turn.isWord_text (turn : Turn) : Text.IsWord ("+" ++ turn.text) := by
  have plain : ("+" ++ turn.text).toList.all fun c => !Text.isBlank c := by
    cases turn <;> decide
  refine ⟨by cases turn <;> decide, fun c member => ?_⟩
  simpa using List.all_eq_true.1 plain c member

namespace Plan

/-- What stands before the position, so that positions end below each other. -/
theorem exists_paddedLeft (width : Nat) (text : String) :
    ∃ blanks : String, (∀ c ∈ blanks.toList, c = ' ') ∧ paddedLeft width text = blanks ++ text := by
  refine ⟨_, fun c member => ?_, rfl⟩
  rw [String.toList_ofList] at member
  exact List.eq_of_mem_replicate member

/-- The words of a line: a position, a page and perhaps a turn. -/
theorem words_line (turns : TurnMap) (reference : PageReference) (position : Nat) :
    Text.words (line turns (reference, position)) =
      Numeral.write (position + 1) :: reference.text ::
        ((turns.get? position).map ("+" ++ ·.text)).toList := by
  have two : ∀ c ∈ ("  " : String).toList, Text.isBlank c = true := by
    simp [Text.isBlank, Text.blankRanges]
  have head (text : String) : ∀ c ∈ ("  " ++ text).toList.head?, Text.isBlank c = true := by
    simp [Text.isBlank, Text.blankRanges]
  obtain ⟨blanks, spaces, padded⟩ := exists_paddedLeft 4 (Numeral.write (position + 1))
  have white : ∀ c ∈ blanks.toList, Text.isBlank c = true := by
    intro c member
    rw [spaces c member]
    decide
  simp only [line, padded, String.append_assoc]
  rw [Text.words_blank_append white, Text.words_word_append (Numeral.isWord_write _) (head _),
    Text.words_blank_append two]
  cases turns.get? position with
  | none => simp [Text.words_of_isWord reference.isWord_text]
  | some turn =>
    have marked : "  +" ++ turn.text = "  " ++ ("+" ++ turn.text) := by
      rw [← String.append_assoc]
      rfl
    simp only [marked]
    rw [Text.words_word_append reference.isWord_text (head _), Text.words_blank_append two,
      Text.words_of_isWord turn.isWord_text]
    rfl

theorem line_oneLine (turns : TurnMap) (reference : PageReference) (position : Nat) :
    '\n' ∉ (line turns (reference, position)).toList := by
  obtain ⟨blanks, spaces, padded⟩ := exists_paddedLeft 4 (Numeral.write (position + 1))
  have feed : Text.isBlank '\n' = true := by decide
  simp only [line, padded, String.toList_append, List.mem_append, not_or]
  refine ⟨⟨⟨⟨?_, (Numeral.isWord_write _).notMem feed⟩, by decide⟩,
    reference.isWord_text.notMem feed⟩, ?_⟩
  · intro member
    exact absurd (spaces _ member) (by decide)
  · cases turns.get? position with
    | none => simp
    | some turn => cases turn <;> decide

theorem lines_text (plan : Plan) : Text.lines plan.text = plan.lines := by
  apply Text.lines_join
  intro shown member
  obtain ⟨⟨reference, position⟩, _, rfl⟩ := List.mem_map.1 member
  exact line_oneLine _ _ _

/-- The degrees in a word that shows a turn, such as `+90°`. -/
def degreesShown? (word : String) : Option String :=
  match word.toList with
  | '+' :: rest => if rest.getLast? = some '°' then some (String.ofList rest.dropLast) else none
  | _ => none

def selectorShown? (line : String) : Option String := (Text.words line)[1]?

def assignmentShown? (line : String) : Option String :=
  match Text.words line with
  | [position, _, turn] => (degreesShown? turn).map fun degrees => Text.join ':' [position, degrees]
  | _ => none

theorem degreesShown?_text (turn : Turn) :
    degreesShown? ("+" ++ turn.text) = some (Numeral.write turn.degrees) := by
  cases turn <;> decide

end Plan

def Assignment.ofPage (position : Nat) (turn : Turn) : Assignment where
  text := Text.join ':' [Numeral.write (position + 1), Numeral.write turn.degrees]
  items := [.single (position + 1)]
  turn := turn

namespace Plan

def assignments (plan : Plan) : List Assignment :=
  (List.range plan.pages.length).filterMap fun position =>
    (plan.turns.get? position).map (Assignment.ofPage position)

theorem selectorsShown (plan : Plan) :
    (Text.lines plan.text).filterMap selectorShown? = plan.pages.map PageReference.text := by
  have shown : selectorShown? ∘ line plan.turns = some ∘ PageReference.text ∘ Prod.fst := by
    funext ⟨reference, position⟩
    rw [Function.comp_apply, selectorShown?, words_line]
    rfl
  rw [plan.lines_text, lines, List.filterMap_map, shown, List.filterMap_eq_map, ← List.map_map,
    List.zipIdx_map_fst]

theorem assignmentsShown (plan : Plan) :
    (Text.lines plan.text).filterMap assignmentShown? = plan.assignments.map Assignment.text := by
  have shown (entry : PageReference × Nat) : assignmentShown? (line plan.turns entry) =
      (plan.turns.get? entry.2).map fun turn => (Assignment.ofPage entry.2 turn).text := by
    obtain ⟨reference, position⟩ := entry
    simp only [assignmentShown?, words_line]
    cases plan.turns.get? position with
    | none => rfl
    | some turn => simp [degreesShown?_text, Assignment.ofPage]
  have positions : List.range plan.pages.length = plan.pages.zipIdx.map Prod.snd := by
    rw [List.zipIdx_map_snd, List.range_eq_range']
  rw [plan.lines_text, lines, List.filterMap_map, assignments, positions]
  simp only [List.filterMap_map, List.map_filterMap, Function.comp_def, shown, Option.map_map]

end Plan

namespace Assignment

theorem written_ofPage (position : Nat) (turn : Turn) :
    (ofPage position turn).Written (ofPage position turn).text :=
  .mk (PageList.written_single (position + 1)) (Numeral.denotes_write turn.degrees)

theorem inBounds_ofPage {position count : Nat} (inside : position < count) (turn : Turn) :
    (ofPage position turn).InBounds count :=
  List.forall_mem_singleton.2 (PageItem.inBounds_single inside)

theorem parse_ofPage {position count : Nat} (inside : position < count)
    (word : count < Numeral.limit) (turn : Turn) :
    parse (ofPage position turn).text = .ok (ofPage position turn) :=
  parse_eq_ok_iff.2 ⟨written_ofPage position turn, fun item member =>
    PageItem.fits_of_inBounds (inBounds_ofPage inside turn item member) word⟩

/-- Assignments to one page each say of a page what is assigned to it. -/
theorem lastTurn?_ofPage (turns : TurnMap) (count page : Nat) :
    lastTurn? ((List.range count).filterMap fun position =>
      (turns.get? position).map (ofPage position)) (page + 1) =
        if page < count then turns.get? page else none := by
  induction count with
  | zero => rfl
  | succ count ih =>
    have alone : lastTurn? ([count].filterMap fun position =>
        (turns.get? position).map (ofPage position)) (page + 1) =
          if page = count then turns.get? page else none := by
      by_cases here : page = count <;> cases found : turns.get? count <;>
        simp [found, here, lastTurn?, Covers, ofPage, PageItem.Covers]
    rw [List.range_succ, List.filterMap_append, lastTurn?_append, ih, alone]
    by_cases here : page = count
    · simp [here]
    · have same : page < count + 1 ↔ page < count := by omega
      simp [here, same]

end Assignment

theorem Plan.resolve_assignments {plan : Plan} (below : plan.turns.Below plan.pages.length)
    (word : plan.pages.length < Numeral.limit) :
    Rotation.resolve (plan.assignments.map Assignment.text) plan.pages.length =
      .ok plan.turns := by
  have each : ∀ assignment ∈ plan.assignments, ∃ position turn,
      position < plan.pages.length ∧ Assignment.ofPage position turn = assignment := by
    intro assignment member
    obtain ⟨position, listed, found⟩ := List.mem_filterMap.1 member
    obtain ⟨turn, _, same⟩ := Option.map_eq_some_iff.1 found
    exact ⟨position, turn, List.mem_range.1 listed, same⟩
  have last (page : Nat) :
      plan.turns.get? page = Assignment.lastTurn? plan.assignments (page + 1) := by
    rw [assignments, Assignment.lastTurn?_ofPage]
    split
    · rfl
    · rename_i beyond
      cases found : plan.turns.get? page with
      | none => rfl
      | some turn => exact absurd (below page turn found) beyond
  rw [Rotation.resolve, bind_eq_ok_iff]
  -- Without a turn no token is left, and tokens that name pages are never one for all of them.
  by_cases none : plan.assignments = []
  · refine ⟨.unset, by rw [none]; rfl, congrArg Except.ok (OrderedMap.ext fun page => ?_)⟩
    rw [last, none]
    rfl
  · refine ⟨.assignments plan.assignments, RotationSpec.parse_eq_ok_iff.2 (.inr (.inr
      ⟨by simpa using none, _, ?_, rfl⟩)), RotationSpec.resolve_assignments_eq_ok_iff.2 ⟨?_, last⟩⟩
    · apply List.forall₂_map_left_iff.2
      apply List.forall₂_same.2
      intro assignment member
      obtain ⟨position, turn, inside, rfl⟩ := each assignment member
      exact Assignment.parse_ofPage inside word turn
    · intro assignment member
      obtain ⟨position, turn, inside, rfl⟩ := each assignment member
      exact Assignment.inBounds_ofPage inside turn

theorem PageReference.selects_text {counts : List Nat} {reference : PageReference}
    (inside : reference.InRange counts) : Selector.Selects counts reference.text [reference] := by
  obtain ⟨count, found, below⟩ := inside
  have page : (PageItem.single (reference.page + 1)).Selects reference.document count
      [reference] := ⟨PageItem.inBounds_single below, [reference.page], .single, rfl⟩
  exact .listed (Numeral.denotes_write _) found (PageList.written_single _) (.cons page .nil)

/-- References that exist select themselves. -/
theorem Selection.resolve_texts {counts : List Nat} {pages : List PageReference}
    (words : ∀ count ∈ counts, count < Numeral.limit) (few : counts.length < Numeral.limit)
    (some : pages ≠ []) (inside : ∀ reference ∈ pages, reference.InRange counts) :
    resolve (pages.map PageReference.text) counts = .ok pages := by
  have each : (pages.map PageReference.text).mapM (fun token =>
      do (← Selector.parse token).resolve counts) = .ok (pages.map ([·])) := by
    apply mapM_eq_ok_iff.2
    apply List.forall₂_map_left_iff.2
    apply List.forall₂_map_right_iff.2
    apply List.forall₂_same.2
    intro reference member
    exact (Selector.selects_iff words few).2 (PageReference.selects_text (inside reference member))
  have whole : (pages.map ([·])).flatten = pages := List.flatMap_singleton' pages
  simp only [resolve, each, List.isEmpty_map, List.isEmpty_iff, some, if_false]
  exact congrArg Except.ok whole

/-- What is read off a plan as it is shown resolves to the plan, and references that are written
one behind the other resolve to themselves. All numbers of pages and documents are machine
words. -/
theorem shown_plan_replays [Assembler σ] {state : σ} {counts : List Nat}
    (counted : Pipeline.pageCounts state = .ok counts)
    (words : ∀ count ∈ counts, count < Numeral.limit) (few : counts.length < Numeral.limit) :
    (∀ selection rotation plan, Pipeline.plan selection rotation state = .ok plan →
      plan.pages ≠ [] → plan.pages.length < Numeral.limit →
      Selection.resolve ((Text.lines plan.text).filterMap Plan.selectorShown?) counts =
        .ok plan.pages ∧
      Rotation.resolve ((Text.lines plan.text).filterMap Plan.assignmentShown?)
        plan.pages.length = .ok plan.turns) ∧
    ∀ references : List PageReference, references ≠ [] →
      (∀ reference ∈ references, reference.InRange counts) →
      Selection.resolve (Text.words (Text.join ' ' (references.map PageReference.text))) counts =
        .ok references := by
  constructor
  · intro selection rotation plan planned some word
    obtain ⟨pages, chosen, rest⟩ := bind_eq_ok_iff.1 planned
    obtain ⟨turns, resolved, same⟩ := bind_eq_ok_iff.1 rest
    cases same
    have inside := Selection.inRange_resolve ((Pipeline.selected_eq_ok_iff counted).1 chosen)
    have below := Rotation.below_resolve (Pipeline.liftSpec_eq_ok_iff.1 resolved)
    rw [Plan.selectorsShown, Plan.assignmentsShown]
    exact ⟨Selection.resolve_texts words few some inside, Plan.resolve_assignments below word⟩
  · intro references some inside
    rw [Text.words_join (by decide), Selection.resolve_texts words few some inside]
    exact List.forall_mem_map.2 fun reference _ => reference.isWord_text

/-- Pages walked backwards, one of them on its side and one told to stay upright. -/
def backwardsPlan : Plan := ⟨[⟨1, 2⟩, ⟨1, 1⟩, ⟨0, 0⟩], .ofList [(0, .quarter), (1, .upright)]⟩

theorem backwards_plan_replays :
    Pipeline.plan ["2:3-2", "1:1"] ["1-2:90", "2:0"] ({ counts := [2, 3] } : Ledger) =
      .ok backwardsPlan ∧
    backwardsPlan.text = "   1  2:3  +90°\n   2  2:2  +0°\n   3  1:1\n" ∧
    Selection.resolve ((Text.lines backwardsPlan.text).filterMap Plan.selectorShown?) [2, 3] =
      .ok backwardsPlan.pages ∧
    Rotation.resolve ((Text.lines backwardsPlan.text).filterMap Plan.assignmentShown?) 3 =
      .ok backwardsPlan.turns := by
  have counted : Pipeline.pageCounts ({ counts := [2, 3] } : Ledger) = .ok [2, 3] := rfl
  have pages : Selection.resolve ["2:3-2", "1:1"] [2, 3] = .ok backwardsPlan.pages := by decide
  have turns : Rotation.resolve ["1-2:90", "2:0"] backwardsPlan.pages.length =
      .ok backwardsPlan.turns := rfl
  have planned : Pipeline.plan ["2:3-2", "1:1"] ["1-2:90", "2:0"] ({ counts := [2, 3] } : Ledger) =
      .ok backwardsPlan := by
    refine bind_eq_ok_iff.2 ⟨_, (Pipeline.selected_eq_ok_iff counted).2 pages, ?_⟩
    exact bind_eq_ok_iff.2 ⟨_, Pipeline.liftSpec_eq_ok_iff.2 turns, rfl⟩
  have replayed := (shown_plan_replays counted (by decide) (by decide)).1 _ _ _ planned (by decide)
    (by decide)
  exact ⟨planned, by decide, replayed⟩

end PdfAssembly
