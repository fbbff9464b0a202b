import PdfAssembly.Proofs.Bounds
import PdfAssembly.Proofs.Grammar

/-! What a rotation specification means, told by the form of its tokens alone, and that resolving
it gives just this. Of several assignments that cover a page the last one counts. -/
namespace PdfAssembly

/-- The last separator is the one behind which there is no other. -/
theorem Text.splitLast?_eq_some_iff {separator : Char} {text before after : String} :
    splitLast? separator text = some (before, after) ↔
      separator ∉ after.toList ∧ join separator [before, after] = text := by
  have joined : join separator [before, after] = text ↔
      text.toList.reverse = after.toList.reverse ++ separator :: before.toList.reverse := by
    rw [← String.toList_inj, join, String.toList_ofList, ← List.reverse_inj]
    simp [glue, eq_comm]
  rw [joined, splitLast?]
  constructor
  · intro cut
    split at cut
    · cases cut
    · rename_i c rest found
      cases cut
      have whole := List.takeWhile_append_dropWhile (p := (· != separator))
        (l := text.toList.reverse)
      have cutAt := List.head?_dropWhile_not (· != separator) text.toList.reverse
      simp only [found, List.head?_cons, bne_eq_false_iff_eq] at cutAt
      rw [found, cutAt] at whole
      refine ⟨?_, by simpa using whole.symm⟩
      rw [String.toList_ofList, List.mem_reverse]
      intro inside
      simpa using List.all_eq_true.1 List.all_takeWhile separator inside
  · rintro ⟨free, backwards⟩
    have other : ∀ c ∈ after.toList.reverse, (c != separator) = true := by
      intro c inside
      have apart : c ≠ separator := fun same => free (same ▸ List.mem_reverse.1 inside)
      simpa using apart
    simp [backwards, List.dropWhile_append_of_pos other, List.takeWhile_append_of_pos other]

namespace PageItem

/-- The number lies between the ends of the item, in whichever order these stand. -/
def Covers : PageItem → Nat → Prop
  | single page, n => n = page
  | range first last, n => min first last ≤ n ∧ n ≤ max first last

instance : (item : PageItem) → (n : Nat) → Decidable (item.Covers n)
  | single page, n => inferInstanceAs (Decidable (n = page))
  | range first last, n => inferInstanceAs (Decidable (min first last ≤ n ∧ n ≤ max first last))

theorem mem_indices_iff {item : PageItem} {count : Nat} (inside : item.InBounds count)
    {page : Nat} : page ∈ item.indices ↔ item.Covers (page + 1) := by
  cases item with
  | single n =>
    have low := (inside n (by simp [ends])).1
    simp only [indices, Covers, List.mem_singleton]
    omega
  | range first last =>
    have low := (inside first (by simp [ends])).1
    have high := (inside last (by simp [ends])).1
    simp only [indices, Covers]
    split
    · rw [List.mem_reverse, List.mem_range'_1]
      omega
    · rw [List.mem_range'_1]
      omega

theorem mapM_expand?_eq_some_iff {items : List PageItem} {count : Nat}
    {parts : List (List Nat)} : items.mapM (·.expand? count) = some parts ↔
      (∀ item ∈ items, item.InBounds count) ∧ items.map indices = parts := by
  induction items generalizing parts with
  | nil => simp [eq_comm]
  | cons item rest ih =>
    simp only [List.mapM_cons, Option.bind_eq_bind, Option.bind_eq_some_iff, expand?_eq_some_iff,
      ih, List.forall_mem_cons, List.map_cons]
    constructor
    · rintro ⟨_, ⟨here, rfl⟩, _, ⟨later, rfl⟩, same⟩
      cases same
      exact ⟨⟨here, later⟩, rfl⟩
    · rintro ⟨⟨here, later⟩, rfl⟩
      exact ⟨_, ⟨here, rfl⟩, _, ⟨later, rfl⟩, rfl⟩

end PageItem

theorem Turn.parse_eq_ok_iff {numeral : String} {turn : Turn} :
    Turn.parse numeral = .ok turn ↔ Numeral.Denotes numeral turn.degrees := by
  have some_iff : (Numeral.read? numeral).bind Turn.ofDegrees? = some turn ↔
      Numeral.Denotes numeral turn.degrees := by
    rw [Option.bind_eq_some_iff]
    constructor
    · rintro ⟨n, read, found⟩
      rw [Turn.degrees_of_ofDegrees? found]
      exact (Numeral.read?_eq_some_iff_denotes.1 read).1
    · intro denotes
      have fits : turn.degrees < Numeral.limit := by cases turn <;> decide
      exact ⟨_, Numeral.read?_eq_some_iff_denotes.2 ⟨denotes, fits⟩, Turn.ofDegrees?_degrees turn⟩
  rw [← some_iff, Turn.parse]
  cases (Numeral.read? numeral).bind Turn.ofDegrees? <;> simp

namespace Assignment

inductive Written : Assignment → String → Prop
  | mk {list degrees : String} {turn : Turn} : PageList.Written pairs list →
      Numeral.Denotes degrees turn.degrees →
      Written ⟨Text.join ':' [list, degrees], pairs.map (·.2), turn⟩ (Text.join ':' [list, degrees])

def Covers (assignment : Assignment) (n : Nat) : Prop := ∃ item ∈ assignment.items, item.Covers n

instance (assignment : Assignment) (n : Nat) : Decidable (assignment.Covers n) :=
  inferInstanceAs (Decidable (∃ item ∈ assignment.items, item.Covers n))

def InBounds (assignment : Assignment) (count : Nat) : Prop :=
  ∀ item ∈ assignment.items, item.InBounds count

instance (assignment : Assignment) (count : Nat) : Decidable (assignment.InBounds count) :=
  inferInstanceAs (Decidable (∀ item ∈ assignment.items, item.InBounds count))

def lastTurn? (assignments : List Assignment) (n : Nat) : Option Turn :=
  (assignments.reverse.find? (·.Covers n)).map (·.turn)

theorem Written.colon_mem {assignment : Assignment} {token : String}
    (written : assignment.Written token) : ':' ∈ token.toList := by
  cases written
  simp [Text.join, Text.glue]

theorem parse_eq_ok_iff {token : String} {assignment : Assignment} :
    parse token = .ok assignment ↔
      assignment.Written token ∧ ∀ item ∈ assignment.items, item.Fits := by
  constructor
  · intro done
    simp only [parse] at done
    split at done
    · cases done
    rename_i list degrees cut
    obtain ⟨_, rfl⟩ := Text.splitLast?_eq_some_iff.1 cut
    obtain ⟨turn, read, rest⟩ := bind_eq_ok_iff.1 done
    have denotes := Turn.parse_eq_ok_iff.1 read
    split at rest
    · cases rest
    split at rest
    · rename_i pairs parsed
      cases rest
      obtain ⟨written, fits⟩ := PageList.parse_eq_ok_iff.1 parsed
      exact ⟨.mk written denotes, List.forall_mem_map.2 fits⟩
    · cases rest
    · cases rest
  · rintro ⟨written, fits⟩
    cases written with
    | @mk pairs list degrees turn written denotes =>
      have cut : Text.splitLast? ':' (Text.join ':' [list, degrees]) = some (list, degrees) :=
        Text.splitLast?_eq_some_iff.2 ⟨denotes.notMem (by decide), rfl⟩
      have parsed : PageList.parse list = .ok pairs :=
        PageList.parse_eq_ok_iff.2 ⟨written, List.forall_mem_map.1 fits⟩
      have some_text : list.isEmpty = false := by
        rw [Bool.eq_false_iff, ne_eq, String.isEmpty_iff]
        rintro rfl
        rw [PageList.parse_empty] at parsed
        cases parsed
      simp only [parse, cut, Turn.parse_eq_ok_iff.2 denotes, some_text, parsed]
      rfl

theorem resolve_eq_ok_iff {count : Nat} {assignment : Assignment} {part : List Nat × Turn} :
    assignment.resolve count = .ok part ↔ assignment.InBounds count ∧
      ((assignment.items.map PageItem.indices).flatten, assignment.turn) = part := by
  have expanded : ∀ parts, assignment.items.mapM (·.expand? count) = some parts ↔
      assignment.InBounds count ∧ assignment.items.map PageItem.indices = parts :=
    fun _ => PageItem.mapM_expand?_eq_some_iff
  simp only [resolve]
  cases found : assignment.items.mapM (·.expand? count) with
  | none =>
    have outside : ¬ assignment.InBounds count := by
      intro inside
      simpa [found] using (expanded _).2 ⟨inside, rfl⟩
    simp [outside]
  | some parts =>
    obtain ⟨inside, rfl⟩ := (expanded parts).1 found
    simp [inside]

theorem lastTurn?_append (before after : List Assignment) (n : Nat) :
    lastTurn? (before ++ after) n = (lastTurn? after n).or (lastTurn? before n) := by
  simp [lastTurn?, List.find?_append, Option.map_or]

theorem lastTurn?_cons (first : Assignment) (rest : List Assignment) (n : Nat) :
    lastTurn? (first :: rest) n =
      (lastTurn? rest n).or (if first.Covers n then some first.turn else none) := by
  rw [← List.singleton_append, lastTurn?_append]
  congr 1
  by_cases covered : first.Covers n <;> simp [lastTurn?, covered]

theorem mem_flatten_indices_iff {assignment : Assignment} {count : Nat}
    (inside : assignment.InBounds count) {page : Nat} :
    page ∈ (assignment.items.map PageItem.indices).flatten ↔ assignment.Covers (page + 1) := by
  rw [← List.flatMap, List.mem_flatMap]
  constructor
  · rintro ⟨item, member, present⟩
    exact ⟨item, member, (PageItem.mem_indices_iff (inside item member)).1 present⟩
  · rintro ⟨item, member, covers⟩
    exact ⟨item, member, (PageItem.mem_indices_iff (inside item member)).2 covers⟩

/-- Assignments made one after the other leave each page with what the last one says. -/
theorem get?_foldl_assign {assignments : List Assignment} {count : Nat}
    (inside : ∀ assignment ∈ assignments, assignment.InBounds count) (map : TurnMap) (page : Nat) :
    (assignments.foldl (fun map assignment => map.assign
        (assignment.items.map PageItem.indices).flatten assignment.turn) map).get? page =
      (lastTurn? assignments (page + 1)).or (map.get? page) := by
  induction assignments generalizing map with
  | nil => rfl
  | cons first rest ih =>
    obtain ⟨here, later⟩ := List.forall_mem_cons.1 inside
    rw [List.foldl_cons, ih later, TurnMap.get?_assign, lastTurn?_cons, Option.or_assoc]
    congr 1
    by_cases covered : first.Covers (page + 1)
    · rw [if_pos ((mem_flatten_indices_iff here).2 covered), if_pos covered, Option.some_or]
    · rw [if_neg (covered ∘ (mem_flatten_indices_iff here).1), if_neg covered, Option.none_or]

end Assignment

namespace RotationSpec

/-- A single numeral means every page; otherwise every token is an assignment. -/
theorem parse_eq_ok_iff {tokens : List String} {spec : RotationSpec} :
    parse tokens = .ok spec ↔
      tokens = [] ∧ unset = spec ∨
      (∃ token turn, tokens = [token] ∧ Numeral.Denotes token turn.degrees ∧
        everyPage turn = spec) ∨
      tokens ≠ [] ∧ ∃ list,
        List.Forall₂ (fun token assignment => Assignment.parse token = .ok assignment)
          tokens list ∧ assignments list = spec := by
  have several : (do return assignments (← tokens.mapM Assignment.parse)) = Except.ok spec ↔
      ∃ list, List.Forall₂ (fun token assignment => Assignment.parse token = .ok assignment)
        tokens list ∧ assignments list = spec := by
    simp [bind_eq_ok_iff, mapM_eq_ok_iff, pure, Except.pure]
  unfold parse
  dsimp only
  split
  · simp
  · rename_i token
    split
    · rename_i colon
      have noNumeral (turn : Turn) : ¬ Numeral.Denotes token turn.degrees :=
        fun denotes => denotes.notMem (by decide) colon
      rw [several]
      simp [noNumeral]
    · rename_i plain
      have noAssignment (assignment : Assignment) : Assignment.parse token ≠ .ok assignment :=
        fun done => plain (Assignment.parse_eq_ok_iff.1 done).1.colon_mem
      simp [bind_eq_ok_iff, Turn.parse_eq_ok_iff, List.forall₂_cons_left_iff, noAssignment, pure,
        Except.pure]
  · rename_i noToken oneToken
    have some : tokens ≠ [] := noToken
    have other (token : String) : tokens ≠ [token] := oneToken token
    rw [several]
    simp [some, other]

theorem resolve_everyPage_eq_ok_iff {turn : Turn} {count : Nat} {turns : TurnMap} :
    (everyPage turn).resolve count = .ok turns ↔
      ∀ page, turns.get? page = if page < count then some turn else none := by
  have made (page : Nat) : (TurnMap.assign ∅ (List.range count) turn).get? page =
      if page < count then some turn else none := by
    simp [TurnMap.get?_assign]
  simp only [resolve, Except.ok.injEq]
  constructor
  · rintro rfl
    exact made
  · intro same
    exact OrderedMap.ext fun page => (made page).trans (same page).symm

theorem resolve_assignments_eq_ok_iff {list : List Assignment} {count : Nat} {turns : TurnMap} :
    (assignments list).resolve count = .ok turns ↔
      (∀ assignment ∈ list, assignment.InBounds count) ∧
        ∀ page, turns.get? page = Assignment.lastTurn? list (page + 1) := by
  have parts (resolved : List (List Nat × Turn)) :
      list.mapM (Assignment.resolve count) = .ok resolved ↔
        (∀ assignment ∈ list, assignment.InBounds count) ∧ list.map (fun assignment =>
          ((assignment.items.map PageItem.indices).flatten, assignment.turn)) = resolved := by
    simp only [mapM_eq_ok_iff, Assignment.resolve_eq_ok_iff, List.forall₂_and_left]
    rw [← List.forall₂_map_left_iff, List.forall₂_eq_eq_eq]
  simp only [resolve, bind_eq_ok_iff, parts]
  constructor
  · rintro ⟨_, ⟨inside, rfl⟩, same⟩
    cases same
    refine ⟨inside, fun page => ?_⟩
    rw [List.foldl_map, Assignment.get?_foldl_assign inside, OrderedMap.get?_empty, Option.or_none]
  · rintro ⟨inside, same⟩
    refine ⟨_, ⟨inside, rfl⟩, congrArg Except.ok (OrderedMap.ext fun page => ?_)⟩
    rw [List.foldl_map, Assignment.get?_foldl_assign inside, OrderedMap.get?_empty, Option.or_none,
      same page]

end RotationSpec

/-- A rotation specification resolves to a map of turns exactly if that is what it means: nothing,
one turn for every page, or for each page the turn of the last assignment that covers it. The
number of pages is a machine word; the numerals may be of any length. -/
theorem rotation_resolves_iff {tokens : List String} {count : Nat} {turns : TurnMap}
    (word : count < Numeral.limit) :
    (Rotation.resolve tokens count = .ok turns ↔
      tokens = [] ∧ turns = ∅ ∨
      (∃ token turn, tokens = [token] ∧ Numeral.Denotes token turn.degrees ∧
        ∀ page, turns.get? page = if page < count then some turn else none) ∨
      tokens ≠ [] ∧ ∃ assignments,
        List.Forall₂ (fun token assignment => assignment.Written token) tokens assignments ∧
        (∀ assignment ∈ assignments, assignment.InBounds count) ∧
        ∀ page, turns.get? page = Assignment.lastTurn? assignments (page + 1)) ∧
    (Rotation.resolve tokens count = .ok turns → turns.Below count) := by
  refine ⟨?_, Rotation.below_resolve⟩
  rw [Rotation.resolve, bind_eq_ok_iff]
  constructor
  · rintro ⟨spec, parsed, resolved⟩
    rcases RotationSpec.parse_eq_ok_iff.1 parsed with
      ⟨none, rfl⟩ | ⟨token, turn, one, denotes, rfl⟩ | ⟨some, list, each, rfl⟩
    · cases resolved
      exact .inl ⟨none, rfl⟩
    · exact .inr (.inl ⟨token, turn, one, denotes,
        RotationSpec.resolve_everyPage_eq_ok_iff.1 resolved⟩)
    · obtain ⟨inside, last⟩ := RotationSpec.resolve_assignments_eq_ok_iff.1 resolved
      refine .inr (.inr ⟨some, list, ?_, inside, last⟩)
      exact each.imp fun _ _ done => (Assignment.parse_eq_ok_iff.1 done).1
  · rintro (⟨rfl, rfl⟩ | ⟨token, turn, rfl, denotes, all⟩ | ⟨some, list, each, inside, last⟩)
    · exact ⟨.unset, rfl, rfl⟩
    · exact ⟨.everyPage turn,
        RotationSpec.parse_eq_ok_iff.2 (.inr (.inl ⟨token, turn, rfl, denotes, rfl⟩)),
        RotationSpec.resolve_everyPage_eq_ok_iff.2 all⟩
    · refine ⟨.assignments list, RotationSpec.parse_eq_ok_iff.2 (.inr (.inr
        ⟨some, list, ?_, rfl⟩)), RotationSpec.resolve_assignments_eq_ok_iff.2 ⟨inside, last⟩⟩
      have both := (List.forall₂_and_left list tokens).2 ⟨inside, each.flip⟩
      exact both.flip.imp fun _ _ ⟨bounded, written⟩ => Assignment.parse_eq_ok_iff.2
        ⟨written, fun item member => PageItem.fits_of_inBounds (bounded item member) word⟩

/-- The second page is turned by the later assignment, and a range may be walked backwards. -/
theorem rotation_last_counts : Rotation.resolve ["3-1:90", "02:180"] 4 =
    .ok (.ofList [(0, .quarter), (1, .half), (2, .quarter)]) := by
  have range : PageList.Written [("3-1", .range 3 1)] "3-1" := by
    have wording : Text.join '-' ["3", "1"] = "3-1" := by decide
    refine ⟨by simp, List.forall_mem_singleton.2 (wording ▸ .range ?_ ?_), by decide⟩
    · exact ⟨by decide, by decide⟩
    · exact ⟨by decide, by decide⟩
  have page : PageList.Written [("02", .single 2)] "02" :=
    ⟨by simp, List.forall_mem_singleton.2 (.single ⟨by decide, by decide⟩), by decide⟩
  have quarter : Assignment.Written ⟨"3-1:90", [.range 3 1], .quarter⟩ "3-1:90" := by
    have wording : Text.join ':' ["3-1", "90"] = "3-1:90" := by decide
    exact wording ▸ .mk range ⟨by decide, by decide⟩
  have half : Assignment.Written ⟨"02:180", [.single 2], .half⟩ "02:180" := by
    have wording : Text.join ':' ["02", "180"] = "02:180" := by decide
    exact wording ▸ .mk page ⟨by decide, by decide⟩
  refine (rotation_resolves_iff (by decide)).1.2 (.inr (.inr ⟨by simp, _,
    .cons quarter (.cons half .nil), by decide, fun page => ?_⟩))
  match page with
  | 0 | 1 | 2 => rfl
  | page + 3 =>
    refine (rfl : _ = none).trans ?_
    simp [Assignment.lastTurn?, Assignment.Covers, PageItem.Covers]

end PdfAssembly
