import PdfAssembly.Proofs.Bounds
import PdfAssembly.Proofs.Listing
import PdfAssembly.Proofs.Rotation

/-! Turns of several pages, in any order. Each page of an output has a dictionary of its own, so
that a turn changes one entry in one place, turns of one page add up and turns of different pages
can change places. -/
namespace PdfAssembly

open Pdf

namespace Turn

def plus (first second : Turn) : Turn :=
  (ofDegrees? ((first.degrees + second.degrees) % 360)).getD upright

theorem degrees_plus (first second : Turn) :
    (first.plus second).degrees = (first.degrees + second.degrees) % 360 := by
  cases first <;> cases second <;> rfl

end Turn

namespace Pdf.Dictionary

/-- Of two values put under one key the later one stays. -/
theorem set_set (key : Bytes) (value other : Object) (entries : Dictionary) :
    set key other (set key value entries) = set key other entries := by
  simp only [set]
  induction entries with
  | nil => simp [Entries.put]
  | cons entry rest ih =>
    obtain ⟨name, old⟩ := entry
    by_cases same : name = key <;> simp [Entries.put, same, ih]

end Pdf.Dictionary

namespace Pdf.Output

/-- Several turns of a page leave it like one turn by their sum. -/
theorem foldl_turnedPage (page : Dictionary) {turns : List Turn} (some_turn : turns ≠ []) :
    turns.foldl turnedPage page = Dictionary.set Name.rotate
      (.integer ((statedRotation page + (turns.map Turn.degrees).sum) % 360)) page := by
  induction turns generalizing page with
  | nil => exact absurd rfl some_turn
  | cons turn rest ih =>
    cases rest with
    | nil => simp [turnedPage]
    | cons next rest =>
      rw [List.foldl_cons, ih (turnedPage page turn) (by simp), statedRotation_turnedPage,
        turnedPage, Dictionary.set_set, List.map_cons (l := next :: rest), List.sum_cons,
        Int.natCast_add, Int.emod_add_emod, Int.add_assoc]

/-- Two lists of turns that do the same to a page: they are empty, or neither is and their degrees
make the same turn. -/
structure SameTurns (left right : List Turn) : Prop where
  none : left = [] ↔ right = []
  degrees : (left.map Turn.degrees).sum % 360 = (right.map Turn.degrees).sum % 360

theorem SameTurns.foldl {left right : List Turn} (same : SameTurns left right)
    (page : Dictionary) : left.foldl turnedPage page = right.foldl turnedPage page := by
  by_cases empty : left = []
  · rw [empty, same.none.1 empty]
  · have degrees := same.degrees
    rw [foldl_turnedPage page empty, foldl_turnedPage page (empty ∘ same.none.2)]
    congr 2
    omega

theorem sameTurns_of_perm {left right : List Turn} (perm : left.Perm right) :
    SameTurns left right where
  none := by
    constructor
    · rintro rfl
      exact perm.symm.eq_nil
    · rintro rfl
      exact perm.eq_nil
  degrees := by rw [(perm.map Turn.degrees).sum_nat]

variable {output : Output}

/-- What is done to each page decides what becomes of an output. -/
theorem Turned.unique (sound : output.Sound) {left right : List (Nat × Turn)}
    {one other : Output} (first : Turned left output one) (second : Turned right output other)
    (same : ∀ position, SameTurns (turnsAt position left) (turnsAt position right)) :
    one = other := by
  have tables : one.table = other.table := by
    apply OrderedMap.ext
    intro id
    by_cases page : id ∈ output.pages
    · obtain ⟨position, place⟩ := List.mem_iff_getElem?.1 page
      obtain ⟨entries, found, _⟩ := (sound.pages id page).2
      rw [first.page position id entries place found, second.page position id entries place found,
        (same position).foldl]
    · rw [first.other id page, second.other id page]
  rw [first.rest, second.rest, tables]

theorem Sound.turnPages_eq (sound : output.Sound) {left right : List (Nat × Turn)}
    (inside : ∀ pair ∈ left, pair.1 < output.pages.length)
    (among : ∀ pair ∈ right, pair.1 < output.pages.length)
    (same : ∀ position, SameTurns (turnsAt position left) (turnsAt position right)) :
    Store.turnPages left output = Store.turnPages right output := by
  obtain ⟨one, done, first⟩ := sound.turnPages inside
  obtain ⟨other, again, second⟩ := sound.turnPages among
  rw [done, again, first.unique sound second same]

/-- The order of turns does not matter, also where a page is turned several times. -/
theorem Sound.turnPages_perm (sound : output.Sound) {left right : List (Nat × Turn)}
    (inside : ∀ pair ∈ left, pair.1 < output.pages.length) (perm : right.Perm left) :
    Store.turnPages right output = Store.turnPages left output := by
  have among : ∀ pair ∈ right, pair.1 < output.pages.length :=
    fun pair member => inside pair (perm.mem_iff.1 member)
  apply sound.turnPages_eq among inside
  exact fun position => sameTurns_of_perm ((perm.filter _).map _)

theorem turnPages_singleton (output : Output) (position : Nat) (turn : Turn) (after : Output) :
    Store.turnPages [(position, turn)] output = (.ok (), after) ↔
      output.turnPage position turn = .ok after := by
  cases step : output.turnPage position turn <;> simp [Store.turnPages, step]

theorem turnPages_pair (output : Output) (position other : Nat) (first second : Turn)
    (after : Output) :
    Store.turnPages [(position, first), (other, second)] output = (.ok (), after) ↔
      (output.turnPage position first >>= (·.turnPage other second)) = .ok after := by
  cases step : output.turnPage position first with
  | error failure => simp [Store.turnPages, step, bind, Except.bind]
  | ok middle => simp [Store.turnPages, step, bind, Except.bind, ← turnPages_singleton]

/-- Two turns of one page are one turn of it. -/
theorem Sound.turnPage_plus (sound : output.Sound) {position : Nat}
    (inside : position < output.pages.length) (first second : Turn) :
    (output.turnPage position first >>= (·.turnPage position second)) =
      output.turnPage position (first.plus second) := by
  have twice : ∀ pair ∈ [(position, first), (position, second)],
      pair.1 < output.pages.length := by simp [inside]
  have once : ∀ pair ∈ [(position, first.plus second)], pair.1 < output.pages.length := by
    simp [inside]
  have same (other : Nat) : SameTurns (turnsAt other [(position, first), (position, second)])
      (turnsAt other [(position, first.plus second)]) := by
    by_cases here : position = other
    · constructor <;> simp [turnsAt, here, Turn.degrees_plus]
    · constructor <;> simp [turnsAt, here]
  obtain ⟨after, done, _⟩ := sound.turnPages twice
  have again := (sound.turnPages_eq twice once same).symm.trans done
  rw [(turnPages_pair ..).1 done, (turnPages_singleton ..).1 again]

/-- Two turns can change places. -/
theorem Sound.turnPage_comm (sound : output.Sound) {position other : Nat}
    (inside : position < output.pages.length) (among : other < output.pages.length)
    (first second : Turn) :
    (output.turnPage position first >>= (·.turnPage other second)) =
      (output.turnPage other second >>= (·.turnPage position first)) := by
  have both : ∀ pair ∈ [(position, first), (other, second)], pair.1 < output.pages.length := by
    simp [inside, among]
  obtain ⟨after, done, _⟩ := sound.turnPages both
  have again := (sound.turnPages_perm both (.swap ..)).trans done
  rw [(turnPages_pair ..).1 done, (turnPages_pair ..).1 again]

/-- What one turn changes: the rotation in the dictionary of the page at a position. -/
structure TurnedAt (position : Nat) (turn : Turn) (before after : Output) : Prop where
  rest : after = { before with table := after.table }
  entry : ∃ id page changed degrees, before.pages[position]? = some id ∧
    before.table.get? id = some (.dictionary page) ∧
    after.table.get? id = some (.dictionary changed) ∧
    Dictionary.Puts Name.rotate (.integer degrees) page changed ∧
    degrees = (statedRotation page + turn.degrees) % 360 ∧ 0 ≤ degrees ∧ degrees < 360
  objects : ∀ id, before.pages[position]? ≠ some id → after.table.get? id = before.table.get? id
  /-- No other page has this dictionary, even if it is a copy of the same page. -/
  pages : ∀ other, other ≠ position → after.page? other = before.page? other

theorem Sound.turnedAt (sound : output.Sound) {position : Nat}
    (inside : position < output.pages.length) (turn : Turn) :
    ∃ after, output.turnPage position turn = .ok after ∧ TurnedAt position turn output after := by
  have place := List.getElem?_eq_getElem inside
  obtain ⟨page, found, done, _⟩ := sound.turnPage place turn
  refine ⟨_, done, rfl, ⟨_, page, _, _, place, found, OrderedMap.get?_insert_self ..,
    Dictionary.puts_set .., rfl, by omega, by omega⟩, ?_, ?_⟩
  · intro id other
    apply OrderedMap.get?_insert_ne
    rintro rfl
    exact other place
  · intro other apart
    simp only [page?]
    cases there : output.pages[other]? with
    | none => rfl
    | some id =>
      have ne := ne_of_positions sound.distinct place there apart
      simp [OrderedMap.get?_insert_ne _ _ ne]

end Pdf.Output

/-- Whatever was done with a store of loaded documents before, a turn changes the rotation of one
page and nothing else; turns of one page add up, and turns can be made in any order, as can those of
a map, which all succeed where the pages exist. -/
theorem turns_act_independently {sources : List Source}
    (loaded : ∀ source ∈ sources, source.Loaded) (settings : Settings)
    (operations : List Operation) :
    let store := Store.performAll operations (Store.ofSources sources settings)
    let output := store.output
    (∀ position < output.pages.length, ∀ turn, ∃ after,
      output.turnPage position turn = .ok after ∧ Output.TurnedAt position turn output after) ∧
    (∀ position < output.pages.length, ∀ first second,
      (output.turnPage position first >>= (·.turnPage position second)) =
        output.turnPage position (first.plus second)) ∧
    (∀ position < output.pages.length, ∀ other < output.pages.length, ∀ first second,
      (output.turnPage position first >>= (·.turnPage other second)) =
        (output.turnPage other second >>= (·.turnPage position first))) ∧
    ∀ turns : TurnMap, TurnMap.Below output.pages.length turns → ∃ after,
      store.applyTurns turns = (.ok (), { store with output := after }) ∧
      ∀ order, order.Perm turns.entries → Store.turnPages order output = (.ok (), after) := by
  intro store output
  have loaded : ∀ source ∈ (Store.ofSources sources settings).sources, source.Loaded := by
    simpa using loaded
  obtain ⟨_, session, _⟩ := Session.ofSources sources settings operations
  have sound : output.Sound := session.sound (Output.sound_empty settings) loaded
  refine ⟨fun position inside turn => sound.turnedAt inside turn,
    fun position inside first second => sound.turnPage_plus inside first second,
    fun position inside other among first second => sound.turnPage_comm inside among first second,
    fun turns below => ?_⟩
  have inside : ∀ pair ∈ turns.entries, pair.1 < output.pages.length := by
    rintro ⟨position, turn⟩ member
    exact below position turn (OrderedMap.get?_eq_some_iff.2 member)
  obtain ⟨after, done, _⟩ := sound.turnPages inside
  refine ⟨after, ?_, fun order perm => (sound.turnPages_perm inside perm).trans done⟩
  simp only [Store.applyTurns]
  rw [done]

theorem length_pages_formEdits :
    (Store.performAll formEdits (Store.ofSources [form] {})).output.pages.length = 3 := by
  obtain ⟨history, session, answers⟩ := Session.ofSources [form] {} formEdits
  rw [session.pages, List.length_append, List.length_map, ← answers.length_eq]
  rfl

/-- Of three copies of one page, the second one was turned before. Two more turns of it are one
turn, and leave the first copy alone. -/
theorem form_copies_turn_apart :
    let output := (Store.performAll formEdits (Store.ofSources [form] {})).output
    ∃ after, (output.turnPage 1 .half >>= (·.turnPage 1 .threeQuarters)) = .ok after ∧
      output.turnPage 1 .quarter = .ok after ∧ after.page? 0 = output.page? 0 := by
  intro output
  obtain ⟨each, twice, _⟩ := turns_act_independently form_loaded {} formEdits
  have inside : 1 < output.pages.length := by
    rw [length_pages_formEdits]
    decide
  obtain ⟨after, done, turned⟩ := each 1 inside .quarter
  exact ⟨after, (twice 1 inside .half .threeQuarters).trans done, done, turned.pages 0 (by decide)⟩

end PdfAssembly
