import PdfAssembly.Proofs.Assembly
import PdfAssembly.Proofs.Output

/-! Turning pages of an output: every page gets the turns that are meant for it, one on top of the
other, and nothing else changes. -/
namespace PdfAssembly

open Pdf

def turnsAt (position : Nat) (turns : List (Nat × Turn)) : List Turn :=
  (turns.filter (·.1 = position)).map (·.2)

@[simp] theorem turnsAt_cons_self (position : Nat) (turn : Turn) (turns : List (Nat × Turn)) :
    turnsAt position ((position, turn) :: turns) = turn :: turnsAt position turns := by
  simp [turnsAt]

theorem turnsAt_cons_ne {position other : Nat} (apart : other ≠ position) (turn : Turn)
    (turns : List (Nat × Turn)) :
    turnsAt position ((other, turn) :: turns) = turnsAt position turns := by
  simp [turnsAt, apart]

namespace Pdf.Output

/-- What an output has in common with the one before some of its pages were turned. -/
structure Turned (turns : List (Nat × Turn)) (before after : Output) : Prop where
  rest : after = { before with table := after.table }
  page : ∀ position id entries, before.pages[position]? = some id →
    before.table.get? id = some (.dictionary entries) →
    after.table.get? id =
      some (.dictionary ((turnsAt position turns).foldl turnedPage entries))
  other : ∀ id, id ∉ before.pages → after.table.get? id = before.table.get? id

variable {output before middle after : Output}

theorem turned_nil (output : Output) : Turned [] output output where
  rest := rfl
  page := by
    intro position id entries _ found
    exact found
  other := fun _ _ => rfl

/-- Pages at different positions are different objects. -/
theorem ne_of_positions {position other : Nat} {id page : ObjectId}
    (distinct : output.pages.Nodup) (place : output.pages[position]? = some id)
    (there : output.pages[other]? = some page) (apart : other ≠ position) : id ≠ page := by
  rintro rfl
  have inside := (List.getElem?_eq_some_iff.1 place).1
  exact apart (List.getElem?_inj inside distinct |>.1 (place.trans there.symm)).symm

/-- One turn comes on top of the others. -/
theorem Turned.cons {position : Nat} {id : ObjectId} {turn : Turn} {entries : Dictionary}
    {turns : List (Nat × Turn)} (distinct : output.pages.Nodup)
    (place : output.pages[position]? = some id)
    (found : output.table.get? id = some (.dictionary entries))
    (later : Turned turns { output with
      table := output.table.insert id (.dictionary (turnedPage entries turn)) } after) :
    Turned ((position, turn) :: turns) output after where
  rest := later.rest
  page := by
    intro other page original at_ present
    by_cases same : position = other
    · subst same
      rw [place] at at_
      cases at_
      rw [found] at present
      cases present
      rw [turnsAt_cons_self]
      exact later.page position id _ place (OrderedMap.get?_insert_self ..)
    · rw [turnsAt_cons_ne same]
      apply later.page other page original at_
      have apart := ne_of_positions distinct place at_ (Ne.symm same)
      exact (OrderedMap.get?_insert_ne _ _ apart).trans present
  other := by
    intro page noPage
    rw [later.other page noPage]
    apply OrderedMap.get?_insert_ne
    rintro rfl
    exact noPage (List.mem_of_getElem? place)

/-- Turns of pages that exist are all made. -/
theorem Sound.turnPages (sound : output.Sound) {turns : List (Nat × Turn)}
    (inside : ∀ pair ∈ turns, pair.1 < output.pages.length) :
    ∃ after, Store.turnPages turns output = (.ok (), after) ∧ Turned turns output after := by
  induction turns generalizing output with
  | nil => exact ⟨output, rfl, turned_nil output⟩
  | cons pair turns ih =>
    obtain ⟨position, turn⟩ := pair
    have place := List.getElem?_eq_getElem (inside (position, turn) (by simp))
    obtain ⟨entries, found, step, next⟩ := sound.turnPage place turn
    obtain ⟨after, rest, turned⟩ := ih next fun other member =>
      inside other (List.mem_cons_of_mem _ member)
    refine ⟨after, ?_, turned.cons sound.distinct place found⟩
    rw [Store.turnPages, step]
    exact rest

/-- Turns that are refused leave pages that were turned before them. -/
theorem Sound.after_turnPages (sound : output.Sound) (turns : List (Nat × Turn)) :
    (Store.turnPages turns output).2.Sound := by
  induction turns generalizing output with
  | nil => exact sound
  | cons pair turns ih =>
    obtain ⟨position, turn⟩ := pair
    cases place : output.pages[position]? with
    | none =>
      have step : output.turnPage position turn =
          .error (.pdf (.outputPageNotFound position output.pages.length)) := by
        simp [Output.turnPage, place]
      simpa only [Store.turnPages, step] using sound
    | some id =>
      obtain ⟨_, _, step, next⟩ := sound.turnPage place turn
      simpa only [Store.turnPages, step] using ih next

end Pdf.Output

namespace Assembled

variable {start store : Store} {history : List Appending}

/-- Pages of loaded documents keep an output sound. -/
theorem sound (assembled : Assembled start history store) (before : start.output.Sound)
    (loaded : ∀ source ∈ start.sources, source.Loaded) : store.output.Sound := by
  induction assembled with
  | start => exact before
  | append earlier valid ih =>
    rename_i call
    apply valid.sound _ ih
    have member : call.source ∈ start.sources := by
      rw [Store.sources, ← earlier.sources]
      exact List.mem_map.2 ⟨call.input, List.mem_of_getElem? valid.input, rfl⟩
    exact (loaded _ member).read valid.page

end Assembled

namespace Store

/-- The stores that loaded documents lead to, with operations that succeed and ones that fail. -/
inductive Reached : Store → Prop
  | fresh (sources settings) : (∀ source ∈ sources, source.Loaded) →
      Reached (ofSources sources settings)
  | assemble (references) : Reached store → Reached (store.assemble references).2
  | applyTurns (turns) : Reached store → Reached (store.applyTurns turns).2
  | save (moment) : Reached store → Reached (store.save moment).2

theorem Reached.sound_loaded {store : Store} (reached : store.Reached) :
    store.output.Sound ∧ ∀ source ∈ store.sources, source.Loaded := by
  induction reached with
  | fresh sources settings loaded =>
    exact ⟨Output.sound_empty settings, by simpa using loaded⟩
  | @assemble store references _ ih =>
    cases done : store.assemble references with
    | mk result final =>
      cases result with
      | error failure => rwa [Store.assemble_error done]
      | ok count =>
        obtain ⟨later, assembled, _⟩ := Assembled.start.assemble done
        refine ⟨assembled.sound ih.1 ih.2, ?_⟩
        rw [Store.sources, assembled.sources]
        exact ih.2
  | applyTurns turns _ ih => exact ⟨ih.1.after_turnPages turns.entries, ih.2⟩
  | save moment _ ih => exact ⟨ih.1.save moment, ih.2⟩

theorem Reached.sound {store : Store} (reached : store.Reached) : store.output.Sound :=
  reached.sound_loaded.1

end Store

end PdfAssembly
