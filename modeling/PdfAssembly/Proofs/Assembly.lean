import PdfAssembly.Proofs.History
import PdfAssembly.Proofs.Results

/-! Assembling is appending: a list of references is either refused as a whole, or each of them is
answered by appending the page that it names, in order. -/
namespace PdfAssembly

open Pdf

def PageReference.Names (sources : List Source) (reference : PageReference) (source : Source)
    (page : Page) : Prop :=
  sources[reference.document]? = some source ∧ source.pages[reference.page]? = some page

structure Appending.Answers (sources : List Source) (reference : PageReference)
    (call : Appending) : Prop where
  document : call.document = reference.document
  names : reference.Names sources call.source call.page

namespace Store

def assembleAll : List (List PageReference) → Store → Except Failure Store
  | [], store => .ok store
  | references :: later, store =>
    match store.assemble references with
    | (.error failure, _) => .error failure
    | (.ok _, store) => assembleAll later store

theorem locate_eq_ok_iff {store : Store} {reference : PageReference} {page : Page} :
    store.locate reference = .ok page ↔
      ∃ source, reference.Names (store.inputs.map (·.source)) source page := by
  simp only [locate, PageReference.Names]
  cases document : store.inputs[reference.document]? with
  | none => simp [document]
  | some input =>
    cases found : input.source.pages[reference.page]? with
    | none => simp [document, found]
    | some other => simp [document, found]

end Store

variable {start store : Store} {history : List Appending}

def Store.sources (store : Store) : List Source := store.inputs.map (·.source)

theorem Store.exists_input {reference : PageReference} {source : Source} {page : Page}
    (names : reference.Names store.sources source page) :
    ∃ input, store.inputs[reference.document]? = some input ∧ input.source = source :=
  Option.map_eq_some_iff.1 ((List.getElem?_map ..).symm.trans names.1)

/-- Appending located pages one after the other answers their references in order. -/
theorem Assembled.fold (assembled : Assembled start history store)
    {references : List PageReference} {pages : List Page}
    (located : List.Forall₂ (fun reference page =>
      ∃ source, reference.Names start.sources source page) references pages) :
    ∃ later, Assembled start (history ++ later)
        ((references.zip pages).foldl
          (fun store (reference, page) => store.appendPage reference.document page) store) ∧
      List.Forall₂ (Appending.Answers start.sources) references later := by
  induction located generalizing history store with
  | nil => exact ⟨[], by simpa using assembled, .nil⟩
  | cons named _ ih =>
    rename_i reference page references pages _
    obtain ⟨source, named⟩ := named
    rw [Store.sources, ← assembled.sources] at named
    obtain ⟨input, found, rfl⟩ := Store.exists_input named
    let call : Appending := ⟨store, reference.document, input, page⟩
    have valid : call.Valid := ⟨found, List.mem_of_getElem? named.2⟩
    have answers : call.Answers start.sources reference := by
      rw [Store.sources, ← assembled.sources]
      exact ⟨rfl, named⟩
    have next : Assembled start (history ++ [call]) call.result := .append assembled valid
    obtain ⟨later, rest, others⟩ := ih next
    rw [List.append_assoc] at rest
    exact ⟨call :: later, rest, .cons answers others⟩

/-- A list of references that is refused changes nothing. -/
theorem Store.assemble_error {references : List PageReference} {failure : Failure}
    {final : Store} (refused : store.assemble references = (.error failure, final)) :
    final = store := by
  simp only [Store.assemble] at refused
  split at refused <;> cases refused
  rfl

theorem Assembled.assemble (assembled : Assembled start history store)
    {references : List PageReference} {count : Nat} {final : Store}
    (done : store.assemble references = (.ok count, final)) :
    ∃ later, Assembled start (history ++ later) final ∧
      List.Forall₂ (Appending.Answers start.sources) references later ∧
      count = final.output.pages.length := by
  simp only [Store.assemble] at done
  split at done
  · cases done
  · rename_i pages located
    have named := mapM_eq_ok_iff.1 located
    simp only [Store.locate_eq_ok_iff, assembled.sources] at named
    obtain ⟨later, rest, answers⟩ := assembled.fold named
    cases done
    exact ⟨later, rest, answers, rfl⟩

theorem Assembled.assembleAll (assembled : Assembled start history store)
    {batches : List (List PageReference)} {final : Store}
    (done : Store.assembleAll batches store = .ok final) :
    ∃ later, Assembled start (history ++ later) final ∧
      List.Forall₂ (Appending.Answers start.sources) batches.flatten later := by
  induction batches generalizing history store with
  | nil =>
    cases done
    exact ⟨[], by simpa using assembled, .nil⟩
  | cons references batches ih =>
    simp only [Store.assembleAll] at done
    split at done
    · cases done
    · rename_i step
      obtain ⟨first, middle, answers, _⟩ := assembled.assemble step
      obtain ⟨later, last, others⟩ := ih middle done
      refine ⟨first ++ later, by simpa using last, ?_⟩
      exact List.rel_append answers others

@[simp] theorem Store.sources_ofSources (sources : List Source) (settings : Settings) :
    (Store.ofSources sources settings).sources = sources := by
  simp [Store.sources, Store.ofSources, Function.comp_def]

theorem Store.pages_ofSources (sources : List Source) (settings : Settings) :
    (Store.ofSources sources settings).output.pages = [] := rfl

theorem Assembled.pages (assembled : Assembled start history store) :
    store.output.pages = start.output.pages ++ history.map Appending.target := by
  induction assembled with
  | start => simp
  | append _ valid ih => rw [valid.pages_result, ih, List.map_append, List.append_assoc]; rfl

theorem Assembled.length_pages (assembled : Assembled start history store)
    {sources : List Source} {references : List PageReference}
    (answers : List.Forall₂ (Appending.Answers sources) references history) :
    store.output.pages.length = start.output.pages.length + references.length := by
  rw [assembled.pages, List.length_append, List.length_map, answers.length_eq]

end PdfAssembly
