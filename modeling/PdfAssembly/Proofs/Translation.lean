import PdfAssembly.Pdf.Object

/-! What it is for one object to be another one in different words: the same values, orders,
keys and stream data, with each reference replaced by something that it may become. -/
namespace PdfAssembly.Pdf

def Object.isPlain : Object → Bool
  | .reference _ | .array _ | .dictionary _ | .stream _ _ => false
  | _ => true

mutual

inductive Translates (means : ObjectId → Object → Prop) : Object → Object → Prop
  | plain : object.isPlain = true → Translates means object object
  | reference {id : ObjectId} : means id object → Translates means (.reference id) object
  | array : TranslatesItems means items copies → Translates means (.array items) (.array copies)
  | dictionary : TranslatesEntries means entries copies →
      Translates means (.dictionary entries) (.dictionary copies)
  | stream : TranslatesEntries means entries copies →
      Translates means (.stream entries data) (.stream copies data)

inductive TranslatesItems (means : ObjectId → Object → Prop) : List Object → List Object → Prop
  | nil : TranslatesItems means [] []
  | cons : Translates means item copy → TranslatesItems means items copies →
      TranslatesItems means (item :: items) (copy :: copies)

/-- Entries keep their keys and their order. -/
inductive TranslatesEntries (means : ObjectId → Object → Prop) :
    List (Bytes × Object) → List (Bytes × Object) → Prop
  | nil : TranslatesEntries means [] []
  | cons : Translates means value copy → TranslatesEntries means entries copies →
      TranslatesEntries means ((key, value) :: entries) ((key, copy) :: copies)

end

namespace Object

variable {means : ObjectId → Object → Prop} {meaning : ObjectId → Object}

mutual

/-- Replacing references translates as soon as each reference in the object is replaced by
something that it means. -/
theorem translates_replace (object : Object)
    (meant : ∀ id ∈ object.references, means id (meaning id)) :
    Translates means object (object.replace meaning) := by
  cases object with
  | reference id =>
    apply Translates.reference
    exact meant id (by simp [references])
  | array items => exact .array (translates_replaceItems items meant)
  | dictionary entries => exact .dictionary (translates_replaceEntries entries meant)
  | stream entries data => exact .stream (translates_replaceEntries entries meant)
  | _ => exact .plain rfl

theorem translates_replaceItems (items : List Object)
    (meant : ∀ id ∈ itemReferences items, means id (meaning id)) :
    TranslatesItems means items (replaceItems meaning items) := by
  cases items with
  | nil => exact .nil
  | cons item rest =>
    have first := translates_replace item fun id member => meant id (List.mem_append_left _ member)
    have others := translates_replaceItems rest fun id member =>
      meant id (List.mem_append_right _ member)
    exact .cons first others

theorem translates_replaceEntries (entries : List (Bytes × Object))
    (meant : ∀ id ∈ entryReferences entries, means id (meaning id)) :
    TranslatesEntries means entries (replaceEntries meaning entries) := by
  cases entries with
  | nil => exact .nil
  | cons entry rest =>
    obtain ⟨key, value⟩ := entry
    have first := translates_replace value fun id member => meant id (List.mem_append_left _ member)
    have others := translates_replaceEntries rest fun id member =>
      meant id (List.mem_append_right _ member)
    exact .cons first others

end

mutual

/-- What the copy of an object refers to stems from what the object refers to. -/
theorem mem_references_replace (object : Object) (target : ObjectId) :
    target ∈ (object.replace meaning).references ↔
      ∃ id ∈ object.references, target ∈ (meaning id).references := by
  cases object with
  | array items => exact mem_itemReferences_replaceItems items target
  | dictionary entries => exact mem_entryReferences_replaceEntries entries target
  | stream entries data => exact mem_entryReferences_replaceEntries entries target
  | _ => simp [references, replace]

theorem mem_itemReferences_replaceItems (items : List Object) (target : ObjectId) :
    target ∈ itemReferences (replaceItems meaning items) ↔
      ∃ id ∈ itemReferences items, target ∈ (meaning id).references := by
  cases items with
  | nil => simp [itemReferences, replaceItems]
  | cons item rest =>
    simp only [replaceItems, itemReferences, List.mem_append, or_and_right, exists_or]
    rw [mem_references_replace item target, mem_itemReferences_replaceItems rest target]

theorem mem_entryReferences_replaceEntries (entries : List (Bytes × Object)) (target : ObjectId) :
    target ∈ entryReferences (replaceEntries meaning entries) ↔
      ∃ id ∈ entryReferences entries, target ∈ (meaning id).references := by
  cases entries with
  | nil => simp [entryReferences, replaceEntries]
  | cons entry rest =>
    obtain ⟨key, value⟩ := entry
    simp only [replaceEntries, entryReferences, List.mem_append, or_and_right, exists_or]
    rw [mem_references_replace value target, mem_entryReferences_replaceEntries rest target]

end

end Object

end PdfAssembly.Pdf
