import Mathlib.Data.List.Perm.Subperm
import PdfAssembly.Proofs.Repetition

/-! Copying a page in one descent, which copies every object as soon as it meets it. References may
lead anywhere, also back, yet the descent ends: whatever it follows gets its copy first, and so it
is never deeper than there are objects in the document. It leaves the output that a search for
all objects and their replacement afterwards describe. -/
namespace PdfAssembly

open Pdf

open scoped List

namespace OrderedMap

variable [Key κ]

theorem insertAll_append (map : OrderedMap κ α) (left right : List (κ × α)) :
    map.insertAll (left ++ right) = (map.insertAll left).insertAll right :=
  List.foldl_append

/-- Entries with keys of their own may come in any order. -/
theorem insertAll_perm (map : OrderedMap κ α) {entries others : List (κ × α)}
    (distinct : (entries.map (·.1)).Nodup) (same : entries.Perm others) :
    map.insertAll entries = map.insertAll others := by
  ext key : 1
  have keys := same.map (·.1)
  by_cases present : key ∈ entries.map (·.1)
  · obtain ⟨⟨_, value⟩, member, rfl⟩ := List.mem_map.1 present
    rw [get?_insertAll_of_mem map distinct member,
      get?_insertAll_of_mem map (keys.nodup_iff.1 distinct) (same.mem_iff.1 member)]
  · rw [get?_insertAll_of_notMem map present,
      get?_insertAll_of_notMem map (mt keys.mem_iff.2 present)]

end OrderedMap

namespace Pdf

/-- How far a descent has come: the copies handed out and the table that they are entered into. -/
structure Progress where
  copies : Copies
  table : Table

/-- A part of a descent. It fails where the descent would become too deep. -/
abbrev Descent := StateT Progress Option

theorem Descent.get_bind (next : Progress → Descent α) (progress : Progress) :
    (get >>= next) progress = next progress progress := rfl

theorem Descent.bind_eq {first : Descent α} {next : α → Descent β} {progress after : Progress}
    {result : α} (done : first progress = some (result, after)) :
    (first >>= next) progress = next result after := by
  change (first progress).bind _ = _
  rw [done]
  rfl

mutual

def copyObject (visit : ObjectId → Descent Object) : Object → Descent Object
  | .reference id => visit id
  | .array items => return .array (← copyItems visit items)
  | .dictionary entries => return .dictionary (← copyEntries visit entries)
  | .stream entries data => return .stream (← copyEntries visit entries) data
  | object => return object

def copyItems (visit : ObjectId → Descent Object) : List Object → Descent (List Object)
  | [] => return []
  | item :: rest => return (← copyObject visit item) :: (← copyItems visit rest)

def copyEntries (visit : ObjectId → Descent Object) :
    List (Bytes × Object) → Descent (List (Bytes × Object))
  | [] => return []
  | (key, value) :: rest =>
    return (key, ← copyObject visit value) :: (← copyEntries visit rest)

end

namespace CopyScope

/-- What a reference becomes. An object that has no copy yet is given the number of its copy before
the descent goes on from it, and its copy is entered when the descent comes back. -/
def copyReference (scope : CopyScope) (depth : Nat) (id : ObjectId) : Descent Object := do
  let progress ← get
  if id = scope.page.id then return .reference scope.target
  else if scope.source.isPage id then return .null
  else match scope.copy? progress.copies id, scope.source.table.resolve id with
    | some copy, _ => return .reference copy
    | none, none => return .null
    | none, some object =>
      if object.isPageTreeNode then return .null
      else match depth with
        | 0 => failure
        | depth + 1 => do
          let copy : ObjectId := ⟨progress.copies.next, 0⟩
          set { progress with copies := scope.register progress.copies id }
          let translation ← copyObject (copyReference scope depth) object
          modify fun progress => { progress with table := progress.table.insert copy translation }
          return .reference copy

variable {scope : CopyScope} {copies : Copies}

theorem copyReference_of_skipped {progress : Progress} {id : ObjectId} (depth : Nat)
    (skipped : scope.uncopied? progress.copies id = none) :
    scope.copyReference depth id progress = some (scope.meaning progress.copies id, progress) := by
  rw [copyReference.eq_def, Descent.get_bind, meaning]
  by_cases self : id = scope.page.id
  · rw [if_pos self, if_pos self]
    rfl
  rw [if_neg self, if_neg self]
  by_cases page : scope.source.isPage id
  · rw [if_pos page, if_pos page]
    rfl
  rw [if_neg page, if_neg page]
  cases copied : scope.copy? progress.copies id with
  | some copy => rfl
  | none =>
    cases resolved : scope.source.table.resolve id with
    | none => rfl
    | some object =>
      have node : object.isPageTreeNode = true := by
        simpa [uncopied?, self, page, copied, resolved] using skipped
      simp only [node, if_true]
      rfl

theorem ne_page_of_copyable (listed : scope.source.isPage scope.page.id = true) {id : ObjectId}
    {object : Object} (new : scope.source.Copyable id object) : id ≠ scope.page.id := by
  rintro rfl
  rw [new.1] at listed
  cases listed

theorem meaning_of_copyable (listed : scope.source.isPage scope.page.id = true) {id copy : ObjectId}
    {object : Object} (new : scope.source.Copyable id object)
    (copied : scope.copy? copies id = some copy) : scope.meaning copies id = .reference copy := by
  rw [meaning, if_neg (ne_page_of_copyable listed new), new.1, copied]
  rfl

theorem copyReference_of_new (listed : scope.source.isPage scope.page.id = true)
    {progress after : Progress} {id : ObjectId} {object translation : Object} (depth : Nat)
    (new : scope.source.Copyable id object) (fresh : scope.copy? progress.copies id = none)
    (done : copyObject (scope.copyReference depth) object
      { progress with copies := scope.register progress.copies id } = some (translation, after)) :
    scope.copyReference (depth + 1) id progress =
      some (.reference ⟨progress.copies.next, 0⟩,
        { after with table := after.table.insert ⟨progress.copies.next, 0⟩ translation }) := by
  have other := ne_page_of_copyable listed new
  obtain ⟨unlisted, resolved, node⟩ := new
  rw [copyReference.eq_def, Descent.get_bind, if_neg other, if_neg (by simp [unlisted])]
  simp only [fresh, resolved, node, Bool.false_eq_true, if_false]
  exact (Descent.bind_eq rfl).trans (Descent.bind_eq done)

theorem remaining_discover (pending : List ObjectId) :
    (scope.remaining (scope.discover copies pending)).length ≤ (scope.remaining copies).length := by
  simp only [remaining, ← List.countP_eq_length_filter]
  refine List.countP_mono_left fun id _ uncopied => ?_
  cases found : scope.copy? copies id with
  | none => rfl
  | some copy => simp [copy?_discover pending found] at uncopied

/-- A reference behind which there is nothing to copy goes on to mean what it means. -/
theorem meaning_discover {id : ObjectId} (pending : List ObjectId)
    (skipped : scope.uncopied? copies id = none) :
    scope.meaning (scope.discover copies pending) id = scope.meaning copies id := by
  induction copies, pending using discover.induct scope with
  | case1 copies => rw [discover_nil]
  | case2 copies other rest passed ih =>
    rw [discover_of_skipped _ passed]
    exact ih skipped
  | case3 copies other rest object found ih =>
    have apart : other ≠ id := by
      rintro rfl
      rw [found] at skipped
      cases skipped
    have same : scope.copy? (scope.register copies other) id = scope.copy? copies id := by
      rw [copy?_register, if_neg apart]
    rw [discover_of_found _ found]
    refine (ih ?_).trans ?_
    · rw [uncopied?, same]
      exact skipped
    · rw [meaning, same, ← meaning]

def entry (scope : CopyScope) (final : Copies) (pair : ObjectId × ObjectId) : ObjectId × Object :=
  (pair.2, ((scope.source.table.resolve pair.1).getD .null).replace (scope.meaning final))

/-- What happens between two moments of a descent that visits these references: copies are handed
out as in a search, and each one is entered, with its references replaced. -/
structure Visited (scope : CopyScope) (final : Copies) (references : List ObjectId)
    (before after : Progress) : Prop where
  copies : after.copies = scope.discover before.copies references
  entered : ∃ pairs, after.copies.made.Perm (pairs ++ before.copies.made) ∧
    after.table = before.table.insertAll (pairs.map (scope.entry final))

variable {final : Copies} {before middle after : Progress}

theorem Visited.nil (progress : Progress) : scope.Visited final [] progress progress where
  copies := (discover_nil scope progress.copies).symm
  entered := ⟨[], .rfl, rfl⟩

theorem Visited.trans {first later : List ObjectId} (left : scope.Visited final first before middle)
    (right : scope.Visited final later middle after) :
    scope.Visited final (first ++ later) before after where
  copies := by rw [right.copies, left.copies, discover_append]
  entered := by
    obtain ⟨one, made, table⟩ := left.entered
    obtain ⟨two, made', table'⟩ := right.entered
    refine ⟨one ++ two, ?_, ?_⟩
    · calc after.copies.made
        _ ~ two ++ middle.copies.made := made'
        _ ~ two ++ (one ++ before.copies.made) := made.append_left two
        _ = two ++ one ++ before.copies.made := (List.append_assoc ..).symm
        _ ~ one ++ two ++ before.copies.made := List.perm_append_comm.append_right _
    · rw [table', table, ← OrderedMap.insertAll_append, List.map_append]

/-- A part of a descent gives this result after a visit to these references, wherever no more than
so many objects are left to copy and the copies at the end of the descent are those of a search
that goes on from there. -/
def Gives (scope : CopyScope) (final : Copies) (bound : Nat) (part : Descent α)
    (references : List ObjectId) (result : α) : Prop :=
  ∀ before later, (scope.remaining before.copies).length ≤ bound →
    scope.discover before.copies (references ++ later) = final →
    ∃ after, part before = some (result, after) ∧ scope.Visited final references before after

variable {bound : Nat} {part : Descent α} {next : α → Descent β} {result : α}

theorem Gives.pure (result : α) : scope.Gives final bound (pure result) [] result :=
  fun before _ _ _ => ⟨before, rfl, .nil before⟩

theorem Gives.bind {references others : List ObjectId} {last : β}
    (first : scope.Gives final bound part references result)
    (second : scope.Gives final bound (next result) others last) :
    scope.Gives final bound (part >>= next) (references ++ others) last := by
  intro before later few ahead
  rw [List.append_assoc] at ahead
  obtain ⟨middle, done, visited⟩ := first before (others ++ later) few ahead
  have few' : (scope.remaining middle.copies).length ≤ bound := by
    rw [visited.copies]
    exact Nat.le_trans (remaining_discover references) few
  rw [discover_append, ← visited.copies] at ahead
  obtain ⟨after, done', visited'⟩ := second middle later few' ahead
  exact ⟨after, (Descent.bind_eq done).trans done', visited.trans visited'⟩

theorem Gives.map {references : List ObjectId} (f : α → β)
    (first : scope.Gives final bound part references result) :
    scope.Gives final bound (part >>= fun result => Pure.pure (f result)) references
      (f result) := by
  rw [← List.append_nil references]
  exact first.bind (.pure (f result))

variable {visit : ObjectId → Descent Object}

mutual

/-- If visiting a reference gives what it means, copying an object gives its translation. -/
theorem gives_copyObject
    (visits : ∀ id, scope.Gives final bound (visit id) [id] (scope.meaning final id))
    (object : Object) : scope.Gives final bound (copyObject visit object) object.references
      (object.replace (scope.meaning final)) := by
  cases object with
  | reference id => exact visits id
  | array items => exact (gives_copyItems visits items).map Object.array
  | dictionary entries => exact (gives_copyEntries visits entries).map Object.dictionary
  | stream entries data => exact (gives_copyEntries visits entries).map (Object.stream · data)
  | _ => exact .pure _

theorem gives_copyItems
    (visits : ∀ id, scope.Gives final bound (visit id) [id] (scope.meaning final id))
    (items : List Object) : scope.Gives final bound (copyItems visit items)
      (Object.itemReferences items) (Object.replaceItems (scope.meaning final) items) := by
  cases items with
  | nil => exact .pure _
  | cons item rest =>
    exact (gives_copyObject visits item).bind ((gives_copyItems visits rest).map _)

theorem gives_copyEntries
    (visits : ∀ id, scope.Gives final bound (visit id) [id] (scope.meaning final id))
    (entries : List (Bytes × Object)) : scope.Gives final bound (copyEntries visit entries)
      (Object.entryReferences entries) (Object.replaceEntries (scope.meaning final) entries) := by
  cases entries with
  | nil => exact .pure _
  | cons entry rest =>
    exact (gives_copyObject visits entry.2).bind ((gives_copyEntries visits rest).map _)

end

theorem gives_of_skipped {id : ObjectId} {later : List ObjectId} (depth : Nat)
    (skipped : scope.uncopied? before.copies id = none)
    (ahead : scope.discover before.copies (id :: later) = final) :
    ∃ after, scope.copyReference depth id before = some (scope.meaning final id, after) ∧
      scope.Visited final [id] before after := by
  rw [discover_of_skipped later skipped] at ahead
  have done := copyReference_of_skipped depth skipped
  rw [← meaning_discover later skipped, ahead] at done
  refine ⟨before, done, ?_, ⟨[], .rfl, rfl⟩⟩
  rw [discover_of_skipped [] skipped, discover_nil]

/-- An object has been visited once all that it refers to has been and its own copy is entered. -/
theorem Visited.of_found {id : ObjectId} {object : Object}
    (found : scope.uncopied? before.copies id = some object)
    (resolved : scope.source.table.resolve id = some object)
    (inside : scope.Visited final object.references
      { before with copies := scope.register before.copies id } after) :
    scope.Visited final [id] before { after with
      table := after.table.insert ⟨before.copies.next, 0⟩
        (object.replace (scope.meaning final)) } where
  copies := by
    rw [discover_of_found [] found, List.append_nil]
    exact inside.copies
  entered := by
    obtain ⟨pairs, made, table⟩ := inside.entered
    refine ⟨pairs ++ [(id, ⟨before.copies.next, 0⟩)], ?_, ?_⟩
    · rw [made_register] at made
      rw [List.append_assoc]
      exact made
    · rw [table, List.map_append, OrderedMap.insertAll_append]
      simp only [List.map_cons, List.map_nil, entry, resolved, Option.getD_some]
      rfl

theorem gives_of_found (listed : scope.source.isPage scope.page.id = true) {depth : Nat}
    (visits : ∀ id, scope.Gives final depth (scope.copyReference depth id) [id]
      (scope.meaning final id)) {id : ObjectId} {later : List ObjectId} {object : Object}
    (found : scope.uncopied? before.copies id = some object)
    (few : (scope.remaining before.copies).length ≤ depth + 1)
    (ahead : scope.discover before.copies (id :: later) = final) :
    ∃ after, scope.copyReference (depth + 1) id before = some (scope.meaning final id, after) ∧
      scope.Visited final [id] before after := by
  obtain ⟨new, fresh⟩ := (uncopied?_eq_some_iff listed).1 found
  rw [discover_of_found later found] at ahead
  have fewer : (scope.remaining (scope.register before.copies id)).length ≤ depth :=
    Nat.le_of_lt_succ (Nat.lt_of_lt_of_le (remaining_register found) few)
  obtain ⟨after, done, visited⟩ := gives_copyObject visits object
    { before with copies := scope.register before.copies id } later fewer ahead
  have copied : scope.copy? final id = some ⟨before.copies.next, 0⟩ := by
    rw [← ahead]
    exact copy?_discover _ (by rw [copy?_register, if_pos rfl])
  rw [meaning_of_copyable listed new copied]
  exact ⟨_, copyReference_of_new listed depth new fresh done, .of_found found new.2.1 visited⟩

/-- A reference gives what it means at the end. The depth allowed is used up by the objects that
have no copy yet: going on from one of them leaves one less. -/
theorem gives_copyReference (listed : scope.source.isPage scope.page.id = true) (depth : Nat)
    (id : ObjectId) :
    scope.Gives final depth (scope.copyReference depth id) [id] (scope.meaning final id) := by
  induction depth generalizing id with
  | zero =>
    intro before later few ahead
    cases found : scope.uncopied? before.copies id with
    | none => exact gives_of_skipped 0 found ahead
    | some object => exact absurd (Nat.lt_of_lt_of_le (remaining_register found) few) (by omega)
  | succ depth ih =>
    intro before later few ahead
    cases found : scope.uncopied? before.copies id with
    | none => exact gives_of_skipped (depth + 1) found ahead
    | some object => exact gives_of_found listed ih found few ahead

/-- Whatever the order in which a descent enters copies, the table comes out the same. -/
theorem Visited.table {base : ObjectMap} {first : Nat} {references : List ObjectId}
    (visited : scope.Visited final references before after) (start : before.copies.made = [])
    (tracked : Tracked scope base first after.copies) (ended : after.copies = final) :
    after.table = before.table.insertAll (scope.objectCopies final) := by
  obtain ⟨pairs, made, entered⟩ := visited.entered
  rw [start, List.append_nil, ended] at made
  have keys : (final.made.map (scope.entry final)).map (·.1) = final.made.map (·.2) := by
    simp [entry]
  have distinct : ((final.made.map (scope.entry final)).map (·.1)).Nodup := by
    rw [keys, ← ended]
    exact tracked.nodup_copies
  rw [entered]
  exact (OrderedMap.insertAll_perm before.table distinct (made.map _)).symm

end CopyScope

namespace Output

def descend (output : Output) (source : Source) (page : Page) (shared : ObjectMap) (depth : Nat) :
    Option Appended := do
  let id : ObjectId := ⟨output.next, 0⟩
  let scope : CopyScope := ⟨source, page, id⟩
  let (entries, progress) ← copyEntries (scope.copyReference depth)
    (Page.flattened source.table page.entries)
    ⟨{ shared, next := output.next + 1 }, output.table⟩
  let entries := Dictionary.set Name.parent (.reference pagesNode) entries
  return { id, shared := progress.copies.shared,
           output := { output with table := progress.table.insert id (.dictionary entries),
                                   next := progress.copies.next, pages := output.pages ++ [id] } }

variable {source : Source} {page : Page}

theorem descend_eq (output : Output) (shared : ObjectMap) (member : page ∈ source.pages)
    {depth : Nat} (enough : source.table.size ≤ depth) :
    output.descend source page shared depth = some (output.appendPage source page shared) := by
  let scope : CopyScope := ⟨source, page, ⟨output.next, 0⟩⟩
  let start : Copies := { shared, next := output.next + 1 }
  let entries := Page.flattened source.table page.entries
  let final := scope.discover start (Object.entryReferences entries)
  have listed : scope.source.isPage scope.page.id = true :=
    List.any_eq_true.2 ⟨page, member, by simp [scope]⟩
  have few : (scope.remaining start).length ≤ depth := by
    refine Nat.le_trans (List.length_filter_le _ _) ?_
    simpa [OrderedMap.keys, OrderedMap.size] using enough
  have visits (id : ObjectId) :
      scope.Gives final depth (scope.copyReference depth id) [id] (scope.meaning final id) :=
    CopyScope.gives_copyReference listed depth id
  obtain ⟨after, done, visited⟩ := CopyScope.gives_copyEntries visits entries
    ⟨start, output.table⟩ [] few (by rw [List.append_nil])
  have tracked : CopyScope.Tracked scope shared (output.next + 1) final :=
    CopyScope.tracked_discover listed _ (CopyScope.tracked_start ..)
  have copies : after.copies = final := visited.copies
  have table := visited.table rfl (copies ▸ tracked) copies
  calc output.descend source page shared depth
    _ = some _ := Option.bind_eq_some_iff.2 ⟨_, done, rfl⟩
    _ = some (output.appendPage source page shared) := by
      rw [copies, table]
      rfl

/-- What a call adds to an output that may be in any state: the page, and a copy of each of some
objects of the document, none of which is copied twice. -/
structure Appended.Adds (appended : Appended) (source : Source) (before : Output)
    (made : List (ObjectId × ObjectId)) : Prop where
  once : (made.map (·.1)).Nodup
  inside : ∀ pair ∈ made, pair.1 ∈ source.table.keys
  copies : ∀ pair ∈ made, ∃ object meaning, source.table.resolve pair.1 = some object ∧
    appended.output.table.get? pair.2 = some (object.replace meaning)
  numbers : appended.output.next = before.next + 1 + made.length
  table : ∀ id, (appended.output.table.get? id).isSome ↔
    (before.table.get? id).isSome ∨ id = appended.id ∨ id ∈ made.map (·.2)

variable {output : Output} {appended : Appended} {made : List (ObjectId × ObjectId)}

theorem adds_appendPage (output : Output) (shared : ObjectMap) (member : page ∈ source.pages) :
    ∃ made, (output.appendPage source page shared).Adds source output made := by
  let call : Appending := ⟨⟨[⟨source, shared⟩], output⟩, 0, ⟨source, shared⟩, page⟩
  have valid : call.Valid := ⟨rfl, member⟩
  refine ⟨call.made, valid.tracked.nodup_originals, ?_, ?_, ?_, ?_⟩
  · intro pair made
    obtain ⟨object, _, resolved, _⟩ := valid.tracked.copyable pair made
    exact Table.mem_keys_of_resolve resolved
  · intro pair made
    obtain ⟨object, original⟩ := valid.tracked.copyable pair made
    have entered := valid.get?_made made
    rw [Appending.objectCopy_eq original] at entered
    exact ⟨object, _, original.2.1, entered⟩
  · exact valid.tracked.next
  · exact valid.isSome_get?_result

theorem Appended.Adds.length_le (adds : appended.Adds source output made) :
    made.length ≤ source.table.size := by
  have within : made.map (·.1) ⊆ source.table.keys := by
    intro id member
    obtain ⟨pair, inside, rfl⟩ := List.mem_map.1 member
    exact adds.inside pair inside
  simpa [OrderedMap.keys, OrderedMap.size] using adds.once.length_le_of_subset within

theorem Appended.Adds.size_le (adds : appended.Adds source output made) :
    appended.output.table.size ≤ output.table.size + 1 + source.table.size := by
  have within : appended.output.table.keys ⊆
      output.table.keys ++ appended.id :: made.map (·.2) := by
    intro id member
    have := (adds.table id).1 (OrderedMap.mem_keys_iff.1 member)
    simpa [OrderedMap.mem_keys_iff] using this
  have few := adds.length_le
  have grown := (OrderedMap.nodup_keys _).length_le_of_subset within
  simp only [OrderedMap.keys, List.length_append, List.length_map, List.length_cons] at grown
  simp only [OrderedMap.size] at few ⊢
  omega

/-- Copying a page ends. However the objects of a document refer to each other, whatever has been
copied before and whatever the output holds, a descent needs no more depth than the document has
objects; and what it adds is one object for the page and at most one for each of these. -/
theorem copying_ends (output : Output) (source : Source) (position : Nat) (shared : ObjectMap)
    {page : Page} (found : source.pages[position]? = some page) :
    ∃ appended made, output.append source position shared = .ok appended ∧
      (∀ depth, source.table.size ≤ depth →
        output.descend source page shared depth = some appended) ∧
      appended.Adds source output made ∧ made.length ≤ source.table.size ∧
      appended.output.table.size ≤ output.table.size + 1 + source.table.size := by
  have member := List.mem_of_getElem? found
  obtain ⟨made, adds⟩ := adds_appendPage output shared member
  refine ⟨_, made, ?_, fun depth => descend_eq output shared member, adds, adds.length_le,
    adds.size_le⟩
  rw [append, found]

/-- The widget of the form leads to a field that leads back to it, and both to the page. -/
theorem copying_form_ends : form.pages[0]? = some formPage ∧
    ∃ appended made, (Output.empty {}).append form 0 ∅ = .ok appended ∧
      (∀ depth, form.table.size ≤ depth →
        (Output.empty {}).descend form formPage ∅ depth = some appended) ∧
      appended.Adds form (Output.empty {}) made ∧ made.length ≤ form.table.size ∧
      appended.output.table.size ≤ (Output.empty {}).table.size + 1 + form.table.size :=
  ⟨rfl, copying_ends (Output.empty {}) form 0 ∅ rfl⟩

/-- The field lies below the widget: two steps down are enough here, and one is not. -/
example : ((Output.empty {}).descend form formPage ∅ 1).isNone ∧
    ((Output.empty {}).descend form formPage ∅ 2).isSome := by
  constructor <;> cbv

end Output

end Pdf

end PdfAssembly
