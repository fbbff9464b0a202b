/-! Finite maps whose entries stand in ascending key order. Two maps that answer every
look-up alike are equal, and writing a key changes the answer for that key alone. -/
namespace PdfAssembly

/-- A decidable strict order in which any two different keys are comparable. -/
class Key (κ : Type) extends LT κ where
  decEq : DecidableEq κ
  decLt : ∀ a b : κ, Decidable (a < b)
  irrefl : ∀ a : κ, ¬ a < a
  trans : ∀ {a b c : κ}, a < b → b < c → a < c
  connected : ∀ {a b : κ}, ¬ a < b → ¬ b < a → a = b

instance [Key κ] : DecidableEq κ := Key.decEq
instance instDecidableLtOfKey [Key κ] (a b : κ) : Decidable (a < b) := Key.decLt a b

instance : Key Nat where
  decEq := inferInstance
  decLt := inferInstance
  irrefl := Nat.lt_irrefl
  trans := Nat.lt_trans
  connected := by omega

namespace Entries

@[specialize] def find? [DecidableEq κ] (key : κ) : List (κ × α) → Option α
  | [] => none
  | (k, value) :: rest => if k = key then some value else find? key rest

/-- Puts an entry behind all smaller keys, in the place of an equal one. -/
@[specialize] def place [Key κ] (key : κ) (value : α) : List (κ × α) → List (κ × α)
  | [] => [(key, value)]
  | (k, old) :: rest =>
    if k < key then (k, old) :: place key value rest
    else if key < k then (key, value) :: (k, old) :: rest
    else (key, value) :: rest

/-- A key that is there keeps its place; a new one comes last. -/
@[specialize] def put [DecidableEq κ] (key : κ) (value : α) : List (κ × α) → List (κ × α)
  | [] => [(key, value)]
  | (k, old) :: rest => if k = key then (key, value) :: rest else (k, old) :: put key value rest

theorem find?_put [DecidableEq κ] (key other : κ) (value : α) (entries : List (κ × α)) :
    find? other (put key value entries) =
      if key = other then some value else find? other entries := by
  induction entries with
  | nil => rfl
  | cons entry rest ih =>
    obtain ⟨k, old⟩ := entry
    by_cases same : k = key <;> by_cases hit : k = other <;> by_cases wanted : key = other <;>
      simp_all [put, find?]

theorem put_of_notMem [DecidableEq κ] {key : κ} {value : α} {entries : List (κ × α)}
    (absent : key ∉ entries.map (·.1)) : put key value entries = entries ++ [(key, value)] := by
  induction entries with
  | nil => rfl
  | cons entry rest ih =>
    rw [List.map_cons, List.mem_cons, not_or] at absent
    rw [put, if_neg (Ne.symm absent.1), ih absent.2]
    rfl

theorem find?_place [Key κ] (key other : κ) (value : α) (entries : List (κ × α)) :
    find? other (place key value entries) =
      if key = other then some value else find? other entries := by
  induction entries with
  | nil => rfl
  | cons entry rest ih =>
    obtain ⟨k, old⟩ := entry
    unfold place
    split
    · rename_i below
      have apart : k ≠ key := fun same => Key.irrefl key (same ▸ below)
      simp only [find?, ih]
      grind
    · split
      · rfl
      · rename_i notBelow notAbove
        cases Key.connected notBelow notAbove
        simp only [find?]
        grind

theorem mem_place [Key κ] {key : κ} {value : α} {entries : List (κ × α)} {entry : κ × α}
    (member : entry ∈ place key value entries) : entry = (key, value) ∨ entry ∈ entries := by
  fun_induction place key value entries with
  | case1 => simpa using member
  | case2 => grind
  | case3 => simpa using member
  | case4 => grind

def Ascending [Key κ] (entries : List (κ × α)) : Prop :=
  entries.Pairwise fun a b => a.1 < b.1

theorem ascending_place [Key κ] (key : κ) (value : α) {entries : List (κ × α)}
    (ascending : Ascending entries) : Ascending (place key value entries) := by
  unfold Ascending at *
  fun_induction place key value entries with
  | case1 => simp
  | case2 k old rest above ih =>
    obtain ⟨first, others⟩ := List.pairwise_cons.1 ascending
    refine List.pairwise_cons.2 ⟨fun entry member => ?_, ih others⟩
    rcases mem_place member with rfl | member
    · exact above
    · exact first entry member
  | case3 k old rest _ below =>
    refine List.pairwise_cons.2 ⟨fun entry member => ?_, ascending⟩
    rcases List.mem_cons.1 member with rfl | member
    · exact below
    · exact Key.trans below ((List.pairwise_cons.1 ascending).1 entry member)
  | case4 k old rest notBelow notAbove =>
    cases Key.connected notBelow notAbove
    exact List.pairwise_cons.2 (List.pairwise_cons.1 ascending)

theorem find?_eq_some_iff [Key κ] {key : κ} {value : α} {entries : List (κ × α)}
    (ascending : Ascending entries) :
    find? key entries = some value ↔ (key, value) ∈ entries := by
  induction entries with
  | nil => simp [find?]
  | cons entry rest ih =>
    obtain ⟨k, old⟩ := entry
    obtain ⟨first, others⟩ := List.pairwise_cons.1 ascending
    unfold find?
    split
    · rename_i same
      subst same
      have absent : (k, value) ∉ rest := fun member => Key.irrefl k (first _ member)
      simp [absent, eq_comm]
    · rename_i apart
      simp [ih others, Ne.symm apart]

theorem ascending_map [Key κ] (f : α → β) {entries : List (κ × α)}
    (ascending : Ascending entries) : Ascending (entries.map fun entry => (entry.1, f entry.2)) :=
  List.pairwise_map.2 ascending

theorem find?_map [DecidableEq κ] (f : α → β) (key : κ) (entries : List (κ × α)) :
    find? key (entries.map fun entry => (entry.1, f entry.2)) = (find? key entries).map f := by
  induction entries with
  | nil => rfl
  | cons entry rest ih =>
    simp only [List.map_cons, find?]
    split
    · rfl
    · exact ih

end Entries

/-- A finite map, held as its entries in ascending key order. -/
structure OrderedMap (κ : Type) [Key κ] (α : Type u) where
  entries : List (κ × α)
  ascending : Entries.Ascending entries

namespace OrderedMap

variable [Key κ]

def empty : OrderedMap κ α := ⟨[], List.Pairwise.nil⟩

instance : EmptyCollection (OrderedMap κ α) := ⟨empty⟩
instance : Inhabited (OrderedMap κ α) := ⟨empty⟩

def get? (map : OrderedMap κ α) (key : κ) : Option α := Entries.find? key map.entries

def contains (map : OrderedMap κ α) (key : κ) : Bool := (map.get? key).isSome

def insert (map : OrderedMap κ α) (key : κ) (value : α) : OrderedMap κ α :=
  ⟨Entries.place key value map.entries, Entries.ascending_place key value map.ascending⟩

def insertAll (map : OrderedMap κ α) (entries : List (κ × α)) : OrderedMap κ α :=
  entries.foldl (fun map entry => map.insert entry.1 entry.2) map

/-- Of two entries with one key the later one counts. -/
def ofList (entries : List (κ × α)) : OrderedMap κ α := insertAll ∅ entries

def mapValues (f : α → β) (map : OrderedMap κ α) : OrderedMap κ β :=
  ⟨map.entries.map fun entry => (entry.1, f entry.2), Entries.ascending_map f map.ascending⟩

def keys (map : OrderedMap κ α) : List κ := map.entries.map (·.1)

def size (map : OrderedMap κ α) : Nat := map.entries.length

def isEmpty (map : OrderedMap κ α) : Bool := map.entries.isEmpty

@[simp] theorem get?_empty (key : κ) : (∅ : OrderedMap κ α).get? key = none := rfl

theorem get?_insert (map : OrderedMap κ α) (key other : κ) (value : α) :
    (map.insert key value).get? other = if key = other then some value else map.get? other :=
  Entries.find?_place key other value map.entries

@[simp] theorem get?_insert_self (map : OrderedMap κ α) (key : κ) (value : α) :
    (map.insert key value).get? key = some value := by simp [get?_insert]

theorem get?_insert_ne (map : OrderedMap κ α) {key other : κ} (value : α) (apart : key ≠ other) :
    (map.insert key value).get? other = map.get? other := by simp [get?_insert, apart]

theorem get?_insertAll_of_notMem (map : OrderedMap κ α) {key : κ} {entries : List (κ × α)}
    (absent : key ∉ entries.map (·.1)) : (map.insertAll entries).get? key = map.get? key := by
  induction entries generalizing map with
  | nil => rfl
  | cons entry rest ih =>
    rw [List.map_cons, List.mem_cons, not_or] at absent
    exact (ih _ absent.2).trans (get?_insert_ne map entry.2 (Ne.symm absent.1))

theorem get?_insertAll_of_mem (map : OrderedMap κ α) {key : κ} {value : α}
    {entries : List (κ × α)} (distinct : (entries.map (·.1)).Nodup)
    (member : (key, value) ∈ entries) : (map.insertAll entries).get? key = some value := by
  induction entries generalizing map with
  | nil => simp at member
  | cons entry rest ih =>
    obtain ⟨fresh, others⟩ := List.nodup_cons.1 distinct
    rcases List.mem_cons.1 member with rfl | later
    · exact (get?_insertAll_of_notMem _ fresh).trans (get?_insert_self map key value)
    · exact ih _ others later

theorem get?_mapValues (f : α → β) (map : OrderedMap κ α) (key : κ) :
    (map.mapValues f).get? key = (map.get? key).map f :=
  Entries.find?_map f key map.entries

theorem get?_eq_some_iff {map : OrderedMap κ α} {key : κ} {value : α} :
    map.get? key = some value ↔ (key, value) ∈ map.entries :=
  Entries.find?_eq_some_iff map.ascending

theorem mem_keys_iff {map : OrderedMap κ α} {key : κ} :
    key ∈ map.keys ↔ (map.get? key).isSome := by
  simp [keys, Option.isSome_iff_exists, get?_eq_some_iff]

theorem nodup_keys (map : OrderedMap κ α) : map.keys.Nodup := by
  refine List.pairwise_map.2 (map.ascending.imp fun {a b} below same => ?_)
  exact Key.irrefl a.1 (same ▸ below)

private theorem entries_eq {a b : List (κ × α)} (left : Entries.Ascending a)
    (right : Entries.Ascending b) (same : ∀ entry, entry ∈ a ↔ entry ∈ b) : a = b := by
  induction a generalizing b with
  | nil => cases b with
    | nil => rfl
    | cons entry rest => exact absurd ((same entry).2 (by simp)) (by simp)
  | cons x xs ih => cases b with
    | nil => exact absurd ((same x).1 (by simp)) (by simp)
    | cons y ys =>
      obtain ⟨firstLeft, restLeft⟩ := List.pairwise_cons.1 left
      obtain ⟨firstRight, restRight⟩ := List.pairwise_cons.1 right
      have head : x = y := by
        have hx := (same x).1 (by simp)
        have hy := (same y).2 (by simp)
        rcases List.mem_cons.1 hx with e | inYs
        · exact e
        · rcases List.mem_cons.1 hy with e | inXs
          · exact e.symm
          · exact absurd (Key.trans (firstLeft y inXs) (firstRight x inYs)) (Key.irrefl _)
      subst head
      refine congrArg (x :: ·) (ih restLeft restRight fun entry => ?_)
      have := same entry
      constructor <;> intro member
      · rcases List.mem_cons.1 (this.1 (List.mem_cons_of_mem _ member)) with rfl | member'
        · exact absurd (firstLeft entry member) (Key.irrefl _)
        · exact member'
      · rcases List.mem_cons.1 (this.2 (List.mem_cons_of_mem _ member)) with rfl | member'
        · exact absurd (firstRight entry member) (Key.irrefl _)
        · exact member'

/-- Maps are determined by their look-ups. -/
@[ext] theorem ext {a b : OrderedMap κ α} (same : ∀ key, a.get? key = b.get? key) : a = b := by
  have : a.entries = b.entries := entries_eq a.ascending b.ascending fun entry => by
    rw [← get?_eq_some_iff, ← get?_eq_some_iff, same]
  cases a; cases b; simp_all

end OrderedMap

end PdfAssembly
