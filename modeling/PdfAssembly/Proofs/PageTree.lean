import PdfAssembly.Pdf.Source

/-! What the walk through a page tree finds: pages only, each with its dictionary, and in a tree
without inner nodes every page that the root lists. -/
namespace PdfAssembly.Pdf

/-- A page comes with the dictionary that its identifier stands for, and this says that it is
a page. -/
structure Page.Read (table : Table) (page : Page) : Prop where
  entries : table.dictionary? page.id = some page.entries
  type : page.entries.typeName? = some Name.page

namespace PageTree

theorem read_of_mem_walk (table : Table) (visits : Nat) (pending : List (List Object)) :
    ∀ page ∈ walk table visits pending, page.Read table := by
  fun_induction walk table visits pending with
  | case1 _ _ _ _ _ _ _ ih => exact ih
  | case2 _ _ kid _ _ _ id entries found type ih =>
    intro page member
    rcases List.mem_cons.1 member with rfl | later
    · obtain ⟨other, _, resolved⟩ := Option.bind_eq_some_iff.1 found
      obtain ⟨_, read, same⟩ := Option.map_eq_some_iff.1 resolved
      cases same
      exact ⟨read, type⟩
    · exact ih page later
  | case3 _ _ _ _ _ _ _ _ _ _ _ _ ih => exact ih
  | case4 _ _ _ _ _ _ _ _ _ _ _ ih => exact ih
  | case5 => simp

theorem read_of_mem_pages {table : Table} {root : Option Object} {page : Page}
    (member : page ∈ pages table root) : page.Read table := by
  simp only [pages] at member
  split at member
  · simp at member
  · exact read_of_mem_walk table _ _ page member

/-- A list of pages is found whole if the walk may make enough visits. -/
theorem walk_pages {table : Table} {pages : List Page} (read : ∀ page ∈ pages, page.Read table)
    {visits : Nat} (enough : pages.length ≤ visits) :
    walk table visits [pages.map fun page => .reference page.id] = pages := by
  induction pages generalizing visits with
  | nil => cases visits <;> simp [walk]
  | cons page rest ih =>
    obtain ⟨visits, rfl⟩ : ∃ more, visits = more + 1 := ⟨visits - 1, by simp at enough; omega⟩
    have first := read page (by simp)
    have fewer : rest.length ≤ visits := by simpa using enough
    have others := ih (fun other member => read other (List.mem_cons_of_mem _ member)) fewer
    unfold walk
    simp [Object.asReference?, first.entries, first.type, others]

theorem rootKids?_eq {table : Table} {root node : ObjectId} {catalog tree : Dictionary}
    {kids : List Object} (top : table.dictionary? root = some catalog)
    (entry : catalog.get? Name.pages = some (.reference node))
    (inner : table.dictionary? node = some tree)
    (listed : tree.get? Name.kids = some (.array kids)) :
    rootKids? table (some (.reference root)) = some kids := by
  simp [rootKids?, kids?, Object.asReference?, Table.dereference, Object.asArray?, top, entry,
    inner, listed]

end PageTree

def Source.Loaded (source : Source) : Prop :=
  ∃ name content, Source.load name content = .ok source

theorem Source.Loaded.read {source : Source} (loaded : source.Loaded) {page : Page}
    (member : page ∈ source.pages) : page.Read source.table := by
  obtain ⟨name, content, done⟩ := loaded
  have ofDocument (document : Document) (done : ofDocument name document = .ok source) :
      page.Read source.table := by
    simp only [ofDocument] at done
    split at done
    · cases done
      exact PageTree.read_of_mem_pages member
    · split at done <;> cases done
      simp at member
  cases content with
  | document document => exact ofDocument document done
  | saved file => exact ofDocument file.document done
  | raw data => cases done

end PdfAssembly.Pdf
