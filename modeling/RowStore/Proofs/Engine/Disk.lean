import RowStore.Engine
import RowStore.Proofs.Storage.HeapFile

/-! # What is on the disk
The rows of a table as they are read from its file (`stored?`, `storedRow`). A write touches one page
(`Touches`), and gives it the rows of the page that is written (`stored?_writePage`); to append a page to
a file of whole pages changes no rows (`storedRow_allocate`). -/

namespace RowStore

namespace Catalog

variable {c : Catalog} {table : TableId} {f g : HeapFile}

theorem id_of_file? (h : c.file? table = some f) : f.id = table := by
  rw [CatalogState.file?, Option.map_eq_some_iff] at h
  obtain ⟨entry, found, rfl⟩ := h
  exact c.consistent.keyed table entry found

/-- Whether every table is a file, and has columns that can be stored. -/
def Storable (c : Catalog) : Prop :=
  ∀ entry ∈ c.entries, entry.file.location ≠ [] ∧ entry.file.schema.Storable

theorem Storable.of_file? (h : c.Storable) (found : c.file? table = some f) :
    f.location ≠ [] ∧ f.schema.Storable := by
  rw [CatalogState.file?, Option.map_eq_some_iff] at found
  obtain ⟨entry, found, rfl⟩ := found
  exact h entry (c.mem_entries_of_find? found)

/-- Tables that are not the same have their files in different places. -/
theorem location_ne {table' : TableId} (hf : c.file? table = some f) (hg : c.file? table' = some g)
    (ne : table ≠ table') : f.location ≠ g.location := by
  intro eq
  apply ne
  rw [← id_of_file? hf, ← id_of_file? hg, HeapFile.id, HeapFile.id, eq]

end Catalog

namespace Engine

variable {e e' : Engine} {f : HeapFile} {p : PageId} {page : Page}

/-- A page as it is on the disk. -/
def stored? (e : Engine) (p : PageId) : Option Page :=
  (e.readPage p).toOption

/-- The values that are on the disk at a record id. -/
def storedRow (e : Engine) (r : RecordId) : Option (List Value) :=
  (e.stored? r.page).bind (·.row? r.slot)

/-- The octets of a file. -/
def octets (e : Engine) (f : HeapFile) : Bytes :=
  e.disk.content f.location

theorem toOption_eq_some {ε α : Type} {x : Except ε α} {a : α} : x.toOption = some a ↔ x = .ok a := by
  cases x <;> simp [Except.toOption]

theorem file_eq_ok {table : TableId} : e.file table = .ok f ↔ e.catalog.file? table = some f := by
  rw [file]
  cases e.catalog.file? table <;> simp

theorem stored?_eq_some : e.stored? p = some page ↔
    ∃ f, e.catalog.file? p.table = some f ∧ f.readPage (e.octets f) p = .ok page := by
  rw [stored?, toOption_eq_some, readPage, bind_eq_ok]
  simp only [file_eq_ok]
  rfl

/-- What is read depends on the disk and the catalog only. -/
theorem readPage_congr (disk : e'.disk = e.disk) (catalog : e'.catalog = e.catalog) (p : PageId) :
    e'.readPage p = e.readPage p := by
  simp only [readPage, file, readFrom, disk, catalog]

theorem stored?_congr (disk : e'.disk = e.disk) (catalog : e'.catalog = e.catalog) :
    e'.stored? = e.stored? := by
  funext p
  rw [stored?, stored?, readPage_congr disk catalog]

theorem storedRow_congr (disk : e'.disk = e.disk) (catalog : e'.catalog = e.catalog) :
    e'.storedRow = e.storedRow := by
  funext r
  rw [storedRow, storedRow, stored?_congr disk catalog]

/-- What is known of a page that can be read. -/
theorem spec_of_stored? (h : e.stored? p = some page) : page.id = p ∧ page.dirtiedBy = none ∧
    page.Sound ∧ ∃ f, e.catalog.file? p.table = some f ∧ page.layout = f.layout ∧
      f.Covers (e.octets f) p.number := by
  obtain ⟨f, found, read⟩ := stored?_eq_some.mp h
  obtain ⟨-, covers, decoded⟩ := HeapFile.readPage_eq_ok.mp read
  obtain ⟨-, id, layout, clean, -⟩ := Page.decode_cases decoded
  exact ⟨id, clean, Page.sound_of_decode decoded, f, found, layout, covers⟩

/-! ## Writing and appending -/

/-- A disk on which, of what the tables' files hold, nothing but one page may be other than it is for an
engine. -/
structure Touches (e : Engine) (p : PageId) (disk : FileTree) : Prop where
  lengths : ∀ table f, e.catalog.file? table = some f →
    (({ e with disk } : Engine).octets f).length = (e.octets f).length
  others : ∀ q ≠ p, ∀ f, e.catalog.file? q.table = some f →
    f.octets (({ e with disk } : Engine).octets f) q.number = f.octets (e.octets f) q.number

namespace Touches

variable {disk : FileTree}

theorem refl (e : Engine) (p : PageId) : e.Touches p e.disk :=
  ⟨fun _ _ _ => rfl, fun _ _ _ _ => rfl⟩

/-- What is written to one page of a file touches only this page. -/
theorem of_write {content : Bytes} (storable : e.catalog.Storable)
    (found : e.catalog.file? p.table = some f) (h : f.Touches (e.octets f) p.number content) :
    e.Touches p (e.disk.write f.location content) := by
  have here : (e.disk.write f.location content).content f.location = content :=
    FileTree.content_write (storable.of_file? found).1 content
  have elsewhere : ∀ {table : TableId} {g : HeapFile}, table ≠ p.table →
      e.catalog.file? table = some g →
      (e.disk.write f.location content).content g.location = e.octets g := fun ne hg =>
    FileTree.content_write_of_ne _ _ (Catalog.location_ne hg found ne)
  constructor
  case lengths =>
    intro table g hg
    by_cases same : table = p.table
    · obtain rfl : g = f := Option.some.inj (hg.symm.trans (same ▸ found))
      rw [octets, here, h.length]
    · rw [octets, elsewhere same hg]
  case others =>
    intro q ne g hg
    by_cases same : q.table = p.table
    · obtain rfl : g = f := Option.some.inj (hg.symm.trans (same ▸ found))
      rw [octets, here, h.others q.number fun eq => ne (congr (congrArg PageId.mk same) eq)]
    · rw [octets, elsewhere same hg]

variable (h : e.Touches p disk)

include h

/-- The other pages are read as before. -/
theorem stored?_eq {q : PageId} (ne : q ≠ p) :
    ({ e with disk } : Engine).stored? q = e.stored? q := by
  apply Option.ext
  intro page
  rw [stored?_eq_some, stored?_eq_some]
  apply exists_congr
  intro f
  apply and_congr_right
  intro found
  have pages : f.numPages (({ e with disk } : Engine).octets f) = f.numPages (e.octets f) := by
    rw [HeapFile.numPages, HeapFile.numPages, h.lengths q.table f found]
  rw [HeapFile.readPage_eq, HeapFile.readPage_eq, pages, h.others q ne f found]

/-- The page that is touched can still be read. -/
theorem exists_stored? (stored : e.stored? p = some page) :
    ∃ page', ({ e with disk } : Engine).stored? p = some page' := by
  obtain ⟨-, -, -, f, found, -, covers⟩ := spec_of_stored? stored
  have covers : f.Covers (({ e with disk } : Engine).octets f) p.number := by
    rwa [HeapFile.Covers, h.lengths p.table f found]
  obtain ⟨page', read⟩ := HeapFile.exists_readPage (Catalog.id_of_file? found).symm covers
  exact ⟨page', stored?_eq_some.mpr ⟨f, found, read⟩⟩

end Touches

section Write

variable (storable : e.catalog.Storable) (found : e.catalog.file? page.id.table = some f)
  (layout : page.layout = f.layout) (sound : page.Sound)
  (covers : f.Covers (e.octets f) page.id.number)

include storable found layout sound covers

/-- To write a page, as far as the write goes, touches no other. -/
theorem touches_writePage {content : Bytes} {count? : Option Nat}
    (h : f.writePage (e.octets f) page count? = .ok content) :
    e.Touches page.id (e.disk.write f.location content) :=
  .of_write storable found
    (HeapFile.octets_of_writePage (Catalog.id_of_file? found).symm layout sound covers h).1

/-- A page that has been written is on the disk. -/
theorem stored?_writePage {content : Bytes} (h : f.writePage (e.octets f) page = .ok content) :
    ∃ page', ({ e with disk := e.disk.write f.location content } : Engine).stored? page.id
      = some page' ∧ page.Agrees page' := by
  obtain ⟨place, columns⟩ := storable.of_file? found
  obtain ⟨page', read, agrees⟩ := HeapFile.readPage_of_writePage
    (Catalog.id_of_file? found).symm layout sound covers columns h
  refine ⟨page', stored?_eq_some.mpr ⟨f, found, ?_⟩, agrees⟩
  rwa [octets, FileTree.content_write place]

end Write

section Allocate

variable (storable : e.catalog.Storable) (found : e.catalog.file? f.id = some f)
  (whole : f.Whole (e.octets f))

include whole

theorem allocate_eq : e.allocate f = ({ e with
      disk := e.disk.write f.location (e.octets f ++ f.layout.emptyPage) },
    ⟨f.id, f.numPages (e.octets f)⟩) := by
  have appended := HeapFile.allocate_of_whole whole
  rw [octets] at appended
  simp only [allocate, appended, octets]

include storable found

/-- The octets of a page are appended to one file. -/
theorem octets_allocate {g : HeapFile} {table : TableId} (hg : e.catalog.file? table = some g) :
    (e.allocate f).1.octets g =
      if g = f then e.octets f ++ f.layout.emptyPage else e.octets g := by
  rw [allocate_eq whole, octets]
  by_cases eq : g = f
  · rw [if_pos eq, eq, FileTree.content_write (storable.of_file? found).1]
  · have apart : table ≠ f.id := by
      rintro rfl
      exact eq (Option.some.inj (hg.symm.trans found))
    rw [if_neg eq, FileTree.content_write_of_ne _ _ (Catalog.location_ne hg found apart), octets]

/-- Pages that can be read stay as they are when one is appended. -/
theorem stored?_allocate (h : e.stored? p = some page) : (e.allocate f).1.stored? p = some page := by
  obtain ⟨g, hg, read⟩ := stored?_eq_some.mp h
  refine stored?_eq_some.mpr ⟨g, hg, ?_⟩
  rw [octets_allocate storable found whole hg]
  split
  · next eq =>
    subst eq
    exact HeapFile.readPage_append read
  · exact read

/-- To append a page changes no rows. -/
theorem storedRow_allocate : (e.allocate f).1.storedRow = e.storedRow := by
  funext r
  rw [storedRow, storedRow]
  cases old : e.stored? r.page with
  | some page => rw [stored?_allocate storable found whole old]
  | none =>
    -- a page that can be read only now is the appended one, which is empty
    cases new : (e.allocate f).1.stored? r.page with
    | none => rfl
    | some page =>
      obtain ⟨g, hg, read⟩ := stored?_eq_some.mp new
      have hg : e.catalog.file? r.page.table = some g := hg
      have unread : ∀ page, g.readPage (e.octets g) r.page ≠ .ok page := by
        intro page read
        rw [stored?_eq_some.mpr ⟨g, hg, read⟩] at old
        exact nomatch old
      rw [octets_allocate storable found whole hg] at read
      split at read
      · next eq =>
        subst eq
        rcases HeapFile.readPage_append_cases whole read with read | ⟨-, blank⟩
        · exact absurd read (unread page)
        · exact blank r.slot
      · exact absurd read (unread page)

/-- Files of whole pages stay so. -/
theorem whole_allocate {g : HeapFile} {table : TableId} (hg : e.catalog.file? table = some g)
    (h : g.Whole (e.octets g)) : g.Whole ((e.allocate f).1.octets g) := by
  rw [octets_allocate storable found whole hg]
  split
  · next eq =>
    subst eq
    exact HeapFile.whole_append h
  · exact h

end Allocate

end Engine

end RowStore
