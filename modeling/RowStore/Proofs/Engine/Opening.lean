import RowStore.Database
import RowStore.Proofs.Engine.Change
import RowStore.Proofs.Storage.FileTree
import RowStore.Proofs.Value.TypeName

/-! # What a database is like at first
A database that has just been opened has nothing in memory and no locks, and its tables can be stored
(`Fresh`). Databases are opened with a configuration (`fresh_of_ofConfig`) or from a schema document
(`fresh_of_openSchema`), and may then be given more tables (`Fresh.openTable`). -/

namespace RowStore

/-! ## Columns that can be stored -/

/-- A type that is read from its name is no wider than its lengths can tell. -/
theorem ColumnType.storable_of_parse {s : String} {t : ColumnType} (h : parse s = .ok t) :
    t.Storable := by
  have names := parse_eq_ok_iff.mp h
  generalize s.toList = cs at names
  cases names with
  | int => trivial
  | text => exact (by decide : defaultWidth ≤ maxWidth)
  | textOf _ _ _ _ _ _ narrow => exact narrow

/-- What is made of a list one by one is made of its members. -/
theorem exists_of_mem_mapM {ε α β : Type} {f : α → Except ε β} {as : List α} {bs : List β} {b : β}
    (h : as.mapM f = .ok bs) (mem : b ∈ bs) : ∃ a ∈ as, f a = .ok b := by
  induction as generalizing bs with
  | nil =>
    obtain rfl := Except.ok.inj h
    exact nomatch mem
  | cons a as ih =>
    rw [List.mapM_cons] at h
    obtain ⟨b', first, h⟩ := bind_eq_ok.mp h
    obtain ⟨bs', rest, h⟩ := bind_eq_ok.mp h
    obtain rfl := Except.ok.inj h
    rcases List.mem_cons.mp mem with rfl | mem
    · exact ⟨a, .head _, first⟩
    · obtain ⟨a', mem', eq⟩ := ih rest mem
      exact ⟨a', .tail _ mem', eq⟩

/-- The columns of a declared table can be stored. -/
theorem TableDecl.storable_of_schema {d : TableDecl} {s : Schema} (h : d.schema = .ok s) :
    s.Storable := by
  obtain ⟨columns, declared, rfl⟩ := exists_of_map_eq_ok h
  intro t mem
  obtain ⟨column, here, rfl⟩ := List.mem_map.mp mem
  obtain ⟨decl, -, eq⟩ := exists_of_mem_mapM declared here
  obtain ⟨t, parsed, rfl⟩ := exists_of_map_eq_ok eq
  exact ColumnType.storable_of_parse parsed

/-! ## Files of tables -/

namespace HeapFile

variable {t t' : FileTree} {p : Path} {schema : Schema} {pageSize : Nat} {f : HeapFile}

/-- A table's file can be opened if a record fits a page and the file can be opened. -/
theorem openAt_eq_ok : openAt t p schema pageSize = (t', .ok f) ↔
    f.schema = schema ∧ f.pageSize = pageSize ∧ t.openWithDirectories p = (t', .ok f.location) := by
  obtain ⟨location, schema', pageSize', fits'⟩ := f
  rw [openAt, Layout.new]
  by_cases fits : 0 < slotCapacity schema.recordSize pageSize
  · rw [dif_pos fits]
    constructor
    · intro h
      dsimp only at h
      split at h
      · next opened =>
        cases h
        exact ⟨rfl, rfl, opened⟩
      · cases h
    · rintro ⟨rfl, rfl, opened⟩
      dsimp only
      rw [opened]
      rfl
  · rw [dif_neg fits]
    constructor
    · intro h
      cases h
    · rintro ⟨rfl, rfl, -⟩
      exact absurd fits' fits

/-- A table's file is not the root, and has the columns that it has been opened with. -/
theorem spec_of_openAt (h : openAt t p schema pageSize = (t', .ok f)) :
    f.location ≠ [] ∧ f.schema = schema := by
  obtain ⟨columns, -, opened⟩ := openAt_eq_ok.mp h
  exact ⟨(FileTree.exists_file_of_open opened).1, columns⟩

/-- A table's file can be made if nothing is found in its place and it can be opened. -/
theorem createAt_eq_ok : createAt t p schema pageSize = (t', .ok f) ↔
    t.exists? p = false ∧ openAt t p schema pageSize = (t', .ok f) := by
  rw [createAt]
  split
  · next found => simp [found]
  · next missing => simp [missing]

/-- To open a table's file changes nothing that was there before, whether or not it can be opened. -/
theorem makes_openAt (t : FileTree) (p : Path) (schema : Schema) (pageSize : Nat) :
    t.Makes (openAt t p schema pageSize).1 := by
  have opens := FileTree.makes_openWithDirectories t p
  rw [openAt]
  split
  · exact .refl t
  · split
    · next opened => exact (congrArg Prod.fst opened) ▸ opens
    · next failed => exact (congrArg Prod.fst failed) ▸ opens

/-- To make a table's file changes nothing that was there before, whether or not it can be made. -/
theorem makes_createAt (t : FileTree) (p : Path) (schema : Schema) (pageSize : Nat) :
    t.Makes (createAt t p schema pageSize).1 := by
  rw [createAt]
  split
  · exact .refl t
  · exact makes_openAt t p schema pageSize

end HeapFile

namespace Catalog

variable {c : Catalog}

/-- A catalog stays storable with a table that can be stored. -/
theorem Storable.add (h : c.Storable) {f : HeapFile} (place : f.location ≠ [])
    (columns : f.schema.Storable) (name : String) (primaryKey : Option String) :
    (c.add name f primaryKey).Storable := by
  intro entry mem
  rcases CatalogState.mem_of_mem_add mem with old | rfl
  · exact h entry old
  · exact ⟨place, columns⟩

end Catalog

namespace Tables

variable {s s' : Tables}

/-- A table can be opened with columns that can be stored. -/
theorem storable_openTable (h : s.catalog.Storable) {schema : Schema} (columns : schema.Storable)
    (p : Path) (name : String) (primaryKey : Option String) (pageSize : Nat) :
    (s.openTable p name schema primaryKey pageSize).1.catalog.Storable := by
  rw [openTable]
  split
  · exact h
  · split
    · exact h
    · next opened =>
      obtain ⟨place, rfl⟩ := HeapFile.spec_of_openAt opened
      exact h.add place columns name primaryKey

/-- Declared tables have columns that can be stored. -/
theorem storable_declare (h : s.catalog.Storable) (base : Path) (pageSize : Nat) (d : TableDecl) :
    (s.declare base pageSize d).1.catalog.Storable := by
  rw [declare]
  split
  · exact h
  · next declared => exact storable_openTable h (TableDecl.storable_of_schema declared) _ _ _ _

theorem storable_declareAll (h : s.catalog.Storable) (base : Path) (pageSize : Nat)
    (seen : List String) (ds : List TableDecl) :
    (declareAll base pageSize s seen ds).1.catalog.Storable := by
  induction ds generalizing s seen with
  | nil => exact h
  | cons d ds ih =>
    have first := storable_declare h base pageSize d
    rw [declareAll]
    split
    · exact h
    · split
      · next declared =>
        rw [declared] at first
        exact first
      · next declared =>
        rw [declared] at first
        exact ih first _

end Tables

/-! ## A sample table -/

/-- One column of integers. -/
def numberColumns : Schema := ⟨[⟨"n", .int⟩]⟩

/-- A record of one integer fits a page of nine octets. -/
theorem number_fits : 0 < slotCapacity numberColumns.recordSize 9 := by decide

/-- A table of integers whose file is at a place. Two records fit a page. -/
def numbersAt (place : Location) : HeapFile := ⟨place, ⟨numberColumns, 9, number_fits⟩⟩

/-- The table of integers in the file `t`. -/
def numbers : HeapFile := numbersAt ["t"]

/-- A record of one integer. -/
def numberRecord (n : Int32) : Tuple := ⟨numberColumns, [.int n], none⟩

/-- A page of this table. -/
def numberPage (n : Nat) : PageId := ⟨numbers.id, n⟩

namespace Engine

/-- An engine with nothing in memory and without locks, for tables that can be stored. -/
structure Fresh (e : Engine) : Prop where
  storable : e.catalog.Storable
  pool : ∃ capacity, e.pool = Pool.new capacity
  locks : e.locks = ∅

namespace Fresh

variable {e : Engine} (h : e.Fresh)

include h

theorem page?_eq_none (p : PageId) : e.pool.page? p = none := by
  obtain ⟨capacity, pool⟩ := h.pool
  rw [pool]
  rfl

theorem owner?_eq_none (p : PageId) : e.owner? p = none := by
  rw [owner?, h.page?_eq_none]
  rfl

theorem sound : e.Sound := by
  obtain ⟨capacity, pool⟩ := h.pool
  have nothing := h.page?_eq_none
  have nobody := h.owner?_eq_none
  refine ⟨⟨h.storable, h.locks ▸ .empty, ?pool, ?resident, ?clean⟩, ?noted, ?locked⟩
  case pool =>
    rw [pool]
    exact ⟨List.nodup_nil, nofun⟩
  case resident =>
    intro p page here
    simp [nothing] at here
  case clean =>
    intro p page stored here
    simp [nothing] at here
  case noted =>
    intro t p
    have unnoted : ¬ e.pool.Noted t p := by
      rw [pool]
      exact List.not_mem_nil
    simp [unnoted, nobody]
  case locked =>
    intro t p owner
    simp [nobody] at owner

/-- Tables may be opened before anybody works with them. -/
theorem openTable {schema : Schema} (columns : schema.Storable) (p : Path) (name : String)
    (primaryKey : Option String) : (e.openTable p name schema primaryKey).1.Fresh :=
  ⟨Tables.storable_openTable h.storable columns _ _ _ _, h.pool, h.locks⟩

end Fresh

variable {e : Engine} {disk disk' : FileTree}

theorem fresh_new (disk : FileTree) (config : Config) : (new disk config).Fresh :=
  ⟨nofun, ⟨_, rfl⟩, rfl⟩

theorem fresh_of_ofConfig {config : Config} (h : ofConfig disk config = .ok e) : e.Fresh := by
  rw [ofConfig] at h
  split at h
  · obtain rfl := Except.ok.inj h
    exact fresh_new disk config
  · exact nomatch h

/-- A schema document describes a database that can be worked with. -/
theorem fresh_of_openSchema {p : Path} {pageSize? poolPages? : Option Nat}
    (h : openSchema disk p pageSize? poolPages? = (disk', .ok e)) : e.Fresh := by
  rw [openSchema] at h
  split at h
  · exact nomatch (Prod.mk.inj h).2
  · next d loaded =>
    dsimp only at h
    split at h
    · exact nomatch (Prod.mk.inj h).2
    · next new configured =>
      have fresh := fresh_of_ofConfig configured
      split at h
      · exact nomatch (Prod.mk.inj h).2
      · next s ids registered =>
        obtain rfl := Except.ok.inj (Prod.mk.inj h).2
        have same : (new.tables.register d p.parent _).1 = s := congrArg Prod.fst registered
        have storable : s.catalog.Storable :=
          same ▸ Tables.storable_declareAll (s := new.tables) fresh.storable p.parent _ [] d.tables
        exact ⟨storable, fresh.pool, fresh.locks⟩

/-- An engine with the table `numbers`, whose file is empty. One page fits memory. -/
def sample : Engine :=
  { new ((FileTree.empty "").write ["t"] []) ⟨9, 1⟩ with
    catalog := (∅ : Catalog).add "t" numbers none }

theorem fresh_sample : sample.Fresh where
  storable := by
    refine Catalog.Storable.add (c := ∅) nofun (f := numbers) (List.cons_ne_nil _ _) ?_ _ _
    intro t mem
    obtain rfl := List.mem_singleton.mp mem
    trivial
  pool := ⟨1, rfl⟩
  locks := rfl

end Engine

end RowStore
