import RowStore.CommandLine.Run
import RowStore.Proofs.Database.Loading
import RowStore.Proofs.Scan.Alias

/-! # Conversions
A conversion makes a table's file, loads records into it, and commits. What it comes to is told with what
a new database finds in the file (`scanned`). If it is certain whether the output is there, then either
all records have become rows, each in its place (`Converted`), or what was there before is as it was, and
nothing new holds a tuple (`LeavesNoTuples`). Main statements: `converted_or_fails`, and
`appends_to_unseen`, an output that is there without being found. -/

namespace RowStore

/-- How a file is divided is told by its columns and the size of its pages. -/
theorem HeapFile.layout_eq {f : HeapFile} {schema : Schema} {pageSize : Nat}
    (fits : 0 < slotCapacity schema.recordSize pageSize) (columns : f.schema = schema)
    (size : f.pageSize = pageSize) : f.layout = ⟨schema, pageSize, fits⟩ := by
  subst columns size
  rfl

namespace CommandLine

variable {disk disk' made : FileTree} {config : Config} {file input output : String}
  {types : List ColumnType} {delimiter : Char} {e e' : Engine} {f : HeapFile}

/-! ## Works -/

theorem run_onEngine {ε α : Type} (wrap : ε → DatabaseError) (f : Engine → Engine × Except ε α)
    (e : Engine) : (onEngine wrap f).run.run e = match f e with
      | (e, .ok a) => (.ok a, e)
      | (e, .error err) => (.error (wrap err), e) := by
  rw [onEngine, run_bind, run_get]
  dsimp only
  rcases f e with ⟨e, _ | _⟩ <;> rfl

theorem run_pathOf (text : String) (e : Engine) :
    (pathOf text).run.run e = (.ok (.parse e.disk.root text), e) := rfl

/-- A database with one table. -/
def single (disk : FileTree) (config : Config) (f : HeapFile) : Engine :=
  { Engine.new disk config with catalog := (∅ : Catalog).add tableName f none }

theorem find?_single (disk : FileTree) (config : Config) (f : HeapFile) :
    (single disk config f).catalog.find? f.id = some ⟨tableName, f, none⟩ :=
  Catalog.find?_add_self ..

theorem file?_single (disk : FileTree) (config : Config) (f : HeapFile) :
    (single disk config f).catalog.file? f.id = some f := by
  rw [CatalogState.file?, find?_single]
  rfl

theorem fresh_single (place : f.location ≠ []) (columns : f.schema.Storable) (disk : FileTree)
    (config : Config) : (single disk config f).Fresh where
  storable := Catalog.Storable.add (c := ∅) nofun place columns _ _
  pool := ⟨config.poolPages, rfl⟩
  locks := rfl

/-- It has one file. -/
theorem eq_of_places_single {l : Location} (h : (single disk config f).catalog.Places l) :
    l = f.location := by
  obtain ⟨table, g, found, rfl⟩ := h
  obtain ⟨entry, here, rfl⟩ := Option.map_eq_some_iff.mp found
  rcases CatalogState.mem_of_mem_add (CatalogState.mem_entries_of_find? _ here) with old | rfl
  · exact nomatch old
  · rfl

/-- What a conversion does once the output has been made. -/
theorem run_loading (e : Engine) (table : TableId) (input output : String) (delimiter : UInt8) :
    (show Work String from do
      let inputPath ← pathOf input
      let count ← onEngine id (·.load onlyTxn table inputPath delimiter)
      commit
      return "Wrote " ++ toString count ++ " rows to " ++ output ++ "\n").run.run e =
    match e.load onlyTxn table (.parse e.disk.root input) delimiter with
    | (e, .error err) => (.error err, e)
    | (e, .ok count) =>
      match e.complete onlyTxn true with
      | (e, .error err) => (.error (.file err), e)
      | (e, .ok ()) => (.ok ("Wrote " ++ toString count ++ " rows to " ++ output ++ "\n"), e) := by
  rw [run_bind, run_pathOf]
  dsimp only
  rw [run_bind, run_onEngine]
  rcases e.load onlyTxn table (.parse e.disk.root input) delimiter with ⟨loaded, err | count⟩
  · rfl
  · dsimp only
    rw [run_bind, commit, run_onEngine]
    rcases loaded.complete onlyTxn true with ⟨committed, err | _⟩ <;> rfl

/-- What a conversion does, one thing after another. -/
theorem run_convert (disk : FileTree) (config : Config) (input output : String)
    (types : List ColumnType) (delimiter : Char) :
    (convert input output types delimiter).run.run (Engine.new disk config) =
      if delimiter.toNat ≥ UInt8.size then
        (.error (.config (.wideDelimiter delimiter)), Engine.new disk config)
      else match HeapFile.createAt disk (.parse disk.root output) (schemaOf types) config.pageSize with
        | (made, .error err) => (.error (.file err), Engine.new made config)
        | (made, .ok f) =>
          match (single made config f).load onlyTxn f.id (.parse made.root input)
              delimiter.toNat.toUInt8 with
          | (e, .error err) => (.error err, e)
          | (e, .ok count) =>
            match e.complete onlyTxn true with
            | (e, .error err) => (.error (.file err), e)
            | (e, .ok ()) =>
              (.ok ("Wrote " ++ toString count ++ " rows to " ++ output ++ "\n"), e) := by
  rw [convert]
  split
  · rfl
  · rw [run_bind, run_pathOf]
    dsimp only
    rw [run_bind, run_onEngine]
    have start : (Engine.new disk config).disk = disk ∧ (Engine.new disk config).config = config :=
      ⟨rfl, rfl⟩
    rw [start.1, start.2]
    rcases HeapFile.createAt disk (.parse disk.root output) (schemaOf types) config.pageSize with
      ⟨made, err | f⟩
    · rfl
    · exact run_loading (single made config f) f.id input output delimiter.toNat.toUInt8

/-- To open a file that is there is to have a database with this table. -/
theorem run_openExisting (there : disk.exists? (.parse disk.root file) = true)
    (opened : HeapFile.openAt disk (.parse disk.root file) (schemaOf types) config.pageSize
      = (disk, .ok f)) :
    (openExisting file types).run.run (Engine.new disk config)
      = (.ok f.id, single disk config f) := by
  rw [openExisting, run_bind, run_pathOf]
  dsimp only
  rw [run_bind, run_get]
  have found : (Engine.new disk config).disk.exists? (.parse disk.root file) = true := there
  have tables : (Engine.new disk config).openTable (.parse disk.root file) tableName (schemaOf types)
      none = (single disk config f, .ok f.id) := by
    simp only [Engine.openTable, Tables.openTable, Engine.tables, Engine.new, opened]
    rfl
  dsimp only
  rw [show (Engine.new disk config).disk.root = disk.root from rfl, if_pos found, run_onEngine, tables]

/-- What a database shows of a table. -/
def scanOf (f : HeapFile) : Scan :=
  ⟨.new f, some ⟨f.id, tableName, tableName, f.schema.withAlias tableName⟩⟩

/-- To scan a table is to take all its tuples. -/
theorem run_scanAll {tuples : List Tuple}
    (taken : (single disk config f).tuplesOf onlyTxn (scanOf f) = (e', .ok tuples)) :
    (scanAll f.id).run.run (single disk config f) = (.ok (scanOf f, tuples), e') := by
  have found : (single disk config f).scan f.id tableName = .ok (scanOf f) := by
    rw [Engine.scan, CatalogState.entry, find?_single]
    rfl
  rw [scanAll, run_bind, run_get]
  dsimp only
  rw [found]
  dsimp only
  rw [run_bind, run_onEngine, taken]
  rfl

/-! ## What a new database finds -/

/-- All tuples that a new database finds in a file. -/
def scanned (disk : FileTree) (config : Config) (file : String) (types : List ColumnType) :
    Except DatabaseError (List Tuple) :=
  match Engine.ofConfig disk config with
  | .error err => .error err
  | .ok e => Prod.snd <$> ((openExisting file types >>= scanAll).run.run e).1

/-- A new database finds what is listed. -/
theorem exists_scanned {rows : List (List Value)} (valid : config.fault? = none)
    (there : disk.exists? (.parse disk.root file) = true)
    (opened : HeapFile.openAt disk (.parse disk.root file) (schemaOf types) config.pageSize
      = (disk, .ok f))
    (readable : (single disk config f).Readable onlyTxn f)
    (listed : (single disk config f).listing f = f.placed rows)
    (fits : ∀ values ∈ rows, f.schema.validate values = .ok ()) :
    ∃ tuples, scanned disk config file types = .ok tuples ∧
      tuples.map Tuple.row = (f.placed rows).map PlacedRow.told := by
  have shows : ∀ row ∈ (single disk config f).listing f, (scanOf f).Shows row.2 := by
    intro row mem view shown
    obtain rfl := Option.some.inj shown
    rw [listed, HeapFile.placed] at mem
    obtain ⟨⟨values, i⟩, inside, rfl⟩ := List.mem_map.mp mem
    rw [Schema.validate_withAlias]
    exact fits values (List.fst_mem_of_mem_zipIdx inside)
  have file : (scanOf f).cursor.file = f := rfl
  obtain ⟨e', tuples, taken, -, found⟩ := Engine.exists_tuplesOf readable file shows
  refine ⟨tuples, ?_, listed ▸ found⟩
  rw [scanned, Engine.ofConfig, valid]
  dsimp only
  rw [run_bind, run_openExisting there opened]
  dsimp only
  rw [run_scanAll taken]
  rfl

/-! ## What a conversion leads to -/

/-- What comes of a conversion that goes well: no more records than fit into memory have become rows of a
file, and each database with pages of the same size that is opened on the disk finds these rows there, one
for each record and each in its place. -/
structure Converted (disk : FileTree) (config : Config) (file : String) (types : List ColumnType)
    (f : HeapFile) (records : List Csv.Record) : Prop where
  few : records.length ≤ config.poolPages * f.layout.slotCount
  scanned : ∀ other : Config, other.fault? = none → other.pageSize = config.pageSize → ∃ tuples,
    scanned disk other file types = .ok tuples ∧ tuples.length = records.length ∧
      ∀ i record, records[i]? = some record → ∃ typed shown,
        record.tuple (schemaOf types) = .ok typed ∧ tuples[i]? = some shown ∧
          shown.values = typed.values ∧ shown.id? = some (f.place i)

/-- What a conversion that fails may leave behind: what was there is as it was, and what is new are
directories, and files without tuples. -/
def LeavesNoTuples (disk disk' : FileTree) (layout : Layout) : Prop :=
  ∀ l, disk'.node? l = disk.node? l ∨ disk.node? l = none ∧
    ∀ content, disk'.node? l = some (.file content) → ∀ p page,
      HeapFile.readPage ⟨l, layout⟩ content p = .ok page → page.tuples = []

/-- Directories and empty files hold no tuples. -/
theorem leavesNoTuples_of_makes (makes : disk.Makes disk') (layout : Layout) :
    LeavesNoTuples disk disk' layout := by
  intro l
  refine (makes.node? l).imp_right fun ⟨missing, new⟩ => ⟨missing, fun content here p page read => ?_⟩
  rcases new with directory | empty
  · cases here.symm.trans directory
  · obtain rfl : content = [] := FileNode.file.inj (Option.some.inj (here.symm.trans empty))
    -- the first page would have to be inside the file
    obtain ⟨-, covers, -⟩ := HeapFile.readPage_eq_ok.mp read
    have pos := layout.pageSize_pos
    rw [HeapFile.Covers, HeapFile.offset_succ, List.length_nil] at covers
    exact absurd covers (by simp only [HeapFile.pageSize]; omega)

section Created

variable (storable : (schemaOf types).Storable)
  (foresees : disk.Foresees (.parse disk.root output))
  (created : HeapFile.createAt disk (.parse disk.root output) (schemaOf types) config.pageSize
    = (made, .ok f))

include foresees created

/-- The place of a file that is made was free. -/
theorem node?_of_created : disk.node? f.location = none := by
  obtain ⟨unseen, opened⟩ := HeapFile.createAt_eq_ok.mp created
  obtain ⟨-, -, opened⟩ := HeapFile.openAt_eq_ok.mp opened
  exact foresees unseen f.location (congrArg Prod.snd opened)

include storable

/-- The file that a conversion makes is a table without rows. -/
theorem vacant_of_created (memory : Config) : (single made memory f).Vacant onlyTxn f := by
  obtain ⟨-, opened⟩ := HeapFile.createAt_eq_ok.mp created
  obtain ⟨place, columns⟩ := HeapFile.spec_of_openAt opened
  have fresh := fresh_single place (columns ▸ storable) made memory
  refine (fresh.alone onlyTxn).vacant (file?_single ..) fresh.owner?_eq_none ?_
  -- what is made is empty
  have makes := HeapFile.makes_createAt disk (.parse disk.root output) (schemaOf types) config.pageSize
  rw [created] at makes
  show made.content f.location = []
  rw [FileTree.content]
  rcases makes.node? f.location with same | ⟨-, directory | empty⟩
  · rw [same, node?_of_created foresees created]
  · rw [directory]
  · rw [empty]

/-- A conversion that has not been committed leaves no tuples. -/
theorem leavesNoTuples_of_filling {rows : List (List Value)}
    (filling : Engine.Filling (single made config f) onlyTxn f rows e) :
    LeavesNoTuples disk e.disk f.layout := by
  have vacant := vacant_of_created storable foresees created config
  have makes := HeapFile.makes_createAt disk (.parse disk.root output) (schemaOf types) config.pageSize
  rw [created] at makes
  intro l
  by_cases here : l = f.location
  · subst here
    refine .inr ⟨node?_of_created foresees created, fun content file p page read => ?_⟩
    refine filling.tuples_eq_nil vacant (p := p) ?_
    rwa [Engine.octets, FileTree.content, file]
  · rcases filling.disk.node? l with same | ⟨inside, -⟩
    · rw [same]
      exact leavesNoTuples_of_makes makes f.layout l
    · exact absurd (eq_of_places_single inside) here

/-- A conversion of records that spell tuples, and that find room, is committed. -/
theorem exists_converted {records : List Csv.Record} {typed : List Tuple} (valid : config.fault? = none)
    (filling : Engine.Filling (single made config f) onlyTxn f (typed.map Tuple.values) e)
    (spelt : records.map (·.tuple f.schema) = typed.map .ok) :
    ∃ e', e.complete onlyTxn true = (e', .ok ()) ∧
      Converted e'.disk config output types f records := by
  have vacant := vacant_of_created storable foresees created config
  have makes := HeapFile.makes_createAt disk (.parse disk.root output) (schemaOf types) config.pageSize
  rw [created] at makes
  obtain ⟨-, opened⟩ := HeapFile.createAt_eq_ok.mp created
  obtain ⟨columns, size, opened⟩ := HeapFile.openAt_eq_ok.mp opened
  have each : ∀ i : Nat, (records.map (·.tuple f.schema))[i]? = (typed.map Except.ok)[i]? :=
    fun i => congrArg (·[i]?) spelt
  have fits : ∀ values ∈ typed.map Tuple.values, f.schema.validate values = .ok () := by
    intro values mem
    obtain ⟨tuple, inside, rfl⟩ := List.mem_map.mp mem
    have spelt_by : .ok tuple ∈ records.map (·.tuple f.schema) := spelt ▸ List.mem_map_of_mem inside
    obtain ⟨r, -, eq⟩ := List.mem_map.mp spelt_by
    exact (Csv.Record.accepts_of_tuple eq).fits
  obtain ⟨e', done, rewrites, listed⟩ := filling.exists_listed vacant fits
  have there := FileTree.exists_file_of_open opened
  have keeps : made.Keeps e'.disk := rewrites.keeps fun l inside =>
    eq_of_places_single inside ▸ there.2.2.2
  have root : e'.disk.root = disk.root := keeps.root.trans makes.root
  obtain ⟨found, again⟩ := FileTree.openWithDirectories_again opened keeps
  have length : typed.length = records.length := by
    simpa using (congrArg List.length spelt).symm
  refine ⟨e', done, ?few, fun other other_valid same => ?scanned⟩
  case few =>
    have few := HeapFile.pagesFor_le_iff.mp filling.pagesFor_le
    have capacity : (single made config f).pool.capacity = config.poolPages :=
      Nat.max_eq_left (Config.fault?_eq_none.mp valid).2
    rwa [List.length_map, length, capacity] at few
  case scanned =>
    have reopened : HeapFile.openAt e'.disk (.parse e'.disk.root output) (schemaOf types) other.pageSize
        = (e'.disk, .ok f) :=
      HeapFile.openAt_eq_ok.mpr ⟨columns, size.trans same.symm, root ▸ again⟩
    have fresh := fresh_single there.1 (columns ▸ storable) e'.disk other
    obtain ⟨readable, listing⟩ := listed (single e'.disk other f) fresh rfl rfl onlyTxn
    obtain ⟨tuples, scan, rows⟩ :=
      exists_scanned other_valid (root ▸ found) reopened readable listing fits
    refine ⟨tuples, scan, ?_, fun i record here => ?_⟩
    · have same_length := congrArg List.length rows
      simpa [HeapFile.placed, length] using same_length
    · have spelt_here := each i
      rw [List.getElem?_map, List.getElem?_map, here] at spelt_here
      obtain ⟨tuple, typed_here, eq⟩ := Option.map_eq_some_iff.mp spelt_here.symm
      have row := congrArg (·[i]?) rows
      simp only [List.getElem?_map, HeapFile.getElem?_placed, typed_here, Option.map_some] at row
      obtain ⟨shown, shown_here, told⟩ := Option.map_eq_some_iff.mp row
      obtain ⟨id, values⟩ := Prod.mk.inj told
      exact ⟨tuple, shown, columns ▸ eq.symm, shown_here, values, id⟩

end Created

theorem schemaOf_types (types : List ColumnType) : (schemaOf types).types = types := by
  rw [Schema.types, schemaOf, List.map_map]
  exact List.zipIdx_map_fst 0 types

/-- Types that are read from their names can be stored. -/
theorem storable_of_named (named : ∀ type ∈ types, ∃ name, ColumnType.parse name = .ok type) :
    (schemaOf types).Storable := by
  intro type mem
  rw [schemaOf_types] at mem
  obtain ⟨name, parsed⟩ := named type mem
  exact ColumnType.storable_of_parse parsed

/-- **What a conversion does.** Let a record of columns of given types fit a page, and let it be certain
whether the output is there. Then the conversion goes well, and each record of the input, as it is after
the output has been made, has become a row of the output, in its place; or it fails, what was there before
is as it was, and nothing that is new holds a tuple. The command is run on a file system that refuses no
write and no read: the faults of a commit (`Faults`) do not occur. -/
theorem converted_or_fails {said : Output}
    (named : ∀ type ∈ types, ∃ name, ColumnType.parse name = .ok type)
    (fits : 0 < slotCapacity (schemaOf types).recordSize config.pageSize)
    (foresees : disk.Foresees (.parse disk.root output))
    (ran : runCommand disk config (.convert input output types delimiter) = (disk', said)) :
    (∃ made f bytes, HeapFile.createAt disk (.parse disk.root output) (schemaOf types) config.pageSize
        = (made, .ok f) ∧ made.read (.parse made.root input) = .ok bytes ∧
      said = ⟨0, "Wrote " ++ toString (Csv.read delimiter.toNat.toUInt8 bytes).length ++ " rows to "
        ++ output ++ "\n", ""⟩ ∧
      Converted disk' config output types f (Csv.read delimiter.toNat.toUInt8 bytes)) ∨
    said.code = 1 ∧ LeavesNoTuples disk disk' ⟨schemaOf types, config.pageSize, fits⟩ := by
  have storable := storable_of_named named
  have makes := HeapFile.makes_createAt disk (.parse disk.root output) (schemaOf types) config.pageSize
  have still : LeavesNoTuples disk disk ⟨schemaOf types, config.pageSize, fits⟩ := fun _ => .inl rfl
  rw [runCommand, Engine.ofConfig] at ran
  cases valid : config.fault? with
  | some fault =>
    simp only [valid] at ran
    obtain ⟨rfl, rfl⟩ := Prod.mk.inj ran
    exact .inr ⟨rfl, still⟩
  | none =>
    simp only [valid] at ran
    have run := run_convert disk config input output types delimiter
    rw [StateT.run] at run
    simp only [Command.work, run] at ran
    split at ran
    · obtain ⟨rfl, rfl⟩ := Prod.mk.inj ran
      exact .inr ⟨rfl, still⟩
    · rcases created : HeapFile.createAt disk (.parse disk.root output) (schemaOf types)
        config.pageSize with ⟨made, err | f⟩
      · rw [created] at ran makes
        obtain ⟨rfl, rfl⟩ := Prod.mk.inj ran
        exact .inr ⟨rfl, leavesNoTuples_of_makes makes _⟩
      · obtain ⟨columns, size, -⟩ :=
          HeapFile.openAt_eq_ok.mp (HeapFile.createAt_eq_ok.mp created).2
        have layout := HeapFile.layout_eq fits columns size
        have vacant := vacant_of_created storable foresees created config
        obtain ⟨e, result, typed, loaded, filling, done⟩ :=
          vacant.exists_load (.parse made.root input) delimiter.toNat.toUInt8
        simp only [created, loaded] at ran
        cases result with
        | error err =>
          obtain ⟨rfl, rfl⟩ := Prod.mk.inj ran
          refine .inr ⟨rfl, ?_⟩
          exact layout ▸ leavesNoTuples_of_filling storable foresees created filling
        | ok n =>
          obtain ⟨bytes, read, rfl, spelt⟩ := done n rfl
          obtain ⟨e', committed, converted⟩ :=
            exists_converted storable foresees created valid filling spelt
          simp only [committed] at ran
          obtain ⟨rfl, rfl⟩ := Prod.mk.inj ran
          exact .inl ⟨made, f, bytes, rfl, read, rfl, converted⟩

/-- Two numbers, and room for two numbers in a page of 9 octets. -/
def twoNumbers : FileTree :=
  (FileTree.empty "").write ["in.csv"] [0x31, 0x0A, 0x32, 0x0A]

/-- Two numbers fill the only page that fits memory, and a database with more memory finds them there. -/
theorem converted_two_numbers : ∃ disk said,
    runCommand twoNumbers ⟨9, 1⟩ (.convert "in.csv" "x.dat" [.int] ',') = (disk, said) ∧
    said = ⟨0, "Wrote 2 rows to x.dat\n", ""⟩ ∧
    ∃ tuples shown, scanned disk ⟨9, 5⟩ "x.dat" [.int] = .ok tuples ∧ tuples.length = 2 ∧
      tuples[1]? = some shown ∧ shown.values = [.int 2] ∧
      shown.id? = some ⟨⟨.file ["x.dat"], 0⟩, 1⟩ := by
  rcases ran : runCommand twoNumbers ⟨9, 1⟩ (.convert "in.csv" "x.dat" [.int] ',') with ⟨disk, said⟩
  have well : said = ⟨0, "Wrote 2 rows to x.dat\n", ""⟩ := by
    have done : (runCommand twoNumbers ⟨9, 1⟩ (.convert "in.csv" "x.dat" [.int] ',')).2
        = ⟨0, "Wrote 2 rows to x.dat\n", ""⟩ := by decide +kernel
    rwa [ran] at done
  refine ⟨disk, said, rfl, well, ?_⟩
  have named : ∀ type ∈ [ColumnType.int], ∃ name, ColumnType.parse name = .ok type := by
    simpa using ⟨"int", by decide +kernel⟩
  have foresees : twoNumbers.Foresees (.parse twoNumbers.root "x.dat") :=
    FileTree.foresees_of_isDirectory_parent (by decide +kernel)
  have outcome := converted_or_fails named (by decide +kernel) foresees ran
  rcases outcome with ⟨made, f, bytes, created, read, -, converted⟩ | ⟨failed, -⟩
  · -- what has been made, and what is read then
    have at_start : (HeapFile.createAt twoNumbers (.parse "" "x.dat") (schemaOf [.int]) 9).2
        = .ok ⟨["x.dat"], ⟨schemaOf [.int], 9, by decide +kernel⟩⟩ := by decide +kernel
    have records : (HeapFile.createAt twoNumbers (.parse "" "x.dat") (schemaOf [.int]) 9).1.read
        (.parse "" "in.csv") = .ok [0x31, 0x0A, 0x32, 0x0A] := by decide +kernel
    have root := (HeapFile.makes_createAt twoNumbers (.parse "" "x.dat") (schemaOf [.int]) 9).root
    have created : HeapFile.createAt twoNumbers (.parse "" "x.dat") (schemaOf [.int]) 9
      = (made, .ok f) := created
    rw [created] at at_start records root
    obtain rfl := Except.ok.inj at_start
    rw [show made.root = "" from root] at read
    obtain rfl := Except.ok.inj (records.symm.trans read)
    obtain ⟨tuples, scan, length, each⟩ := converted.scanned ⟨9, 5⟩ rfl rfl
    obtain ⟨typed, shown, spelt, here, values, id⟩ := each 1 ⟨2, [[0x32]]⟩ (by decide +kernel)
    have two : Csv.Record.tuple ⟨2, [[0x32]]⟩ (schemaOf [.int])
        = .ok ⟨schemaOf [.int], [.int 2], none⟩ := by decide +kernel
    obtain rfl := Except.ok.inj (two.symm.trans spelt)
    refine ⟨tuples, shown, scan, length.trans ?_, here, values, id.trans ?_⟩
    · decide +kernel
    · decide +kernel
  · rw [well] at failed
    cases failed

/-- A tree with a full page of two numbers, and with records the second of which spells no number. -/
def crowded : FileTree :=
  ((FileTree.empty "").write ["x.dat"] [3, 1, 0, 0, 0, 2, 0, 0, 0]).write ["in.csv"]
    [0x31, 0x0A, 0x78, 0x0A]

/-- **A conversion that fails may change a file that was there.** The output is not found as long as a
directory on the way to it is missing, but when this directory has been made, the file is opened and gets
a page more. -/
theorem appends_to_unseen : ∃ disk said,
    runCommand crowded ⟨9, 50⟩ (.convert "in.csv" "d/../x.dat" [.int] ',') = (disk, said) ∧
    said = ⟨1, "", "Error: Line 2: cannot parse \"x\" as int\n"⟩ ∧
    crowded.node? ["x.dat"] = some (.file [3, 1, 0, 0, 0, 2, 0, 0, 0]) ∧
    disk.node? ["x.dat"] = some (.file [3, 1, 0, 0, 0, 2, 0, 0, 0, 0, 0, 0, 0, 0, 0, 0, 0, 0]) :=
  ⟨_, _, rfl, by decide +kernel, by decide +kernel, by decide +kernel⟩

end CommandLine

end RowStore
