import RowStore.Storage.HeapFile

/-! # The maps of a catalog
A catalog finds its tables by their ids, and the ids of the tables by their names. The two maps change
together: a registration takes the table of the name out of both, then the table of the file, which may
be another one, and puts the new table into both. Main statement: `CatalogState.Consistent.add`, by which
names and ids keep standing for each other. -/

namespace RowStore

/-- A registered table. -/
structure CatalogEntry where
  name : String
  file : HeapFile
  primaryKey : Option String
  deriving DecidableEq

/-- The table's id. -/
def CatalogEntry.id (e : CatalogEntry) : TableId :=
  e.file.id

/-- What can go wrong with a catalog. -/
inductive CatalogError where
  | io (e : IoError)
  /-- A document is no valid JSON, or does not describe a database. -/
  | json
  | nameNotFound (name : String)
  | tableNotFound (table : TableId)
  /-- A document declares two tables of one name. -/
  | duplicateTable (name : String)
  | record (e : RecordError)
  | file (e : FileError)
  deriving DecidableEq

/-- Says what went wrong. -/
def CatalogError.message : CatalogError → String
  | io e => "IO error: " ++ e.message
  | json => "JSON error: the document does not describe a database"
  | nameNotFound name => "Table " ++ name ++ " not found"
  | tableNotFound table => "Table " ++ table.text ++ " not found"
  | duplicateTable name => "Table " ++ name ++ " declared twice"
  | record e => e.message
  | file e => e.message

/-- The tables by their ids, and the ids by the names of the tables. -/
structure CatalogState where
  tables : FinMap TableId CatalogEntry
  names : FinMap String TableId
  deriving DecidableEq

namespace CatalogState

/-- The maps without tables. -/
def empty : CatalogState := ⟨∅, ∅⟩

instance : EmptyCollection CatalogState := ⟨empty⟩

instance : Inhabited CatalogState := ⟨∅⟩

/-- Forgets all tables. -/
def clear (_ : CatalogState) : CatalogState := ⟨∅, ∅⟩

/-! ## Looking up -/

/-- The registered tables. -/
def entries (s : CatalogState) : List CatalogEntry :=
  s.tables.toList.map Prod.snd

/-- The table of an id. -/
def find? (s : CatalogState) (table : TableId) : Option CatalogEntry :=
  s.tables.get? table

/-- The file of a table. -/
def file? (s : CatalogState) (table : TableId) : Option HeapFile :=
  (s.find? table).map CatalogEntry.file

/-- The table of an id, or an error. -/
def entry (s : CatalogState) (table : TableId) : Except CatalogError CatalogEntry :=
  match s.find? table with
  | some e => .ok e
  | none => .error (.tableNotFound table)

/-- The id of the table of a name. -/
def tableId (s : CatalogState) (name : String) : Except CatalogError TableId :=
  match s.names.get? name with
  | some id => .ok id
  | none => .error (.nameNotFound name)

/-- The name of a table. -/
def tableName (s : CatalogState) (table : TableId) : Except CatalogError String :=
  CatalogEntry.name <$> s.entry table

/-- The columns of a table. -/
def schema (s : CatalogState) (table : TableId) : Except CatalogError Schema :=
  (·.file.schema) <$> s.entry table

/-- The primary key of a table, if it has one. -/
def primaryKey (s : CatalogState) (table : TableId) : Except CatalogError (Option String) :=
  CatalogEntry.primaryKey <$> s.entry table

/-- The names with the ids that they stand for, in the order of the names. -/
def sorted (s : CatalogState) : List (String × TableId) :=
  s.names.toList.mergeSort fun a b => (compare a.1 b.1).isLE

/-- The ids of all tables, in the order of their names. -/
def tableIds (s : CatalogState) : List TableId :=
  s.sorted.map Prod.snd

/-! ## Registering -/

/-- Takes the table of a name out, if there is one. -/
def removeName (s : CatalogState) (name : String) : CatalogState :=
  match s.names.get? name with
  | some old => ⟨s.tables.erase old, s.names.erase name⟩
  | none => s

/-- Takes the table of an id out with its name, if there is one. -/
def removeTable (s : CatalogState) (table : TableId) : CatalogState :=
  match s.tables.get? table with
  | some old => ⟨s.tables.erase table, s.names.erase old.name⟩
  | none => s

/-- Puts a table in, under its name and the id of its file. -/
def put (s : CatalogState) (e : CatalogEntry) : CatalogState :=
  ⟨s.tables.insert e.id e, s.names.insert e.name e.id⟩

/-- Registers a table, in place of those that have its name or its file: the one that has the name is
taken out first, and then the one that has the id. -/
def add (s : CatalogState) (name : String) (file : HeapFile) (primaryKey : Option String) :
    CatalogState :=
  ((s.removeName name).removeTable file.id).put ⟨name, file, primaryKey⟩

/-- Names and ids stand for each other. -/
structure Consistent (s : CatalogState) : Prop where
  /-- A name stands for an id just if the table of this id has the name. -/
  paired : ∀ name id, s.names.get? name = some id ↔ ∃ e, s.tables.get? id = some e ∧ e.name = name
  /-- A table is found under the id of its file. -/
  keyed : ∀ id e, s.tables.get? id = some e → e.id = id
  /-- No name is listed twice. -/
  distinct : s.names.keys.Nodup

variable {s : CatalogState} {name : String} {id : TableId} {e : CatalogEntry}

theorem consistent_empty : (∅ : CatalogState).Consistent where
  paired _ _ := ⟨nofun, nofun⟩
  keyed := nofun
  distinct := List.nodup_nil

/-- A table can be taken out, if it is taken out of both maps. -/
theorem Consistent.erase (h : s.Consistent) (here : s.tables.get? id = some e) :
    (⟨s.tables.erase id, s.names.erase e.name⟩ : CatalogState).Consistent where
  paired name other := by
    simp only [FinMap.get?_erase]
    constructor
    · intro found
      split at found
      · cases found
      · next ne =>
        obtain ⟨e', here', named⟩ := (h.paired name other).mp found
        refine ⟨e', ?_, named⟩
        rw [if_neg, here']
        rintro rfl
        exact ne (named ▸ Option.some.inj (here'.symm.trans here) ▸ rfl)
    · rintro ⟨e', here', named⟩
      split at here'
      · cases here'
      · next ne =>
        have found := (h.paired name other).mpr ⟨e', here', named⟩
        rw [if_neg, found]
        rintro rfl
        have own := (h.paired e.name id).mpr ⟨e, here, rfl⟩
        exact ne (Option.some.inj (found.symm.trans own))
  keyed other e' here' := by
    rw [FinMap.get?_erase] at here'
    split at here'
    · cases here'
    · exact h.keyed other e' here'
  distinct := FinMap.nodup_keys_erase h.distinct _

theorem Consistent.removeName (h : s.Consistent) (name : String) : (s.removeName name).Consistent := by
  rw [CatalogState.removeName]
  split
  · next old found =>
    obtain ⟨e, here, rfl⟩ := (h.paired name old).mp found
    exact h.erase here
  · exact h

theorem Consistent.removeTable (h : s.Consistent) (id : TableId) : (s.removeTable id).Consistent := by
  rw [CatalogState.removeTable]
  split
  · next old here => exact h.erase here
  · exact h

/-- A table whose name and id are free can be put in. -/
theorem Consistent.put (h : s.Consistent) (free_name : s.names.get? e.name = none)
    (free_id : s.tables.get? e.id = none) : (s.put e).Consistent where
  paired name id := by
    simp only [CatalogState.put, FinMap.get?_insert]
    have name_new : ∀ other, s.tables.get? id = some other → other.name ≠ e.name := by
      intro other here same
      cases free_name.symm.trans ((h.paired e.name id).mpr ⟨other, here, same⟩)
    have id_new : s.names.get? name ≠ some e.id := by
      intro found
      obtain ⟨other, here, -⟩ := (h.paired name e.id).mp found
      cases free_id.symm.trans here
    by_cases named : name = e.name <;> by_cases same : id = e.id
    · simp [named, same]
    · simpa [named, same, Ne.symm same] using name_new
    · simpa [named, same, Ne.symm named] using id_new
    · simp [named, same, h.paired]
  keyed id other here := by
    rw [CatalogState.put, FinMap.get?_insert] at here
    split at here
    · next same => exact Option.some.inj here ▸ same.symm
    · exact h.keyed id other here
  distinct := FinMap.nodup_keys_insert h.distinct _ _

/-! ## What is found after a registration -/

theorem get?_tables_removeName (s : CatalogState) (name : String) (id : TableId) :
    (s.removeName name).tables.get? id
      = if s.names.get? name = some id then none else s.tables.get? id := by
  rw [removeName]
  cases s.names.get? name with
  | none => simp
  | some old => simp [FinMap.get?_erase, eq_comm]

theorem get?_names_removeName (s : CatalogState) (name other : String) :
    (s.removeName name).names.get? other = if other = name then none else s.names.get? other := by
  rw [removeName]
  cases found : s.names.get? name with
  | none => exact FinMap.get?_of_missing found other
  | some old => exact FinMap.get?_erase ..

theorem get?_tables_removeTable (s : CatalogState) (id other : TableId) :
    (s.removeTable id).tables.get? other = if other = id then none else s.tables.get? other := by
  rw [removeTable]
  cases found : s.tables.get? id with
  | none => exact FinMap.get?_of_missing found other
  | some old => exact FinMap.get?_erase ..

/-- The name that goes with a table is the one that stands for its id. -/
theorem Consistent.get?_names_removeTable (h : s.Consistent) (id : TableId) (name : String) :
    (s.removeTable id).names.get? name
      = if s.names.get? name = some id then none else s.names.get? name := by
  rw [CatalogState.removeTable]
  cases here : s.tables.get? id with
  | none =>
    dsimp only
    split
    · next found =>
      obtain ⟨e, there, -⟩ := (h.paired name id).mp found
      cases here.symm.trans there
    · rfl
  | some old =>
    have same : s.names.get? name = some id ↔ name = old.name := by
      simp [h.paired, here, eq_comm]
    simp [FinMap.get?_erase, same]

/-- Both the name and the id are free when the new table is put in, so a registration leaves the maps
consistent. -/
theorem Consistent.add (h : s.Consistent) (name : String) (file : HeapFile)
    (primaryKey : Option String) : (s.add name file primaryKey).Consistent := by
  refine ((h.removeName name).removeTable file.id).put ?free_name ?free_id
  case free_name =>
    rw [(h.removeName name).get?_names_removeTable, get?_names_removeName]
    simp
  case free_id =>
    exact (get?_tables_removeTable ..).trans (if_pos rfl)

/-- After a registration the new table has its id, the table of its name is gone, and every other id has
the table that it had. -/
theorem find?_add (s : CatalogState) (name : String) (file : HeapFile) (primaryKey : Option String)
    (id : TableId) : (s.add name file primaryKey).find? id =
      if id = file.id then some ⟨name, file, primaryKey⟩
      else if s.names.get? name = some id then none else s.find? id := by
  simp only [find?, add, put, CatalogEntry.id, FinMap.get?_insert, get?_tables_removeTable,
    get?_tables_removeName]
  split <;> rfl

@[simp] theorem find?_add_self (s : CatalogState) (name : String) (file : HeapFile)
    (primaryKey : Option String) :
    (s.add name file primaryKey).find? file.id = some ⟨name, file, primaryKey⟩ := by
  rw [find?_add, if_pos rfl]

/-- After a registration the new name stands for the id of the file, the name of the table that had this
id is gone, and every other name stands for what it stood for. -/
theorem Consistent.get?_names_add (h : s.Consistent) (name : String) (file : HeapFile)
    (primaryKey : Option String) (other : String) :
    (s.add name file primaryKey).names.get? other =
      if other = name then some file.id
      else if s.names.get? other = some file.id then none else s.names.get? other := by
  simp only [CatalogState.add, CatalogState.put, CatalogEntry.id, FinMap.get?_insert,
    (h.removeName name).get?_names_removeTable, get?_names_removeName]
  split <;> rfl

/-! ## What is registered -/

theorem mem_entries_of_find? (s : CatalogState) {table : TableId} {e : CatalogEntry}
    (h : s.find? table = some e) : e ∈ s.entries :=
  List.mem_map_of_mem (f := Prod.snd) (FinMap.mem_toList_of_get? h)

theorem mem_of_mem_removeName (mem : e ∈ (s.removeName name).entries) : e ∈ s.entries := by
  rw [removeName] at mem
  split at mem
  · exact (List.filter_sublist.map Prod.snd).mem mem
  · exact mem

theorem mem_of_mem_removeTable (mem : e ∈ (s.removeTable id).entries) : e ∈ s.entries := by
  rw [removeTable] at mem
  split at mem
  · exact (List.filter_sublist.map Prod.snd).mem mem
  · exact mem

/-- What is registered after a registration was registered before, or is the new table. -/
theorem mem_of_mem_add {file : HeapFile} {primaryKey : Option String}
    (mem : e ∈ (s.add name file primaryKey).entries) :
    e ∈ s.entries ∨ e = ⟨name, file, primaryKey⟩ := by
  rw [entries, add, put, FinMap.insert, List.map_cons] at mem
  rcases List.mem_cons.mp mem with new | old
  · exact .inr new
  · have left := (List.filter_sublist.map Prod.snd).mem old
    exact .inl (mem_of_mem_removeName (mem_of_mem_removeTable left))

end CatalogState

end RowStore
