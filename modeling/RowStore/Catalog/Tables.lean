import RowStore.Catalog

/-! # Opening tables
A disk with the catalog of the tables on it. To open a table is to open its file and to register it. -/

namespace RowStore

/-- Why a table cannot be opened. -/
inductive OpenError where
  /-- The primary key is none of the columns. -/
  | primaryKey (e : RecordError)
  | file (e : FileError)
  deriving DecidableEq

/-- The error of a catalog that cannot open a table. -/
def OpenError.toCatalogError : OpenError → CatalogError
  | primaryKey e => .record e
  | file e => .file e

/-- A disk, and the catalog of the tables on it. -/
structure Tables where
  disk : FileTree
  catalog : Catalog

/-- Opens a table's file and registers the table. The primary key must be one of its columns. -/
def Tables.openTable (s : Tables) (p : Path) (name : String) (schema : Schema)
    (primaryKey : Option String) (pageSize : Nat) : Tables × Except OpenError TableId :=
  match primaryKey.mapM schema.fieldIndex with
  | .error e => (s, .error (.primaryKey e))
  | .ok _ =>
    match HeapFile.openAt s.disk p schema pageSize with
    | (disk, .error e) => ({ s with disk }, .error (.file e))
    | (disk, .ok f) => (⟨disk, s.catalog.add name f primaryKey⟩, .ok f.id)

end RowStore
