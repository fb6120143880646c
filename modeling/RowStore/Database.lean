import RowStore.Catalog.Document
import RowStore.Database.Load

/-! # Databases
A database is an engine that was given a configuration. Tables are opened by path, or all those that a
schema document declares. -/

namespace RowStore.Engine

/-- An engine with a valid configuration. -/
def ofConfig (disk : FileTree) (config : Config) : Except DatabaseError Engine :=
  match config.fault? with
  | none => .ok (new disk config)
  | some e => .error (.config e)

/-- The disk and the catalog. -/
def tables (e : Engine) : Tables :=
  ⟨e.disk, e.catalog⟩

/-- Replaces the disk and the catalog. -/
def withTables (e : Engine) (s : Tables) : Engine :=
  { e with disk := s.disk, catalog := s.catalog }

/-- The error of a database that cannot open a table. -/
def openFailure : OpenError → DatabaseError
  | .primaryKey e => .record e
  | .file e => .file e

/-- Opens a table's file and registers the table. -/
def openTable (e : Engine) (p : Path) (name : String) (schema : Schema)
    (primaryKey : Option String) : Engine × Except DatabaseError TableId :=
  let (s, result) := e.tables.openTable p name schema primaryKey e.config.pageSize
  (e.withTables s, result.mapError openFailure)

/-- The database that a schema document describes. Sizes that are given win over those of the document.
Files that were made stay when a later table fails. -/
def openSchema (disk : FileTree) (p : Path) (pageSize? poolPages? : Option Nat) :
    FileTree × Except DatabaseError Engine :=
  match SchemaDocument.load disk p with
  | .error e => (disk, .error (.catalog e))
  | .ok d =>
    let config := (d.config.getD .standard).override pageSize? poolPages?
    match ofConfig disk config with
    | .error e => (disk, .error e)
    | .ok e =>
      match e.tables.register d p.parent config.pageSize with
      | (s, .error err) => (s.disk, .error (.catalog err))
      | (s, .ok _) => (s.disk, .ok (e.withTables s))

/-- The call that inserts a record into a table. -/
def insertCall (e : Engine) (table : TableId) (values : List Value) : Except DatabaseError Call := do
  let schema ← e.schema table
  match Tuple.new schema values with
  | .ok t => return .insert table t
  | .error err => throw (.record err)

/-- A scan of a table that shows its columns under an alias. -/
def scan (e : Engine) (table : TableId) (aliasName : String) : Except CatalogError Scan := do
  let entry ← e.catalog.entry table
  return ⟨.new entry.file,
    some ⟨table, entry.name, aliasName, entry.file.schema.withAlias aliasName⟩⟩

/-- Takes tuples of an open scan for a transaction that is alone, page by page; `bound` bounds the number
of pages. -/
def drain (t : TxnId) : Engine → Nat → Scan → List Tuple → Engine × Except FileError (List Tuple)
  | e, 0, _, taken => (e, .ok taken)
  | e, bound + 1, scan, taken =>
    match e.call t (.advance scan.cursor) with
    | (e, .ok (.advanced cursor true)) =>
      match { scan with cursor }.takeAll with
      | (scan, .ok more) => drain t e bound scan (taken ++ more)
      | (_, .error err) => (e, .error err)
    | (e, .ok _) => (e, .ok taken)
    | (e, .error err) => (e, .error err)

/-- All tuples that a scan shows to a transaction that is alone. -/
def tuplesOf (e : Engine) (t : TxnId) (scan : Scan) : Engine × Except FileError (List Tuple) :=
  e.drain t (e.numPages scan.cursor.file + 1) { scan with cursor := scan.cursor.opened } []

end RowStore.Engine
