import RowStore.Session.State

/-! # Tables of a session
Opening databases, tables and files, and the steps that go past memory to a file on disk. -/

namespace RowStore.Session

/-- Replaces the database, and forgets all that was named, except how far transactions are numbered. -/
def adopt (engine : Engine) : SessionM Unit :=
  modify fun s => {
    engine, isOpen := true, nextTxn := s.nextTxn, labels := ∅, running := ∅
    files := ⟨engine.catalog.entries.map fun e => (e.file.location, e.file)⟩
    handles := ∅, scans := ∅, waiting := [], clock := s.clock }

/-- Refuses the step while any step waits. -/
def checkIdle : SessionM Unit := do
  if !(← get).waiting.isEmpty then refuse .busy

/-- Opens a database without tables. -/
def newDatabase (config : Config) : SessionM Unit := do
  checkIdle
  adopt (← lift .database (Engine.ofConfig (← get).engine.disk config))

/-- Opens the database that a schema document describes. -/
def openSchema (text : String) (pageSize? poolPages? : Option Nat) : SessionM Unit := do
  checkIdle
  let s ← get
  let (disk, result) := Engine.openSchema s.engine.disk (s.path text) pageSize? poolPages?
  modifyEngine ({ · with disk })
  adopt (← lift .database result)

/-- Names the file of a registered table by its place. -/
def keepTable (table : TableId) : SessionM Unit := do
  match (← get).engine.catalog.file? table with
  | some f => keepFile f
  | none => return

/-- Registers the tables that a schema document declares, and tells their ids; a table that another one
of the document has replaced has none. If a table fails, those before it stay registered. -/
def loadSchema (text : String) (pageSize : Nat) : SessionM (List (Option TableId)) := do
  let e ← database
  let (tables, result) := e.tables.loadSchema ((← get).path text) pageSize
  modifyEngine (·.withTables tables)
  tables.catalog.entries.forM fun entry => keepFile entry.file
  let ids ← lift .catalog result
  return ids.map fun id => if (tables.catalog.file? id).isSome then some id else none

/-- Opens a table's file and registers the table. -/
def openTable (text name : String) (schema : Schema) (primaryKey : Option String) :
    SessionM TableId := do
  let _ ← database
  let path := (← get).path text
  let id ← onEngine .database (·.openTable path name schema primaryKey)
  keepTable id
  return id

/-- Opens a file, which must be new if `fresh`, and registers it if it is given a name. -/
def openFile (fresh : Bool) (text : String) (schema : Schema) (pageSize : Nat)
    (name? primaryKey : Option String) : SessionM TableId := do
  if name?.isSome then let _ ← database
  let s ← get
  let (disk, result) :=
    (if fresh then HeapFile.createAt else HeapFile.openAt) s.engine.disk (s.path text) schema pageSize
  modifyEngine ({ · with disk })
  let f ← lift .file result
  keepFile f
  match name? with
  | some name => modifyEngine fun e => { e with catalog := e.catalog.add name f primaryKey }
  | none => return f.id
  return f.id

/-- Writes all pages with unwritten changes, as at the end of a database. -/
def shutdown : SessionM Unit := do
  let _ ← database
  onEngine (.database ∘ .file) Engine.flushAll

/-- Forgets all registered tables. -/
def clearCatalog : SessionM Unit := do
  let _ ← database
  modifyEngine fun e => { e with catalog := e.catalog.clear }

/-! ## Files on disk -/

/-- Replaces the content of a file, which is made if it is missing. -/
def setContent (text : String) (content : Bytes) : SessionM Unit := do
  let s ← get
  let (disk, l) ← lift .io (s.engine.disk.openFile (s.path text))
  modifyEngine ({ · with disk := disk.write l content })

/-- The content of a file. -/
def contentAt (text : String) : SessionM Bytes := do
  let s ← get
  lift .io (s.engine.disk.read (s.path text))

/-- Reads a page from a file. -/
def readPage (text : String) (p : PageId) : SessionM Page := do
  lift .file ((← get).engine.readFrom (← file text) p)

/-- Writes octets as a page into a file, and tells how many pages it has then. -/
def writePage (text : String) (p : PageId) (octets : Bytes) : SessionM Nat := do
  let f ← file text
  let page ← lift .record (Page.decode p f.layout octets)
  let e ← lift .file ((← get).engine.writeTo f page)
  modifyEngine fun _ => e
  return e.numPages f

/-- Appends an empty page to a file. -/
def allocate (text : String) : SessionM PageId := do
  let (e, p) := (← get).engine.allocate (← file text)
  modifyEngine fun _ => e
  return p

end RowStore.Session
