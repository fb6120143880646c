import RowStore.Session.Progress

/-! # Rows of a session
The steps that work with pages and rows: they may all wait. Fetched pages can also be worked on by
themselves, without the engine taking note. -/

namespace RowStore.Session

/-- Locks a page. -/
def acquire (label : String) (p : PageId) (mode : LockMode) : SessionM Outcome := do
  call label (← txn label) (.lock p mode) .lock

/-- Fetches a page, and keeps it under a name, if one is given. -/
def getPage (label : String) (p : PageId) (permission : Permission) (handle? : Option String) :
    SessionM Outcome := do
  let t ← txn label
  let _ ← database
  call label t (.fetch p permission) (.fetch p handle?)

/-- The schema that is given, or that of a table; one that is not registered has no columns. -/
def schemaOr (schema? : Option Schema) (table : TableId) : SessionM Schema := do
  match schema?, (← database).catalog.schema table with
  | some schema, _ | none, .ok schema => return schema
  | none, .error _ => return ⟨[]⟩

/-- Inserts a row. -/
def insert (label : String) (table : TableId) (values : List Value) : SessionM Outcome := do
  let t ← txn label
  let c ← lift .database ((← database).insertCall table values)
  call label t c (.insert .database)

/-- Inserts rows one after another. -/
def insertRows (label : String) (table : TableId) (rows : List (List Value)) :
    SessionM Outcome := do
  let t ← txn label
  let _ ← database
  take label t fun s o => s.nextRow o table 0 none rows

/-- Inserts a tuple of a schema into a registered table. -/
def insertTuple (label : String) (table : TableId) (schema? : Option Schema)
    (values : List Value) : SessionM Outcome := do
  let t ← txn label
  let schema ← schemaOr schema? table
  let tuple ← lift .record (Tuple.new schema values)
  let _ ← database
  call label t (.insert table tuple) (.insert .pool)

/-- Inserts a tuple of a schema into the file of a registered table, without the pool taking note. -/
def insertIntoFile (label : String) (table : TableId) (schema? : Option Schema)
    (values : List Value) : SessionM Outcome := do
  let t ← txn label
  match (← database).catalog.file? table with
  | none => refuse .noFile
  | some f =>
    let schema ← schemaOr schema? table
    let tuple ← lift .record (Tuple.new schema values)
    call label t (.insertInto ⟨f, tuple, false, .check⟩) (.insert .file)

/-- Deletes the tuple of a record id. -/
def delete (label : String) (id? : Option RecordId) : SessionM Outcome := do
  let t ← txn label
  let _ ← database
  call label t (.delete id?) (.delete .database)

/-- Deletes the tuple of a record id from a file, without the pool taking note. -/
def deleteFromFile (label text : String) (id? : Option RecordId) : SessionM Outcome := do
  let t ← txn label
  let _ ← database
  let f ← file text
  call label t (.deleteFrom f id? false) (.delete .file)

/-- Loads the records of a file into a registered table. -/
def load (label : String) (table : TableId) (text : String) (delimiter : UInt8) :
    SessionM Outcome := do
  let t ← txn label
  let l ← lift .database ((← database).startLoad table ((← get).path text) delimiter)
  take label t fun s o => s.nextRecord o l

/-! ## Fetched pages -/

/-- The page of a handle, as it is in memory. -/
def handlePage (name : String) : SessionM (PageRef × Page) := do
  let ref ← handle name
  match (← get).engine.page? ref with
  | some page => return (ref, page)
  | none => refuse .noHandle

/-- The page of a handle, for writing. -/
def writablePage (ref : PageRef) (page : Page) : SessionM Page :=
  match ref.permission with
  | .readWrite => return page
  | .readOnly => throw (.file (.readOnlyPage page.id))

/-- Inserts a tuple into a fetched page; its schema is that of the page if none is given. -/
def insertAt (name : String) (schema? : Option Schema) (values : List Value) :
    SessionM RecordId := do
  let (ref, page) ← handlePage name
  let tuple ← lift .record (Tuple.new (schema?.getD page.layout.schema) values)
  let page ← writablePage ref page
  let (id, page) ← lift .record (page.insert tuple)
  modifyEngine (·.setPage ref page)
  return id

/-- Deletes a tuple from a fetched page. -/
def deleteAt (name : String) (id : RecordId) : SessionM Unit := do
  let (ref, page) ← handlePage name
  let page ← lift .record ((← writablePage ref page).delete id)
  modifyEngine (·.setPage ref page)

/-- Sets or clears a transaction's mark on a fetched page. -/
def markAt (name label : String) (dirty : Bool) : SessionM Unit := do
  let (ref, page) ← handlePage name
  let t ← txn label
  let page ← writablePage ref page
  modifyEngine (·.setPage ref (page.mark (if dirty then some t else none)))

/-- A step that is taken under a write latch. -/
inductive LatchedStep where
  | fetch (label : String) (page : PageId) (permission : Permission) (handle? : Option String)
  | isResident (page : PageId)

/-- Takes a step under a write latch. -/
def LatchedStep.take : LatchedStep → SessionM Outcome
  | fetch label page permission handle? => getPage label page permission handle?
  | isResident page => do return .truth ((← get).engine.pool.isResident page)

/-- Takes steps one after another, also behind one that fails or waits. -/
def takeLatched : List LatchedStep → SessionM (List (Except Failure Outcome))
  | [] => return []
  | step :: rest => do
    let result ← observing step.take
    return result :: (← takeLatched rest)
where
  /-- What a computation comes to, as a value. -/
  observing (x : SessionM Outcome) : SessionM (Except Failure Outcome) :=
    ExceptT.mk (Except.ok <$> x.run)

/-- Takes steps while the page of a handle is latched for writing. A step among them that waits goes on
after the latch is released. -/
def withLatch (name : String) (steps : List LatchedStep) : SessionM Outcome := do
  let (ref, page) ← handlePage name
  let _ ← writablePage ref page
  modify fun s => { s with engine.pool.latched := ref.frame :: s.engine.pool.latched }
  let results ← takeLatched steps
  modify fun s => { s with engine.pool.latched := s.engine.pool.latched.erase ref.frame }
  return .latched results

/-! ## Scans -/

/-- Keeps a new scan under a name. -/
def keepScan (name : String) (owner : TxnId) (scan : Scan) : SessionM Unit :=
  modify fun s => s.setScan name ⟨s.clock, owner, scan⟩

/-- Names a scan of a registered table that shows it under an alias. -/
def openScan (label : String) (table : TableId) (aliasName name : String) : SessionM Unit := do
  let t ← txn label
  keepScan name t (← lift (.database ∘ .catalog) ((← database).scan table aliasName))

/-- Names a scan of the file of a registered table. -/
def openFileScan (label : String) (table : TableId) (name : String) : SessionM Unit := do
  let t ← txn label
  match (← database).catalog.file? table with
  | some f => keepScan name t ⟨.new f, none⟩
  | none => refuse .noFile

/-- Takes a step of a scan. -/
def useScanFor (label name : String) (aim : ScanAim) : SessionM Outcome := do
  let _ ← txn label
  let used ← scan name
  let cursor := match aim with
    | .start => used.scan.cursor.opened
    | _ => used.scan.cursor
  call label used.owner (.advance cursor) (.scan name { used with scan.cursor := cursor } aim)

/-- Closes a scan. -/
def closeScan (name : String) : SessionM Unit := do
  let used ← scan name
  modify (·.setScan name { used with scan.cursor := used.scan.cursor.closed })

/-- Turns a scan to another table and alias, where it is closed. -/
def resetScan (name : String) (table : TableId) (aliasName : String) : SessionM Unit := do
  let used ← scan name
  if used.scan.view?.isSome then
    let scan ← lift .catalog ((← database).scan table aliasName)
    modify (·.setScan name { used with scan })
  else refuse .noScan

end RowStore.Session
