import RowStore.Session.Task

/-! # Sessions
A session is an engine with what its users have named: transactions, fetched pages, scans and files.
Steps are taken one after another. A step that meets a lock of another transaction waits, and goes on
once a later step has released the lock; meanwhile its transaction takes no other step. -/

namespace RowStore

/-- An engine with what its users have named. -/
structure Session where
  engine : Engine
  /-- Whether a database is open; the engine of a closed one has locks and files, but no tables. -/
  isOpen : Bool
  /-- The number of the next transaction. -/
  nextTxn : Nat
  /-- The transaction that each label names. -/
  labels : FinMap String TxnId
  /-- The transactions that were begun and are not ended. -/
  running : FinMap String TxnId
  files : FinMap Location HeapFile
  handles : FinMap String PageRef
  scans : FinMap String OwnedScan
  /-- The steps that wait, in the order in which they were taken. -/
  waiting : List WaitingTask
  /-- The number of the current step. -/
  clock : Nat

/-- A computation on a session. A failure keeps what has been done before it. -/
abbrev SessionM := ExceptT Failure (StateM Session)

namespace Session

/-- A session over an empty directory, without a database. -/
def start (root : String) : Session :=
  ⟨.new (.empty root) .standard, false, 1, ∅, ∅, ∅, ∅, ∅, [], 0⟩

/-- Refuses the step. -/
def refuse {α : Type} (r : Refusal) : SessionM α :=
  throw (.refused r)

/-- A result of a layer below, as a result of the step. -/
def lift {ε α : Type} (wrap : ε → Failure) : Except ε α → SessionM α
  | .ok a => return a
  | .error e => throw (wrap e)

/-- Works on the engine. -/
def onEngine {ε α : Type} (wrap : ε → Failure) (f : Engine → Engine × Except ε α) : SessionM α := do
  let s ← get
  let (engine, result) := f s.engine
  set { s with engine }
  lift wrap result

/-- Changes the engine. -/
def modifyEngine (f : Engine → Engine) : SessionM Unit :=
  modify fun s => { s with engine := f s.engine }

/-! ## What is named -/

/-- Whether a waiting step belongs to a transaction. -/
def isBusy (s : Session) (label : String) : Bool :=
  s.waiting.any (·.task.label = label)

/-- The transaction that a label names, whether or not it waits. -/
def named (s : Session) (label : String) : Except Failure TxnId :=
  match s.labels.get? label with
  | some t => .ok t
  | none => .error (.refused .noTransaction)

/-- The transaction that a label names, unless it waits. -/
def txn? (s : Session) (label : String) : Except Failure TxnId :=
  if s.isBusy label then .error (.refused .busy) else s.named label

/-- The transaction that a label names, unless it waits. -/
def txn (label : String) : SessionM TxnId := do
  lift id ((← get).txn? label)

/-- The engine of the open database. -/
def database : SessionM Engine := do
  let s ← get
  if s.isOpen then return s.engine else refuse .noDatabase

/-- A path, which may start at the root. -/
def path (s : Session) (text : String) : Path :=
  .parse s.engine.disk.root (s.engine.disk.root ++ "/" ++ text)

/-- The place that a path names, whether or not anything stands there. -/
def locate (s : Session) (text : String) : Location :=
  s.engine.disk.locate (s.path text)

/-- The table whose file a path names. -/
def tableAt (s : Session) (text : String) : TableId :=
  .file (s.locate text)

/-- A file that has been opened. -/
def file (text : String) : SessionM HeapFile := do
  let s ← get
  match s.files.get? (s.locate text) with
  | some f => return f
  | none => refuse .noFile

/-- A fetched page. -/
def handle (name : String) : SessionM PageRef := do
  match (← get).handles.get? name with
  | some ref => return ref
  | none => refuse .noHandle

/-- A scan that no waiting step uses. -/
def scan (name : String) : SessionM OwnedScan := do
  let s ← get
  match s.scans.get? name with
  | some scan => if s.waiting.any (·.usesScan scan) then refuse .busy else return scan
  | none => refuse .noScan

/-- Names a file by its place. -/
def keepFile (f : HeapFile) : SessionM Unit :=
  modify fun s => { s with files := s.files.insert f.location f }

end Session

end RowStore
