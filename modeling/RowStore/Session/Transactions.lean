import RowStore.Session.State

/-! # Transactions of a session
Beginning and ending transactions, and what they lock. -/

namespace RowStore.Session

/-- Refuses the step while a step of the transaction waits. -/
def checkFree (label : String) : SessionM Unit := do
  if (← get).isBusy label then refuse .busy

/-- Lets a label name the next transaction. -/
def nameTxn (label : String) : SessionM TxnId := do
  let s ← get
  let t : TxnId := ⟨s.nextTxn⟩
  set { s with nextTxn := s.nextTxn + 1, labels := s.labels.insert label t }
  return t

/-- Names a transaction that is not begun; it can lock, but it has no end. -/
def newTxn (label : String) : SessionM TxnId := do
  checkFree label
  nameTxn label

/-- Begins a transaction. One that its label has named and that is still running is aborted. -/
def beginTxn (label : String) : SessionM TxnId := do
  checkFree label
  let _ ← database
  let before? := (← get).running.get? label
  let t ← nameTxn label
  modify fun s => { s with running := s.running.insert label t }
  if let some before := before? then
    modifyEngine fun e => (e.complete before false).1
  return t

/-- Ends a running transaction. -/
def endTxn (label : String) (commit : Bool) : SessionM Unit := do
  let _ ← txn label
  match (← get).running.get? label with
  | none => refuse .noTransaction
  | some t =>
    modify fun s => { s with running := s.running.erase label }
    onEngine .file (·.complete t commit)

/-- Ends the transaction that a label names, and lets it go on all the same. -/
def complete (label : String) (commit : Bool) : SessionM Unit := do
  let t ← txn label
  let _ ← database
  onEngine .file (·.complete t commit)

/-! ## Locks -/

/-- Takes a page's lock from a transaction. -/
def release (label : String) (p : PageId) : SessionM Unit := do
  let t ← txn label
  modifyEngine fun e => { e with locks := e.locks.release t p }

/-- Takes all locks from a transaction. -/
def releaseAll (label : String) : SessionM Unit := do
  let t ← txn label
  modifyEngine fun e => { e with locks := e.locks.releaseAll t }

/-- The strongest mode in which a transaction holds a page's lock. -/
def heldMode (l : LockTable) (t : TxnId) (p : PageId) : LockMode :=
  if l.holds t p .exclusive then .exclusive else .shared

/-- The pages that each label's transaction has locked, in the order of their names, with the modes. -/
def heldLocks (s : Session) : List (String × List (PageId × LockMode)) :=
  s.labels.toList.filterMap fun (label, t) =>
    let key (p : PageId) := (p.table.text, p.number)
    let pages := (s.engine.locks.pagesOf t).mergeSort fun p q =>
      (compareLex (compareOn (·.1)) (compareOn (·.2)) (key p) (key q)).isLE
    if pages.isEmpty then none
    else some (label, pages.map fun p => (p, heldMode s.engine.locks t p))

/-! ## What is in memory -/

/-- The number of pages of each file that was opened, in the order of their places. -/
def fileSizes (s : Session) : List (HeapFile × Nat) :=
  (s.files.toList.mergeSort fun f g => (compare f.1.text g.1.text).isLE).map fun (_, f) =>
    (f, s.engine.numPages f)

/-- The pages of the opened files that are resident; one page past the end of each is looked for. -/
def residentPages (s : Session) : List PageId :=
  s.fileSizes.flatMap fun (f, n) =>
    ((List.range (n + 1)).map (PageId.mk f.id)).filter s.engine.pool.isResident

end RowStore.Session
