import RowStore.Session.Outcome

/-! # Tasks
A task is a call of a transaction together with what is made of its reply: the end of a step, or the
next call of the same step. A waiting step is a task, so what is left of it is a value. -/

namespace RowStore

/-- Through what a step reaches the pages. It decides how failures are told, and whether the changed
pages are. -/
inductive Layer where
  | database
  | pool
  | file
  deriving DecidableEq, Repr

/-- The failure of a call through a layer. -/
def Layer.failure : Layer → FileError → Failure
  | database, e => .database (.file e)
  | pool, e | file, e => .file e

/-- What a step wants of a scan. -/
inductive ScanAim where
  /-- To stand before the first tuple. -/
  | start
  /-- To know whether there is a tuple left. -/
  | hasNext
  /-- The next tuple. -/
  | next
  /-- All tuples that are left, after those that it has. -/
  | collect (taken : List Tuple)

/-- A scan with the transaction it reads for. -/
structure OwnedScan where
  /-- The number of the step that has made the scan. -/
  madeAt : Nat
  owner : TxnId
  scan : Scan

/-- What is made of the reply to a call. -/
inductive Goal where
  /-- The lock is all that was wanted. -/
  | lock
  /-- The page is kept under a name, if there is one. -/
  | fetch (page : PageId) (handle? : Option String)
  | insert (layer : Layer)
  | delete (layer : Layer)
  /-- More rows are inserted into a table, after `count` of which `last?` was the last. -/
  | rows (table : TableId) (rest : List (List Value)) (count : Nat) (last? : Option RecordId)
  | load (rest : Load)
  /-- The scan under a name is used. -/
  | scan (name : String) (scan : OwnedScan) (aim : ScanAim)

/-- What is made of the reply once the call has waited: a page that had to be waited for is kept under no
name. -/
def Goal.afterWait : Goal → Goal
  | fetch page _ => fetch page none
  | goal => goal

/-- Whose a task is. -/
structure TaskOwner where
  /-- The number of the step. -/
  step : Nat
  /-- The name of the transaction. -/
  label : String
  txn : TxnId
  deriving DecidableEq, Repr

/-- A call of a transaction, and what is made of its reply. -/
structure Task extends TaskOwner where
  call : Call
  goal : Goal

/-- A task that waits for the lock of a page. -/
structure WaitingTask where
  task : Task
  page : PageId

/-- Whether a waiting task uses a scan. -/
def WaitingTask.usesScan (w : WaitingTask) (scan : OwnedScan) : Bool :=
  match w.task.goal with
  | .scan _ used _ => used.madeAt = scan.madeAt
  | _ => false

end RowStore
