import RowStore.Ident

/-! # Page locks
The lock of one page: who shares it, who holds it alone, and who waits for it. -/

namespace RowStore

/-- What a lock allows. -/
inductive LockMode where
  /-- Reading; any number of transactions may share it. -/
  | shared
  /-- Reading and writing; one transaction holds it alone. -/
  | exclusive
  deriving DecidableEq, Repr, Inhabited

/-- A transaction that waits for a lock. -/
structure LockRequest where
  txn : TxnId
  mode : LockMode
  deriving DecidableEq, Repr

/-- The lock of one page. -/
structure LockEntry where
  sharing : List TxnId := []
  exclusive : Option TxnId := none
  waiting : List LockRequest := []
  deriving DecidableEq, Repr

namespace LockEntry

instance : Inhabited LockEntry := ⟨{}⟩

/-- Whether a transaction holds the lock in a mode; who holds it alone may also read. -/
def holds (e : LockEntry) (t : TxnId) : LockMode → Bool
  | .shared => e.exclusive = some t || t ∈ e.sharing
  | .exclusive => e.exclusive = some t

/-- The other transactions whose locks keep a transaction from a mode. -/
def conflicts (e : LockEntry) (t : TxnId) (mode : LockMode) : List TxnId :=
  let alone := e.exclusive.toList.filter (· ≠ t)
  match mode with
  | .shared => alone
  | .exclusive => alone ++ e.sharing.filter (· ≠ t)

/-- Whether a transaction waits for the lock. -/
def awaits (e : LockEntry) (t : TxnId) : Bool :=
  e.waiting.any (·.txn = t)

/-- Lets a transaction wait, at the end of the queue. -/
def enqueue (e : LockEntry) (t : TxnId) (mode : LockMode) : LockEntry :=
  if e.awaits t then e else { e with waiting := e.waiting ++ [⟨t, mode⟩] }

/-- Takes a transaction out of the queue. -/
def dequeue (e : LockEntry) (t : TxnId) : LockEntry :=
  { e with waiting := e.waiting.filter (·.txn ≠ t) }

/-- Gives the lock to a transaction, which waits no longer. A lock held alone takes the place of a
shared one. -/
def grant (e : LockEntry) (t : TxnId) (mode : LockMode) : LockEntry :=
  let e := e.dequeue t
  match mode with
  | .shared => { e with sharing := if t ∈ e.sharing then e.sharing else e.sharing ++ [t] }
  | .exclusive => { e with sharing := e.sharing.filter (· ≠ t), exclusive := some t }

/-- Takes the lock from a transaction, in every mode. -/
def release (e : LockEntry) (t : TxnId) : LockEntry :=
  { e with
    sharing := e.sharing.filter (· ≠ t)
    exclusive := e.exclusive.filter (· ≠ t) }

/-- Whether nobody holds the lock or waits for it. -/
def isIdle (e : LockEntry) : Bool :=
  e.sharing.isEmpty && e.exclusive.isNone && e.waiting.isEmpty

end LockEntry

end RowStore
