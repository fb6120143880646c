import RowStore.Lock.Entry
import RowStore.Lock.WaitsFor
import RowStore.Storage.FileError

/-! # The lock table
Locks of pages, and the transactions that hold them or wait for them. A request that meets another
holder's lock waits, unless its wait would close a cycle; waiting requests are no barrier to others. A
release notifies the waiting requests of its pages, and each then makes its request again. The table
records for every waiting transaction which holders it waits for, and keeps that up to date when
holders come and go. -/

namespace RowStore

/-- The locks of all pages. -/
structure LockTable where
  /-- The lock of each page that is held or waited for. -/
  entries : FinMap PageId LockEntry
  /-- The pages that each transaction holds. -/
  held : FinMap TxnId (List PageId)
  /-- Who waits for whom. -/
  waits : WaitsFor
  /-- The pages that were released since the waiting requests were last let try again. -/
  notified : List PageId := []
  deriving DecidableEq

/-- What becomes of a request for a lock. -/
inductive LockReply where
  | granted
  /-- The request waits, to be made again after a release. -/
  | waiting
  /-- The request would wait for ever. -/
  | deadlock
  deriving DecidableEq, Repr

namespace LockTable

/-- The table without locks. -/
def empty : LockTable := ⟨∅, ∅, ∅, []⟩

instance : EmptyCollection LockTable := ⟨empty⟩

instance : Inhabited LockTable := ⟨∅⟩

/-- The lock of a page. -/
def entry (l : LockTable) (p : PageId) : LockEntry :=
  l.entries.getD p {}

/-- Whether a transaction holds a page's lock in a mode. -/
def holds (l : LockTable) (t : TxnId) (p : PageId) (mode : LockMode) : Bool :=
  (l.entry p).holds t mode

/-- Whether a transaction holds a page's lock in any mode. -/
def holdsAny (l : LockTable) (t : TxnId) (p : PageId) : Bool :=
  l.holds t p .shared

/-- The pages whose locks a transaction holds. -/
def pagesOf (l : LockTable) (t : TxnId) : List PageId :=
  l.held.getD t []

/-- Records anew whom the waiting requests of a lock wait for. -/
def refresh (e : LockEntry) (g : WaitsFor) : WaitsFor :=
  e.waiting.foldl (fun g r => g.set r.txn (e.conflicts r.txn r.mode)) g

/-- Adds a page to those a transaction holds. -/
def addHeld (held : FinMap TxnId (List PageId)) (t : TxnId) (p : PageId) :
    FinMap TxnId (List PageId) :=
  let pages := held.getD t []
  if p ∈ pages then held else held.insert t (pages ++ [p])

/-- Takes a page from those a transaction holds; a transaction that holds none has no entry. -/
def removeHeld (held : FinMap TxnId (List PageId)) (t : TxnId) (p : PageId) :
    FinMap TxnId (List PageId) :=
  match (held.getD t []).filter (· ≠ p) with
  | [] => held.erase t
  | pages => held.insert t pages

/-- Makes a request for a lock, for the first time or again after a wait. -/
def request (l : LockTable) (t : TxnId) (p : PageId) (mode : LockMode) : LockTable × LockReply :=
  let e := l.entry p
  match e.conflicts t mode with
  | [] =>
    let e := e.grant t mode
    ({ l with
      entries := l.entries.insert p e
      held := addHeld l.held t p
      waits := refresh e (l.waits.clear t) }, .granted)
  | holders =>
    let waits := l.waits.set t holders
    if waits.hasCycleThrough t then
      -- a request that is made again may stand in the queue from before
      ({ l with entries := l.entries.insert p (e.dequeue t), waits := l.waits.clear t },
        .deadlock)
    else ({ l with entries := l.entries.insert p (e.enqueue t mode), waits }, .waiting)

/-- Makes a request for a lock, which is granted at once to who holds it. -/
def acquire (l : LockTable) (t : TxnId) (p : PageId) (mode : LockMode) : LockTable × LockReply :=
  if l.holds t p mode then (l, .granted) else l.request t p mode

/-- Takes a page's lock from a transaction, drops the entry once it is idle, and notifies who waits. Nothing
happens between the parts of one operation, so nobody else refers to an idle entry, or has put another one
in its place: there is no test of that before the entry is dropped. -/
def releaseEntry (l : LockTable) (t : TxnId) (p : PageId) : LockTable :=
  if l.holdsAny t p then
    let e := (l.entry p).release t
    { l with
      entries := if e.isIdle then l.entries.erase p else l.entries.insert p e
      waits := refresh e l.waits
      notified := p :: l.notified }
  else l

/-- Takes a page's lock from a transaction. -/
def release (l : LockTable) (t : TxnId) (p : PageId) : LockTable :=
  { l with held := removeHeld l.held t p }.releaseEntry t p

/-- Takes all locks from a transaction. -/
def releaseAll (l : LockTable) (t : TxnId) : LockTable :=
  (l.pagesOf t).foldl (·.releaseEntry t)
    { l with held := l.held.erase t, waits := l.waits.clear t }

end LockTable

end RowStore
