import RowStore.Lock.Table
import RowStore.Proofs.Run

/-! # Clients of the lock table
Transactions ask for locks and release them, in any order. A transaction whose request waits does nothing
else until the request is granted or refused; it makes the request again whenever it likes, and in any
case it is woken when a lock of the page is released. A run is a list of events that keep to this. -/

namespace RowStore

/-- The lock that a transaction asks for. -/
structure LockClaim where
  page : PageId
  mode : LockMode
  deriving DecidableEq, Repr

/-- What a transaction does with the lock table. -/
inductive LockEvent where
  /-- It asks for a page's lock. -/
  | acquire (t : TxnId) (claim : LockClaim)
  /-- It makes the request again on which it waits. -/
  | retry (t : TxnId)
  /-- It gives a page's lock back, whether or not it holds it. -/
  | release (t : TxnId) (page : PageId)
  /-- It gives all its locks back. -/
  | releaseAll (t : TxnId)
  deriving DecidableEq

/-- The lock table with the transactions that wait. -/
structure LockClients where
  table : LockTable
  /-- The request on which each waiting transaction waits. -/
  pending : FinMap TxnId LockClaim
  /-- Waiting transactions that have been notified and have not made their requests again since. -/
  woken : List TxnId
  deriving DecidableEq

namespace LockClients

/-- Nobody holds a lock or waits for one. -/
def idle : LockClients := ⟨∅, ∅, []⟩

/-- Notes the reply to a request. -/
def settle (s : LockClients) (t : TxnId) (claim : LockClaim) : LockTable × LockReply → LockClients
  | (table, .waiting) =>
    { table, pending := s.pending.insert t claim, woken := s.woken.filter (· ≠ t) }
  | (table, _) => { table, pending := s.pending.erase t, woken := s.woken.filter (· ≠ t) }

/-- Wakes who waits for a page that has been released. -/
def wake (s : LockClients) (table : LockTable) : LockClients :=
  { s with
    table := { table with notified := [] }
    woken := s.woken ++
      (s.pending.toList.filter fun w => w.2.page ∈ table.notified).map Prod.fst }

/-- Whether a transaction waits. -/
def isPending (s : LockClients) (t : TxnId) : Bool :=
  s.pending.contains t

/-- What an event leads to; none if its transaction may not do this now. -/
def next? (s : LockClients) : LockEvent → Option LockClients
  | .acquire t claim =>
    if s.isPending t then none
    else some (s.settle t claim (s.table.acquire t claim.page claim.mode))
  | .retry t =>
    (s.pending.get? t).map fun claim =>
      s.settle t claim (s.table.request t claim.page claim.mode)
  | .release t page => if s.isPending t then none else some (s.wake (s.table.release t page))
  | .releaseAll t => if s.isPending t then none else some (s.wake (s.table.releaseAll t))

theorem table_settle (s : LockClients) (t : TxnId) (claim : LockClaim)
    (outcome : LockTable × LockReply) : (s.settle t claim outcome).table = outcome.1 := by
  obtain ⟨table, reply⟩ := outcome
  cases reply <;> rfl

@[simp] theorem woken_settle (s : LockClients) (t : TxnId) (claim : LockClaim)
    (outcome : LockTable × LockReply) :
    (s.settle t claim outcome).woken = s.woken.filter (· ≠ t) := by
  obtain ⟨table, reply⟩ := outcome
  cases reply <;> rfl

/-- The reply to a request is of no consequence for who else waits. -/
theorem get?_pending_settle_of_ne (s : LockClients) {t u : TxnId} (claim : LockClaim)
    (outcome : LockTable × LockReply) (ne : u ≠ t) :
    (s.settle t claim outcome).pending.get? u = s.pending.get? u := by
  obtain ⟨table, reply⟩ := outcome
  cases reply with
  | waiting => exact FinMap.get?_insert_of_ne _ _ ne
  | granted => exact FinMap.get?_erase_of_ne _ ne
  | deadlock => exact FinMap.get?_erase_of_ne _ ne

theorem isPending_eq_false_iff {s : LockClients} {t : TxnId} :
    s.isPending t = false ↔ s.pending.get? t = none := by
  simp [isPending, FinMap.contains]

/-- What events lead to, by their kinds. -/
inductive Next (s : LockClients) : LockEvent → LockClients → Prop
  /-- Who does not wait may ask for a lock. -/
  | acquire {t : TxnId} {claim : LockClaim} (idle : s.pending.get? t = none) :
    s.Next (.acquire t claim) (s.settle t claim (s.table.acquire t claim.page claim.mode))
  /-- Who waits may make its request again. -/
  | retry {t : TxnId} {claim : LockClaim} (waits : s.pending.get? t = some claim) :
    s.Next (.retry t) (s.settle t claim (s.table.request t claim.page claim.mode))
  /-- Who does not wait may release a lock. -/
  | release {t : TxnId} {page : PageId} (idle : s.pending.get? t = none) :
    s.Next (.release t page) (s.wake (s.table.release t page))
  | releaseAll {t : TxnId} (idle : s.pending.get? t = none) :
    s.Next (.releaseAll t) (s.wake (s.table.releaseAll t))

/-- An event that can happen is one of these. -/
theorem next_of_next? {s s' : LockClients} {e : LockEvent} (h : s.next? e = some s') :
    s.Next e s' := by
  cases e with
  | acquire t claim =>
    rw [next?, Option.ite_none_left_eq_some, Bool.not_eq_true, isPending_eq_false_iff] at h
    exact Option.some.inj h.2 ▸ .acquire h.1
  | retry t =>
    obtain ⟨claim, waits, rfl⟩ := Option.map_eq_some_iff.mp h
    exact .retry waits
  | release t page =>
    rw [next?, Option.ite_none_left_eq_some, Bool.not_eq_true, isPending_eq_false_iff] at h
    exact Option.some.inj h.2 ▸ .release h.1
  | releaseAll t =>
    rw [next?, Option.ite_none_left_eq_some, Bool.not_eq_true, isPending_eq_false_iff] at h
    exact Option.some.inj h.2 ▸ .releaseAll h.1

/-- What a list of events leads to. -/
def run (s : LockClients) (es : List LockEvent) : Option LockClients :=
  runEvents next? s es

/-- A transaction is blocked while it waits and has not been woken. -/
def Blocked (s : LockClients) (t : TxnId) : Prop :=
  s.isPending t = true ∧ t ∉ s.woken

end LockClients

/-- In the lock table a transaction waits for another if it stands in a queue behind a lock that the
other holds. -/
def LockTable.WaitsOn (l : LockTable) (t u : TxnId) : Prop :=
  ∃ p mode, ⟨t, mode⟩ ∈ (l.entry p).waiting ∧ u ∈ (l.entry p).conflicts t mode

end RowStore
