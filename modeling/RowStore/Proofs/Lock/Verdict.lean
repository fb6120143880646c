import RowStore.Proofs.Lock.Deadlock
import RowStore.Proofs.Lock.Holders

/-! # The verdict on a request that cannot be granted
A request that meets another holder's lock is refused if its wait would close a cycle, and waits
otherwise. Main statement: `verdict_exact`. The search runs over recorded waits, and the verdict is exact
because a record on trial differs from the queues just by the wait that the request would add
(`Tracks.edge_set_iff`). A request that waits already adds nothing new, and is never refused
(`Tracks.request_ne_deadlock`). -/

namespace RowStore

open Relation

/-- Who is not in the queue need not be taken out. -/
theorem LockEntry.dequeue_of_not_awaits {e : LockEntry} {t : TxnId} (out : e.awaits t = false) :
    e.dequeue t = e := by
  have stays : ∀ r ∈ e.waiting, r.txn ≠ t := by
    simpa [awaits] using out
  rw [dequeue, List.filter_eq_self.mpr fun r mem => by simpa using stays r mem]

namespace LockTable

variable {l : LockTable} {t : TxnId} {p : PageId} {mode : LockMode}

/-- A lock that keeps somebody waiting has an entry. -/
theorem get?_entries_of_conflicts (busy : (l.entry p).conflicts t mode ≠ []) :
    l.entries.get? p = some (l.entry p) := by
  cases found : l.entries.get? p with
  | some e => rw [entry, FinMap.getD, found, Option.getD_some]
  | none =>
    have free : l.entry p = {} := by rw [entry, FinMap.getD, found, Option.getD_none]
    rw [free] at busy
    cases mode <;> exact absurd rfl busy

/-- A request that is put into a queue waits there, and the others wait as before. -/
theorem mem_waiting_queued (out : (l.entry p).awaits t = false) {r : LockRequest} {q : PageId} :
    r ∈ ((l.queued t p mode).entry q).waiting ↔
      r ∈ (l.entry q).waiting ∨ q = p ∧ r = ⟨t, mode⟩ := by
  rw [entry_queued]
  split
  · next eq => simp [LockEntry.mem_waiting_enqueue, out, eq]
  · next ne => simp [ne]

/-- A request that is put into a queue waits for those it conflicts with. -/
theorem waitsOn_queued_iff (out : (l.entry p).awaits t = false) {a b : TxnId} :
    (l.queued t p mode).WaitsOn a b ↔
      l.WaitsOn a b ∨ a = t ∧ b ∈ (l.entry p).conflicts t mode := by
  simp only [WaitsOn, conflicts_queued, mem_waiting_queued out]
  constructor
  · rintro ⟨q, m, old | ⟨rfl, new⟩, conflict⟩
    · exact .inl ⟨q, m, old, conflict⟩
    · obtain ⟨rfl, rfl⟩ := LockRequest.mk.inj new
      exact .inr ⟨rfl, conflict⟩
  · rintro (⟨q, m, old, conflict⟩ | ⟨rfl, conflict⟩)
    · exact ⟨q, m, .inl old, conflict⟩
    · exact ⟨p, mode, .inr ⟨rfl, rfl⟩, conflict⟩

namespace Tracks

variable {pending : FinMap TxnId LockClaim}

/-- The waits on record while a new request is on trial are those that there would be if it waited. -/
theorem edge_set_iff (h : l.Tracks pending) (idle : pending.get? t = none) {a b : TxnId} :
    (l.waits.set t ((l.entry p).conflicts t mode)).Edge a b ↔ (l.queued t p mode).WaitsOn a b := by
  rw [waitsOn_queued_iff (h.awaits_eq_false idle), h.waitsOn_iff, WaitsFor.Edge]
  by_cases eq : a = t
  · rw [eq, WaitsFor.holders_set_self, h.unrecorded t idle]
    simp
  · rw [WaitsFor.holders_set_of_ne _ _ eq]
    simp [eq]

/-- A new request that cannot be granted is refused just if its wait would be one for itself. -/
theorem request_eq_deadlock_iff (h : l.Tracks pending) (idle : pending.get? t = none)
    (busy : (l.entry p).conflicts t mode ≠ []) :
    (l.request t p mode).2 = .deadlock ↔ TransGen (l.queued t p mode).WaitsOn t t := by
  have trial : (l.waits.set t ((l.entry p).conflicts t mode)).Edge = (l.queued t p mode).WaitsOn :=
    funext₂ fun _ _ => propext (h.edge_set_iff idle)
  rw [← trial, ← WaitsFor.hasCycleThrough_iff]
  rcases l.request_cases t p mode with ⟨free, -⟩ | ⟨-, safe, eq⟩ | ⟨-, cycle, eq⟩
  · exact absurd free busy
  · simp [eq, safe]
  · simp [eq, cycle]

/-- A request that waits already is never refused: its waits are on record, without a cycle. -/
theorem request_ne_deadlock (h : l.Tracks pending) (waits : pending.get? t = some ⟨p, mode⟩) :
    (l.request t p mode).2 ≠ .deadlock := by
  have known : Acyclic (l.waits.set t ((l.entry p).conflicts t mode)).Edge := by
    refine h.acyclic.mono fun b c edge => ?_
    by_cases eq : b = t
    · rw [WaitsFor.Edge, eq, WaitsFor.holders_set_self] at edge
      rwa [WaitsFor.Edge, eq, h.recorded t _ waits]
    · rwa [WaitsFor.Edge, WaitsFor.holders_set_of_ne _ _ eq] at edge
  rcases l.request_cases t p mode with ⟨-, eq⟩ | ⟨-, -, eq⟩ | ⟨-, cycle, -⟩
  · simp [eq]
  · simp [eq]
  · exact absurd (WaitsFor.hasCycleThrough_iff.mp cycle) (known t)

/-- A new request that is refused leaves every lock as it was. -/
theorem get?_entries_refused (h : l.Tracks pending) (idle : pending.get? t = none)
    (busy : (l.entry p).conflicts t mode ≠ []) (q : PageId) :
    (l.refused t p).entries.get? q = l.entries.get? q := by
  rw [LockTable.refused, LockEntry.dequeue_of_not_awaits (h.awaits_eq_false idle), FinMap.get?_insert]
  split
  · next eq => rw [eq, get?_entries_of_conflicts busy]
  · rfl

/-- A new request that is refused leaves no wait on record. -/
theorem holders_waits_refused (h : l.Tracks pending) (idle : pending.get? t = none) (u : TxnId) :
    (l.refused t p).waits.holders u = l.waits.holders u := by
  by_cases eq : u = t
  · rw [eq, h.unrecorded t idle]
    exact WaitsFor.holders_clear_self ..
  · exact WaitsFor.holders_clear_of_ne _ eq

end Tracks

end LockTable

namespace LockClients

/-- **The verdict is exact and harmless.** Whom a queued request conflicts with is on record, and nobody
else has anything on record. A new request is granted if the lock is held already or free for it; any
other is refused just if its wait would close a cycle of the waits in the queues, and then nothing has
changed. A request that waits is never refused when it is made again. -/
theorem verdict_exact {es : List LockEvent} {s : LockClients} (h : idle.run es = some s) :
    (∀ t p mode, ⟨t, mode⟩ ∈ (s.table.entry p).waiting →
      s.table.waits.holders t = (s.table.entry p).conflicts t mode) ∧
    (∀ t, (∀ p mode, ⟨t, mode⟩ ∉ (s.table.entry p).waiting) → s.table.waits.holders t = []) ∧
    (∀ t p mode, s.isPending t = false →
      ((s.table.acquire t p mode).2 = .granted ↔
        s.table.holds t p mode = true ∨ (s.table.entry p).conflicts t mode = []) ∧
      ((s.table.acquire t p mode).2 ≠ .granted → ((s.table.acquire t p mode).2 = .deadlock ↔
        TransGen (s.table.queued t p mode).WaitsOn t t)) ∧
      ((s.table.acquire t p mode).2 = .deadlock →
        (∀ q, (s.table.acquire t p mode).1.entries.get? q = s.table.entries.get? q) ∧
        (s.table.acquire t p mode).1.held = s.table.held ∧
        ∀ u, (s.table.acquire t p mode).1.waits.holders u = s.table.waits.holders u)) ∧
    ∀ t claim, s.pending.get? t = some claim →
      (s.table.request t claim.page claim.mode).2 ≠ .deadlock := by
  have tracks := (Sound.run h).tracks
  refine ⟨fun t p mode mem => ?recorded, fun t out => ?unrecorded,
    fun t p mode free => ?fresh, fun t claim waits => tracks.request_ne_deadlock waits⟩
  case recorded => exact tracks.recorded t _ ((tracks.queued ..).mp mem)
  case unrecorded =>
    cases waits : s.pending.get? t with
    | none => exact tracks.unrecorded t waits
    | some claim => exact absurd ((tracks.queued ..).mpr waits) (out claim.page claim.mode)
  case fresh =>
    have idle : s.pending.get? t = none := by
      simpa [isPending, FinMap.contains] using free
    cases held : s.table.holds t p mode with
    | true =>
      simp [LockTable.acquire_of_holds held]
    | false =>
      rw [LockTable.acquire_of_not_holds held]
      rcases s.table.request_cases t p mode with ⟨nobody, eq⟩ | ⟨busy, -, eq⟩ | ⟨busy, -, eq⟩
      · simp [eq, nobody]
      · exact ⟨by simp [eq, busy], fun _ => tracks.request_eq_deadlock_iff idle busy, by simp [eq]⟩
      · refine ⟨by simp [eq, busy], fun _ => tracks.request_eq_deadlock_iff idle busy, fun _ => ?_⟩
        rw [eq]
        exact ⟨tracks.get?_entries_refused idle busy, rfl, tracks.holders_waits_refused idle⟩

/-- Two transactions read a page that one of them wants to write; the other waits for a third. -/
def upgradeBehindReader : List LockEvent :=
  [.acquire ⟨1⟩ ⟨⟨.number 1, 0⟩, .shared⟩, .acquire ⟨2⟩ ⟨⟨.number 1, 0⟩, .shared⟩,
    .acquire ⟨3⟩ ⟨⟨.number 1, 1⟩, .exclusive⟩, .acquire ⟨1⟩ ⟨⟨.number 1, 1⟩, .shared⟩,
    .acquire ⟨2⟩ ⟨⟨.number 1, 0⟩, .exclusive⟩]

/-- After `upgradeBehindReader` the third transaction would wait for itself if it waited for the page
that is read. It is refused, the locks are as before, and who waits is not refused. -/
theorem verdict_exact_upgradeBehindReader :
    ∃ s, idle.run upgradeBehindReader = some s ∧
      s.table.waits.holders ⟨2⟩ = [⟨1⟩] ∧ s.table.waits.holders ⟨3⟩ = [] ∧
      TransGen (s.table.queued ⟨3⟩ ⟨.number 1, 0⟩ .exclusive).WaitsOn ⟨3⟩ ⟨3⟩ ∧
      (∀ q, (s.table.acquire ⟨3⟩ ⟨.number 1, 0⟩ .exclusive).1.entries.get? q
        = s.table.entries.get? q) ∧
      (s.table.request ⟨2⟩ ⟨.number 1, 0⟩ .exclusive).2 ≠ .deadlock := by
  have ⟨recorded, unrecorded, fresh, again⟩ :=
    verdict_exact (show idle.run upgradeBehindReader = some _ from rfl)
  have refusal := fresh ⟨3⟩ ⟨.number 1, 0⟩ .exclusive (by decide)
  refine ⟨_, rfl, recorded ⟨2⟩ ⟨.number 1, 0⟩ .exclusive (by decide), by decide,
    (refusal.2.1 (by decide)).mp (by decide), (refusal.2.2 (by decide)).1,
    again ⟨2⟩ ⟨⟨.number 1, 0⟩, .exclusive⟩ (by decide)⟩

end LockClients

end RowStore
