import RowStore.Lock.Table

/-! # What operations on locks do
Each operation on the lock table changes the lock of one page, or of the pages that a transaction holds.
This file says what becomes of every lock (`entry_granted`, `entry_queued`, `entry_refused`,
`entry_releaseEntry`, `entry_releaseAll`), and of the recorded waits. A request has one of three
outcomes, and `request_cases` tells when each of them arises. -/

namespace RowStore

namespace LockEntry

variable {e : LockEntry} {t u : TxnId} {mode : LockMode}

theorem mem_conflicts : u ∈ e.conflicts t mode ↔
    u ≠ t ∧ (e.exclusive = some u ∨ mode = .exclusive ∧ u ∈ e.sharing) := by
  cases mode <;> simp [conflicts] <;> grind

/-- Who waits for a lock has no part in what conflicts with a request. -/
theorem conflicts_congr {f : LockEntry} (ex : f.exclusive = e.exclusive)
    (sh : f.sharing = e.sharing) : f.conflicts t mode = e.conflicts t mode := by
  simp [conflicts, ex, sh]

@[simp] theorem conflicts_dequeue : (e.dequeue u).conflicts t mode = e.conflicts t mode :=
  conflicts_congr rfl rfl

@[simp] theorem exclusive_enqueue : (e.enqueue t mode).exclusive = e.exclusive := by
  unfold enqueue
  split <;> rfl

@[simp] theorem sharing_enqueue : (e.enqueue t mode).sharing = e.sharing := by
  unfold enqueue
  split <;> rfl

@[simp] theorem conflicts_enqueue {mode' : LockMode} :
    (e.enqueue u mode').conflicts t mode = e.conflicts t mode :=
  conflicts_congr exclusive_enqueue sharing_enqueue

theorem awaits_iff : e.awaits t = true ↔ ∃ mode, ⟨t, mode⟩ ∈ e.waiting := by
  simp only [awaits, List.any_eq_true, decide_eq_true_eq]
  constructor
  · rintro ⟨⟨_, mode⟩, mem, rfl⟩
    exact ⟨mode, mem⟩
  · rintro ⟨mode, mem⟩
    exact ⟨_, mem, rfl⟩

theorem mem_waiting_enqueue {r : LockRequest} : r ∈ (e.enqueue t mode).waiting ↔
    r ∈ e.waiting ∨ (e.awaits t = false ∧ r = ⟨t, mode⟩) := by
  unfold enqueue
  split <;> simp_all

@[simp] theorem mem_waiting_dequeue {r : LockRequest} :
    r ∈ (e.dequeue t).waiting ↔ r ∈ e.waiting ∧ r.txn ≠ t := by
  simp [dequeue]

@[simp] theorem waiting_grant : (e.grant t mode).waiting = (e.dequeue t).waiting := by
  cases mode <;> rfl

@[simp] theorem waiting_release : (e.release t).waiting = e.waiting := rfl

/-- A grant keeps nobody waiting but for the new holder. -/
theorem mem_conflicts_of_mem_conflicts_grant {v : TxnId} {mode' : LockMode}
    (h : v ∈ (e.grant t mode).conflicts u mode') : v ∈ e.conflicts u mode' ∨ v = t := by
  rw [mem_conflicts] at h ⊢
  cases mode <;> simp only [grant, dequeue] at h <;> grind

/-- A grant frees nobody from waiting. -/
theorem conflicts_grant_ne_nil {mode' : LockMode} (free : e.conflicts t mode = []) (ne : u ≠ t)
    (h : e.conflicts u mode' ≠ []) : (e.grant t mode).conflicts u mode' ≠ [] := by
  obtain ⟨v, hv⟩ := List.exists_mem_of_ne_nil _ h
  have none_left : ∀ w, w ∉ e.conflicts t mode := by simp [free]
  simp only [mem_conflicts] at hv none_left
  -- whoever conflicted still holds the lock, or `t` holds it in that place now
  apply List.ne_nil_of_mem (a := if v = t then t else v)
  rw [mem_conflicts]
  cases mode <;> simp only [grant, dequeue] <;> grind

theorem holds_shared_iff : e.holds t .shared = true ↔ e.exclusive = some t ∨ t ∈ e.sharing := by
  simp [holds]

theorem holds_exclusive_iff : e.holds t .exclusive = true ↔ e.exclusive = some t := by
  simp [holds]

/-- Whoever may write may read. -/
theorem holds_shared_of_holds (h : e.holds t mode = true) : e.holds t .shared = true := by
  cases mode
  · exact h
  · exact holds_shared_iff.mpr (.inl (holds_exclusive_iff.mp h))

/-- Who waits for a lock has no part in who holds it. -/
theorem holds_congr {f : LockEntry} (ex : f.exclusive = e.exclusive)
    (sh : f.sharing = e.sharing) : f.holds t mode = e.holds t mode := by
  cases mode <;> simp [holds, ex, sh]

@[simp] theorem holds_dequeue : (e.dequeue u).holds t mode = e.holds t mode :=
  holds_congr rfl rfl

@[simp] theorem holds_enqueue {mode' : LockMode} :
    (e.enqueue u mode').holds t mode = e.holds t mode :=
  holds_congr exclusive_enqueue sharing_enqueue

/-- A grant gives the lock to its transaction. -/
@[simp] theorem holds_grant_self : (e.grant t mode).holds t mode = true := by
  cases mode
  · rw [holds_shared_iff]
    simp only [grant, dequeue]
    grind
  · exact holds_exclusive_iff.mpr rfl

/-- A grant takes nothing from its transaction. -/
theorem holds_grant_of_holds {mode' : LockMode} (h : e.holds t mode' = true) :
    (e.grant t mode).holds t mode' = true := by
  cases mode <;> cases mode' <;> simp_all [grant, dequeue, holds] <;> grind

/-- A grant is of no consequence for the other transactions. -/
theorem holds_grant_of_ne {mode' : LockMode} (free : e.conflicts t mode = []) (ne : u ≠ t) :
    (e.grant t mode).holds u mode' = e.holds u mode' := by
  -- a shared grant takes the place of no writer, an exclusive one that of no reader
  have none_left : ∀ w, w ∉ e.conflicts t mode := by simp [free]
  simp only [mem_conflicts] at none_left
  rw [Bool.eq_iff_iff]
  cases mode <;> cases mode' <;> simp [grant, dequeue, holds] <;> grind

/-- A lock that is shared is held alone by nobody new. -/
@[simp] theorem holds_exclusive_grant_shared :
    (e.grant t .shared).holds u .exclusive = e.holds u .exclusive := rfl

/-- Of two modes in which two transactions hold or want a lock, one must be exclusive for a conflict. -/
theorem mem_conflicts_of_holds {mode' : LockMode} (h : e.holds u mode' = true) (ne : u ≠ t)
    (modes : mode' = .exclusive ∨ mode = .exclusive) : u ∈ e.conflicts t mode := by
  rw [mem_conflicts]
  cases mode' with
  | exclusive => exact ⟨ne, .inl (holds_exclusive_iff.mp h)⟩
  | shared =>
    obtain rfl := modes.resolve_left nofun
    exact ⟨ne, (holds_shared_iff.mp h).imp_right fun mem => ⟨rfl, mem⟩⟩

@[simp] theorem holds_release_self : (e.release t).holds t mode = false := by
  cases mode <;> simp [release, holds, Option.filter_eq_some_iff]

theorem holds_release_of_ne (ne : u ≠ t) : (e.release t).holds u mode = e.holds u mode := by
  rw [Bool.eq_iff_iff]
  cases mode <;> simp [release, holds, Option.filter_eq_some_iff] <;> grind

theorem mem_conflicts_of_mem_conflicts_release {v : TxnId}
    (h : v ∈ (e.release t).conflicts u mode) : v ∈ e.conflicts u mode := by
  rw [mem_conflicts] at h ⊢
  simp only [release, List.mem_filter, Option.filter_eq_some_iff] at h
  exact ⟨h.1, h.2.imp And.left (And.imp_right And.left)⟩

/-- A lock that is idle is as if it had never been asked for. -/
theorem eq_of_isIdle (h : e.isIdle = true) : e = {} := by
  obtain ⟨sharing, exclusive, waiting⟩ := e
  simp_all [isIdle]

/-- To release a lock that is not held changes nothing. -/
theorem release_of_not_holds (h : e.holds t .shared = false) : e.release t = e := by
  obtain ⟨sharing, exclusive, waiting⟩ := e
  simp only [holds, Bool.or_eq_false_iff, decide_eq_false_iff_not] at h
  simp only [release, LockEntry.mk.injEq, List.filter_eq_self, and_true]
  constructor
  · intro u mem
    simpa using fun eq : u = t => h.2 (eq ▸ mem)
  · cases exclusive <;> simp_all [Option.filter]

@[simp] theorem release_release : (e.release t).release t = e.release t := by
  apply release_of_not_holds
  simp [holds, release, Option.filter_eq_some_iff]

end LockEntry

namespace LockTable

variable (l : LockTable) (t : TxnId) (p : PageId) (mode : LockMode)

/-- The table after a request has been granted. -/
def granted : LockTable :=
  { l with
    entries := l.entries.insert p ((l.entry p).grant t mode)
    held := addHeld l.held t p
    waits := refresh ((l.entry p).grant t mode) (l.waits.clear t) }

/-- The table after a request has been put into the queue. -/
def queued : LockTable :=
  { l with
    entries := l.entries.insert p ((l.entry p).enqueue t mode)
    waits := l.waits.set t ((l.entry p).conflicts t mode) }

/-- The table after a request has been refused. -/
def refused : LockTable :=
  { l with
    entries := l.entries.insert p ((l.entry p).dequeue t)
    waits := l.waits.clear t }

/-- The three outcomes of a request. -/
theorem request_cases :
    ((l.entry p).conflicts t mode = [] ∧ l.request t p mode = (l.granted t p mode, .granted)) ∨
    ((l.entry p).conflicts t mode ≠ [] ∧
      (l.waits.set t ((l.entry p).conflicts t mode)).hasCycleThrough t = false ∧
      l.request t p mode = (l.queued t p mode, .waiting)) ∨
    ((l.entry p).conflicts t mode ≠ [] ∧
      (l.waits.set t ((l.entry p).conflicts t mode)).hasCycleThrough t = true ∧
      l.request t p mode = (l.refused t p, .deadlock)) := by
  cases conflicts : (l.entry p).conflicts t mode with
  | nil => exact .inl ⟨rfl, by simp only [request, conflicts, granted]⟩
  | cons u us =>
    cases cycle : (l.waits.set t (u :: us)).hasCycleThrough t with
    | false => exact .inr (.inl ⟨by simp, rfl, by simp [request, conflicts, cycle, queued]⟩)
    | true => exact .inr (.inr ⟨by simp, rfl, by simp [request, conflicts, cycle, refused]⟩)

variable (q : PageId)

@[simp] theorem entry_empty : (∅ : LockTable).entry q = {} := rfl

theorem entry_granted : (l.granted t p mode).entry q =
    if q = p then (l.entry p).grant t mode else l.entry q :=
  l.entries.getD_insert ..

theorem entry_queued : (l.queued t p mode).entry q =
    if q = p then (l.entry p).enqueue t mode else l.entry q :=
  l.entries.getD_insert ..

theorem entry_refused : (l.refused t p).entry q =
    if q = p then (l.entry p).dequeue t else l.entry q :=
  l.entries.getD_insert ..

/-- The lock of a page is taken from who holds it. -/
theorem releaseEntry_of_holds (held : l.holdsAny t p = true) :
    l.releaseEntry t p = { l with
      entries := if ((l.entry p).release t).isIdle then l.entries.erase p
        else l.entries.insert p ((l.entry p).release t)
      waits := refresh ((l.entry p).release t) l.waits
      notified := p :: l.notified } :=
  if_pos held

/-- Nothing is taken from who does not hold the lock of a page. -/
theorem releaseEntry_of_not_holds (free : l.holdsAny t p = false) : l.releaseEntry t p = l :=
  if_neg (by simp [free])

@[simp] theorem conflicts_queued (u : TxnId) (m : LockMode) :
    ((l.queued t p mode).entry q).conflicts u m = (l.entry q).conflicts u m := by
  rw [entry_queued]
  split
  · next eq => rw [eq, LockEntry.conflicts_enqueue]
  · rfl

@[simp] theorem conflicts_refused (u : TxnId) (m : LockMode) :
    ((l.refused t p).entry q).conflicts u m = (l.entry q).conflicts u m := by
  rw [entry_refused]
  split
  · next eq => rw [eq, LockEntry.conflicts_dequeue]
  · rfl

/-- A grant frees none of the other requests in the table. -/
theorem conflicts_granted_ne_nil {u : TxnId} {m : LockMode}
    (free : (l.entry p).conflicts t mode = []) (ne : u ≠ t)
    (kept : (l.entry q).conflicts u m ≠ []) :
    ((l.granted t p mode).entry q).conflicts u m ≠ [] := by
  rw [entry_granted]
  split
  · next eq => exact LockEntry.conflicts_grant_ne_nil free ne (eq ▸ kept)
  · exact kept

theorem entry_releaseEntry : (l.releaseEntry t p).entry q =
    if q = p then (l.entry p).release t else l.entry q := by
  cases held : l.holdsAny t p with
  | true =>
    rw [releaseEntry_of_holds l t p held]
    by_cases idle : ((l.entry p).release t).isIdle = true
    · -- an entry that is thrown away reads like the idle one that it was
      have gone := LockEntry.eq_of_isIdle idle
      simp only [idle, if_true]
      rw [entry, FinMap.getD_erase, gone]
      rfl
    · simp only [idle]
      exact l.entries.getD_insert ..
  | false =>
    have same : (l.entry p).release t = l.entry p := LockEntry.release_of_not_holds held
    rw [releaseEntry_of_not_holds l t p held, same]
    split
    · next eq => rw [eq]
    · rfl

/-- What becomes of a lock when those of several pages are taken from a transaction. -/
theorem entry_foldl_releaseEntry (pages : List PageId) :
    (pages.foldl (·.releaseEntry t) l).entry q =
      if q ∈ pages then (l.entry q).release t else l.entry q := by
  induction pages generalizing l with
  | nil => rfl
  | cons p pages ih =>
    rw [List.foldl_cons, ih, entry_releaseEntry]
    -- a page that is listed twice is released twice, which makes no difference
    by_cases here : q = p <;> by_cases later : q ∈ pages <;> simp_all

theorem entry_releaseAll : (l.releaseAll t).entry q =
    if q ∈ l.pagesOf t then (l.entry q).release t else l.entry q :=
  entry_foldl_releaseEntry ..

end LockTable

end RowStore
