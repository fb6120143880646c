import RowStore.Proofs.Lock.Deadlock
import RowStore.Proofs.Lock.Holders

/-! # The parts of the lock table agree
The table keeps locks by page, pages by transaction, and queues. Main statement: `table_consistent`,
after every run of every number of clients. Every lock is in order by itself (`LockEntry.Proper`), no
entry and no list is kept that says nothing (`LockTable.Tidy`), and what is listed for a transaction is
what it holds (`LockTable.Sound`). A request leaves a lock in order only if it is not for a lock that is
held already, so that it matters that who waits for a lock does not hold it (`Consistent.unmet`). -/

namespace RowStore

/-! ## One lock -/

namespace LockEntry

variable {e : LockEntry} {t : TxnId} {mode : LockMode}

/-- Somebody who holds a lock is a reason to keep it. -/
theorem isIdle_eq_false_of_holds (h : e.holds t mode = true) : e.isIdle = false := by
  rw [Bool.eq_false_iff]
  intro idle
  rw [eq_of_isIdle idle] at h
  cases mode <;> simp [holds] at h

/-- A lock that keeps somebody from a mode is held. -/
theorem isIdle_eq_false_of_conflicts (busy : e.conflicts t mode ≠ []) : e.isIdle = false := by
  rw [Bool.eq_false_iff]
  intro idle
  rw [eq_of_isIdle idle] at busy
  cases mode <;> exact busy rfl

theorem isIdle_eq_false_iff :
    e.isIdle = false ↔ (∃ t, e.holds t .shared = true) ∨ e.waiting ≠ [] := by
  constructor
  · intro busy
    by_cases queue : e.waiting = []
    · -- nobody waits, so that there is a holder in one mode or the other
      left
      cases alone : e.exclusive with
      | some t => exact ⟨t, holds_shared_iff.mpr (.inl alone)⟩
      | none =>
        have shared : e.sharing ≠ [] := by simpa [isIdle, alone, queue] using busy
        obtain ⟨t, mem⟩ := List.exists_mem_of_ne_nil _ shared
        exact ⟨t, holds_shared_iff.mpr (.inr mem)⟩
    · exact .inr queue
  · rintro (⟨t, held⟩ | queue)
    · exact isIdle_eq_false_of_holds held
    · simp [isIdle, queue]

/-- What holds of every lock, whoever waits for the others. -/
structure Proper (e : LockEntry) : Prop where
  /-- Nobody shares a lock that is held alone, not even its holder. -/
  unshared : ∀ t, e.exclusive = some t → e.sharing = []
  /-- Nobody stands in the queue twice. -/
  distinct : (e.waiting.map LockRequest.txn).Nodup

namespace Proper

theorem empty : ({} : LockEntry).Proper :=
  ⟨nofun, List.nodup_nil⟩

theorem dequeue (h : e.Proper) (t : TxnId) : (e.dequeue t).Proper :=
  ⟨h.unshared, h.distinct.sublist (List.filter_sublist.map _)⟩

theorem enqueue (h : e.Proper) (t : TxnId) (mode : LockMode) : (e.enqueue t mode).Proper := by
  unfold LockEntry.enqueue
  split
  · exact h
  · next out =>
    refine ⟨h.unshared, ?_⟩
    have new : ∀ r ∈ e.waiting, r.txn ≠ t := by
      simpa [awaits] using out
    rw [List.map_append, List.nodup_append]
    refine ⟨h.distinct, by simp, ?_⟩
    rintro _ mem _ last rfl
    obtain ⟨r, old, eq⟩ := List.mem_map.mp mem
    exact new r old (by simpa [eq] using last)

/-- A grant of what is not held already keeps a lock in order. -/
theorem grant (h : e.Proper) (free : e.conflicts t mode = []) (new : e.holds t mode = false) :
    (e.grant t mode).Proper := by
  refine ⟨fun u alone => ?_, LockEntry.waiting_grant ▸ (h.dequeue t).distinct⟩
  have none_left : ∀ w, w ∉ e.conflicts t mode := by simp [free]
  simp only [mem_conflicts] at none_left
  cases mode with
  | shared =>
    -- whoever holds the lock alone is `t`, and would read it already
    have other : u ≠ t := by
      rintro rfl
      have held : e.holds u .shared = true := holds_shared_iff.mpr (.inl alone)
      exact absurd held (by simp [new])
    exact absurd ⟨other, .inl alone⟩ (none_left u)
  | exclusive =>
    refine List.filter_eq_nil_iff.mpr fun w mem => ?_
    simpa using fun other => none_left w ⟨other, .inr ⟨rfl, mem⟩⟩

theorem release (h : e.Proper) (t : TxnId) : (e.release t).Proper := by
  refine ⟨fun u alone => ?_, h.distinct⟩
  have before := (Option.filter_eq_some_iff.mp alone).1
  rw [LockEntry.release, h.unshared u before, List.filter_nil]

end Proper

end LockEntry

/-! ## The table -/

namespace LockTable

variable {l l' : LockTable} {t u : TxnId} {p q : PageId} {mode : LockMode}

/-- What holds of the entries and lists of a table. -/
structure Tidy (l : LockTable) : Prop where
  proper : ∀ p, (l.entry p).Proper
  /-- There is an entry for every lock that is held or waited for, and for no other. -/
  present : ∀ p, l.entries.contains p = true ↔ (l.entry p).isIdle = false
  /-- A transaction for which pages are listed has some. -/
  filled : ∀ t, l.held.get? t ≠ some []

namespace Tidy

theorem empty : (∅ : LockTable).Tidy where
  proper _ := .empty
  present p := by
    have idle : ((∅ : LockTable).entry p).isIdle = true := rfl
    have out : (∅ : LockTable).entries.contains p = false := rfl
    rw [idle, out]
    simp
  filled _ := nofun

/-- A new entry keeps the table tidy if it is in order and says something. -/
theorem insert (h : l.Tidy) {e : LockEntry} (entries : l'.entries = l.entries.insert p e)
    (proper : e.Proper) (busy : e.isIdle = false) (filled : ∀ t, l'.held.get? t ≠ some []) :
    l'.Tidy := by
  have entry : ∀ q, l'.entry q = if q = p then e else l.entry q := by
    intro q
    rw [LockTable.entry, entries, FinMap.getD_insert, LockTable.entry]
  refine ⟨fun q => ?proper, fun q => ?present, filled⟩
  case proper =>
    rw [entry]
    split
    · exact proper
    · exact h.proper q
  case present =>
    rw [entry, FinMap.contains, entries, FinMap.get?_insert]
    split
    · simp [busy]
    · exact h.present q

/-- An entry that is dropped keeps the table tidy. -/
theorem erase (h : l.Tidy) (entries : l'.entries = l.entries.erase p) (held : l'.held = l.held) :
    l'.Tidy := by
  have entry : ∀ q, l'.entry q = if q = p then {} else l.entry q := by
    intro q
    rw [LockTable.entry, entries, FinMap.getD_erase, LockTable.entry]
  refine ⟨fun q => ?proper, fun q => ?present, held ▸ h.filled⟩
  case proper =>
    rw [entry]
    split
    · exact .empty
    · exact h.proper q
  case present =>
    rw [entry, FinMap.contains, entries, FinMap.get?_erase]
    split
    · simp [LockEntry.isIdle]
    · exact h.present q

theorem get?_addHeld_ne_nil {held : FinMap TxnId (List PageId)} (filled : ∀ u, held.get? u ≠ some [])
    (u : TxnId) : (addHeld held t p).get? u ≠ some [] := by
  rw [addHeld]
  split
  · exact filled u
  · rw [FinMap.get?_insert]
    split
    · simp
    · exact filled u

theorem get?_removeHeld_ne_nil {held : FinMap TxnId (List PageId)} (filled : ∀ u, held.get? u ≠ some [])
    (u : TxnId) : (removeHeld held t p).get? u ≠ some [] := by
  rw [removeHeld]
  split
  · rw [FinMap.get?_erase]
    split
    · simp
    · exact filled u
  · next left =>
    rw [FinMap.get?_insert]
    split
    · simpa using left
    · exact filled u

/-- A request for what is not held already keeps the table tidy. -/
theorem request (h : l.Tidy) (new : l.holds t p mode = false) : (l.request t p mode).1.Tidy := by
  rcases l.request_cases t p mode with ⟨free, eq⟩ | ⟨busy, -, eq⟩ | ⟨busy, -, eq⟩
  · -- granted: the lock has a holder now, and the list of this holder a page
    rw [eq]
    exact h.insert rfl ((h.proper p).grant free new)
      (LockEntry.isIdle_eq_false_of_holds LockEntry.holds_grant_self) (get?_addHeld_ne_nil h.filled)
  · -- queued or refused: those whom the request conflicts with hold the lock on
    rw [eq]
    exact h.insert rfl ((h.proper p).enqueue t mode)
      (LockEntry.isIdle_eq_false_of_conflicts (by rwa [LockEntry.conflicts_enqueue])) h.filled
  · rw [eq]
    exact h.insert rfl ((h.proper p).dequeue t)
      (LockEntry.isIdle_eq_false_of_conflicts (by rwa [LockEntry.conflicts_dequeue])) h.filled

theorem releaseEntry (h : l.Tidy) (t : TxnId) (p : PageId) : (l.releaseEntry t p).Tidy := by
  cases held : l.holdsAny t p with
  | false => rwa [releaseEntry_of_not_holds l t p held]
  | true =>
    rw [releaseEntry_of_holds l t p held]
    cases idle : ((l.entry p).release t).isIdle with
    | true => exact h.erase rfl rfl
    | false => exact h.insert rfl ((h.proper p).release t) idle h.filled

theorem release (h : l.Tidy) (t : TxnId) (p : PageId) : (l.release t p).Tidy :=
  releaseEntry (l := { l with held := removeHeld l.held t p })
    ⟨h.proper, h.present, get?_removeHeld_ne_nil h.filled⟩ t p

theorem foldl_releaseEntry (h : l.Tidy) (t : TxnId) (pages : List PageId) :
    (pages.foldl (·.releaseEntry t) l).Tidy :=
  List.foldlRecOn pages _ h fun _ h p _ => h.releaseEntry t p

theorem releaseAll (h : l.Tidy) (t : TxnId) : (l.releaseAll t).Tidy := by
  have unlisted : ({ l with held := l.held.erase t, waits := l.waits.clear t } : LockTable).Tidy := by
    refine ⟨h.proper, h.present, fun u => ?_⟩
    rw [FinMap.get?_erase]
    split
    · simp
    · exact h.filled u
  exact unlisted.foldl_releaseEntry t (l.pagesOf t)

end Tidy

end LockTable

/-! ## The clients -/

namespace LockClients

/-- What holds of the parts of the lock table after every event. -/
structure Consistent (s : LockClients) : Prop where
  tidy : s.table.Tidy
  sound : s.table.Sound
  /-- Who waits for a lock does not hold it. -/
  unmet : ∀ t claim, s.pending.get? t = some claim →
    s.table.holds t claim.page claim.mode = false

theorem consistent_idle : idle.Consistent :=
  ⟨.empty, .empty, fun _ _ h => by simp [idle] at h⟩

namespace Consistent

variable {s s' : LockClients} {t : TxnId} {claim : LockClaim}

/-- A request keeps the parts in agreement, when it is made for the first time and when it is made
again. -/
theorem settle_request (h : s.Consistent) (new : s.table.holds t claim.page claim.mode = false) :
    (s.settle t claim (s.table.request t claim.page claim.mode)).Consistent := by
  obtain ⟨p, mode⟩ := claim
  have tidy := h.tidy.request new
  have sound := h.sound.request t p mode
  -- whoever waits on has waited before, and is given nothing by the request of another
  have others : ∀ u c, (s.pending.erase t).get? u = some c →
      (s.table.request t p mode).1.holds u c.page c.mode = false := by
    intro u c hu
    obtain ⟨ne, before⟩ := LockTable.Tracks.get?_of_get?_erase hu
    rw [LockTable.holds_request_of_ne ne, h.unmet u c before]
  rcases s.table.request_cases t p mode with ⟨-, eq⟩ | ⟨-, -, eq⟩ | ⟨-, -, eq⟩
  · rw [eq] at tidy sound others ⊢
    exact ⟨tidy, sound, others⟩
  · -- queued: `t` is the only one who has not waited before
    rw [eq] at tidy sound ⊢
    refine ⟨tidy, sound, fun u c hu => ?_⟩
    simp only [settle, FinMap.get?_insert] at hu
    rw [settle, LockTable.holds_queued]
    split at hu
    · next eq =>
      obtain rfl := Option.some.inj hu
      rw [eq, new]
    · exact h.unmet u c hu
  · rw [eq] at tidy sound others ⊢
    exact ⟨tidy, sound, others⟩

/-- A lock that is held already is granted at once, and nothing changes. -/
theorem settle_granted (h : s.Consistent) :
    (s.settle t claim (s.table, .granted)).Consistent :=
  ⟨h.tidy, h.sound, fun u c hu => h.unmet u c (LockTable.Tracks.get?_of_get?_erase hu).2⟩

/-- A release keeps the parts in agreement, because it gives nobody a lock. -/
theorem wake {table : LockTable} (h : s.Consistent) (tidy : table.Tidy) (sound : table.Sound)
    (fewer : ∀ u q m, s.table.holds u q m = false → table.holds u q m = false) :
    (s.wake table).Consistent :=
  ⟨⟨tidy.proper, tidy.present, tidy.filled⟩, sound.congr rfl fun _ _ _ => rfl,
    fun u c hu => fewer _ _ _ (h.unmet u c hu)⟩

/-- Every event keeps the parts in agreement. -/
theorem next (h : s.Consistent) {e : LockEvent} (hs : s.next? e = some s') : s'.Consistent := by
  cases next_of_next? hs with
  | @acquire t claim _ =>
    cases held : s.table.holds t claim.page claim.mode with
    | true =>
      rw [LockTable.acquire_of_holds held]
      exact h.settle_granted
    | false =>
      rw [LockTable.acquire_of_not_holds held]
      exact h.settle_request held
  | retry waits => exact h.settle_request (h.unmet _ _ waits)
  | release _ =>
    refine h.wake (h.tidy.release ..) (h.sound.release ..) fun u q m free => ?_
    rw [LockTable.holds_release]
    split
    · rfl
    · exact free
  | releaseAll _ =>
    refine h.wake (h.tidy.releaseAll _) (h.sound.releaseAll _) fun u q m free => ?_
    rw [h.sound.holds_releaseAll]
    split
    · rfl
    · exact free

theorem run {es : List LockEvent} (h : idle.run es = some s) : s.Consistent :=
  runEvents_induction (fun _ hs consistent => consistent.next hs) h consistent_idle

/-- A lock that is held is kept in its mode until its holder releases it. -/
theorem holds_next (h : s.Consistent) {e : LockEvent} (hs : s.next? e = some s') {p : PageId}
    {mode : LockMode} (held : s.table.holds t p mode = true) :
    s'.table.holds t p mode = true ∨ e = .release t p ∨ e = .releaseAll t := by
  cases next_of_next? hs with
  | @acquire u claim _ =>
    rw [table_settle]
    by_cases eq : t = u
    · exact .inl (eq ▸ LockTable.holds_acquire_of_holds (eq ▸ held))
    · exact .inl ((LockTable.holds_acquire_of_ne eq).trans held)
  | @retry u claim _ =>
    rw [table_settle]
    by_cases eq : t = u
    · exact .inl (eq ▸ LockTable.holds_request_of_holds (eq ▸ held))
    · exact .inl ((LockTable.holds_request_of_ne eq).trans held)
  | @release u q _ =>
    by_cases own : t = u ∧ p = q
    · obtain ⟨rfl, rfl⟩ := own
      exact .inr (.inl rfl)
    · refine .inl (Eq.trans ?_ held)
      exact LockTable.holds_release.trans (if_neg own)
  | @releaseAll u _ =>
    by_cases own : t = u
    · exact .inr (.inr (own ▸ rfl))
    · refine .inl (Eq.trans ?_ held)
      exact h.sound.holds_releaseAll.trans (if_neg own)

end Consistent

/-- **The lock table is consistent.** Who holds a lock alone shares it with nobody. No event but a
release of its own takes a lock from a transaction, in either mode. The pages listed for a transaction
are those whose locks it holds, and no list is empty. Nobody is queued twice, for one page or for two.
There is an entry for a page just if its lock is held or waited for. -/
theorem table_consistent {es : List LockEvent} {s : LockClients} (h : idle.run es = some s) :
    (∀ t p, s.table.holds t p .exclusive = true →
      (s.table.entry p).sharing = [] ∧ ∀ u mode, s.table.holds u p mode = true → u = t) ∧
    (∀ e s', s.next? e = some s' → ∀ t p mode, s.table.holds t p mode = true →
      s'.table.holds t p mode = true ∨ e = .release t p ∨ e = .releaseAll t) ∧
    (∀ t p, p ∈ s.table.pagesOf t ↔ s.table.holdsAny t p = true) ∧
    (∀ t, s.table.held.get? t ≠ some []) ∧
    (∀ p, ((s.table.entry p).waiting.map LockRequest.txn).Nodup) ∧
    (∀ t p q m m', ⟨t, m⟩ ∈ (s.table.entry p).waiting → ⟨t, m'⟩ ∈ (s.table.entry q).waiting →
      p = q) ∧
    ∀ p, s.table.entries.contains p = true ↔
      (∃ t, s.table.holdsAny t p = true) ∨ (s.table.entry p).waiting ≠ [] := by
  have consistent := Consistent.run h
  have tracks := (Sound.run h).tracks
  refine ⟨fun t p alone => ⟨?unshared, fun u mode => consistent.sound.alone alone⟩,
    fun e s' hs t p mode => consistent.holds_next hs, consistent.sound.listed,
    consistent.tidy.filled, fun p => (consistent.tidy.proper p).distinct,
    fun t p q m m' here there => ?once, fun p => ?present⟩
  case unshared =>
    exact (consistent.tidy.proper p).unshared t (LockEntry.holds_exclusive_iff.mp alone)
  case once =>
    -- both queues hold the one request that the transaction has outstanding
    have same := ((tracks.queued t p m).mp here).symm.trans ((tracks.queued t q m').mp there)
    exact congrArg LockClaim.page (Option.some.inj same)
  case present => exact (consistent.tidy.present p).trans LockEntry.isIdle_eq_false_iff

/-- A reader of a page waits to write it, until the other reader releases it. A third transaction waits
for the page, and releases another that it does not hold. -/
def upgradeAndWaiter : List LockEvent :=
  [.acquire ⟨1⟩ ⟨⟨.number 1, 0⟩, .shared⟩, .acquire ⟨2⟩ ⟨⟨.number 1, 0⟩, .shared⟩,
    .release ⟨3⟩ ⟨.number 1, 1⟩, .acquire ⟨1⟩ ⟨⟨.number 1, 0⟩, .exclusive⟩,
    .releaseAll ⟨2⟩, .retry ⟨1⟩, .acquire ⟨3⟩ ⟨⟨.number 1, 0⟩, .shared⟩]

/-- After `upgradeAndWaiter` the first transaction holds the page alone and the third waits for it. An
entry is kept for this page, and none for the other. -/
theorem table_consistent_upgradeAndWaiter : ∃ s, idle.run upgradeAndWaiter = some s ∧
    s.table.holds ⟨1⟩ ⟨.number 1, 0⟩ .exclusive = true ∧
    (s.table.entry ⟨.number 1, 0⟩).sharing = [] ∧
    (s.table.entry ⟨.number 1, 0⟩).waiting = [⟨⟨3⟩, .shared⟩] ∧
    ⟨.number 1, 0⟩ ∈ s.table.pagesOf ⟨1⟩ ∧ s.table.holdsAny ⟨2⟩ ⟨.number 1, 0⟩ = false ∧
    s.table.entries.contains ⟨.number 1, 0⟩ = true ∧
    s.table.entries.contains ⟨.number 1, 1⟩ = false := by
  have ran : (idle.run upgradeAndWaiter).map (fun s =>
      (s.table.holds ⟨1⟩ ⟨.number 1, 0⟩ .exclusive, s.table.holdsAny ⟨2⟩ ⟨.number 1, 0⟩,
        (s.table.entry ⟨.number 1, 0⟩).waiting, s.table.entries.contains ⟨.number 1, 1⟩))
        = some (true, false, [⟨⟨3⟩, .shared⟩], false) := by decide
  obtain ⟨s, run, told⟩ := Option.map_eq_some_iff.mp ran
  simp only [Prod.mk.injEq] at told
  obtain ⟨held, gone, queue, dropped⟩ := told
  obtain ⟨alone, -, listed, -, -, -, present⟩ := table_consistent run
  exact ⟨s, run, held, (alone _ _ held).1, queue,
    (listed _ _).mpr (LockTable.holdsAny_of_holds held), gone,
    (present _).mpr (.inr (by simp [queue])), dropped⟩

end LockClients

end RowStore
