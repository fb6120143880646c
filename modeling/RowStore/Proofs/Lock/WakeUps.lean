import RowStore.Proofs.Lock.Consistency

/-! # Nobody is left asleep
A release notifies who waits for the lock. Those who have been notified make their requests again, in any
order, and others may get the lock before them. Main statement: `no_lost_wakeup`. A request that goes back
to sleep does so behind a holder (`Sound.kept`), and that holder can only leave by a release, which
notifies again (`Attentive.mem_woken_next`). -/

namespace RowStore

namespace LockTable

variable {l : LockTable} {t : TxnId} {p q : PageId}

/-- Somebody who holds a page's lock in one table holds it no longer in another. -/
def GivesUp (l l' : LockTable) (p : PageId) : Prop :=
  ∃ t, l.holdsAny t p = true ∧ l'.holdsAny t p = false

/-- A release is notified if there was something to release. -/
theorem mem_notified_releaseEntry :
    q ∈ (l.releaseEntry t p).notified ↔ q ∈ l.notified ∨ q = p ∧ l.holdsAny t q = true := by
  cases held : l.holdsAny t p with
  | true =>
    rw [releaseEntry_of_holds l t p held, List.mem_cons, or_comm]
    exact or_congr_right ⟨fun eq => ⟨eq, eq ▸ held⟩, And.left⟩
  | false =>
    have unheld : ¬ (q = p ∧ l.holdsAny t q = true) := by
      rintro ⟨rfl, here⟩
      simp [held] at here
    rw [releaseEntry_of_not_holds l t p held, or_iff_left unheld]

theorem mem_notified_foldl_releaseEntry (pages : List PageId) :
    q ∈ (pages.foldl (·.releaseEntry t) l).notified ↔
      q ∈ l.notified ∨ q ∈ pages ∧ l.holdsAny t q = true := by
  induction pages generalizing l with
  | nil => simp
  | cons p pages ih =>
    -- what is released here is notified already when its turn comes again
    have left : (l.releaseEntry t p).holdsAny t q
        = if t = t ∧ q = p then false else l.holdsAny t q := holds_releaseEntry
    rw [List.foldl_cons, ih, mem_notified_releaseEntry, left]
    by_cases here : q = p
    · simp [here]
    · simp [here]

/-- What is taken from one transaction is given up if that transaction holds it. -/
theorem givesUp_iff {l' : LockTable} {taken : Prop} [Decidable taken]
    (left : ∀ u, l'.holdsAny u q = if u = t ∧ taken then false else l.holdsAny u q) :
    l.GivesUp l' q ↔ taken ∧ l.holdsAny t q = true := by
  constructor
  · rintro ⟨u, before, after⟩
    rw [left, before] at after
    split at after
    · next own => exact ⟨own.2, own.1 ▸ before⟩
    · cases after
  · rintro ⟨here, held⟩
    exact ⟨t, held, (left t).trans (if_pos ⟨rfl, here⟩)⟩

/-- A release is notified for the lock that is given up. -/
theorem mem_notified_release_iff (quiet : l.notified = []) :
    q ∈ (l.release t p).notified ↔ l.GivesUp (l.release t p) q := by
  have released : q ∈ (l.release t p).notified ↔ q ∈ l.notified ∨ q = p ∧ l.holdsAny t q = true :=
    mem_notified_releaseEntry
  rw [released, quiet, givesUp_iff fun u => holds_release]
  simp

/-- The end of a transaction is notified for all its locks. -/
theorem Sound.mem_notified_releaseAll_iff (h : l.Sound) (quiet : l.notified = []) :
    q ∈ (l.releaseAll t).notified ↔ l.GivesUp (l.releaseAll t) q := by
  have released : q ∈ (l.releaseAll t).notified ↔
      q ∈ l.notified ∨ q ∈ l.pagesOf t ∧ l.holdsAny t q = true :=
    mem_notified_foldl_releaseEntry (l.pagesOf t)
  have left : ∀ u, (l.releaseAll t).holdsAny u q
      = if u = t ∧ True then false else l.holdsAny u q := fun u => by
    rw [holdsAny, h.holds_releaseAll, holdsAny]
    simp
  rw [released, quiet, givesUp_iff left, h.listed]
  simp

end LockTable

namespace LockClients

variable {s s' : LockClients} {t u : TxnId}

/-- What holds of the transactions that have been woken after every event. -/
structure Attentive (s : LockClients) : Prop where
  /-- Who has been woken still has its request outstanding. -/
  outstanding : ∀ t ∈ s.woken, ∃ claim, s.pending.get? t = some claim
  distinct : s.pending.keys.Nodup

/-- Those are woken who wait for a page that is notified. -/
theorem mem_woken_wake (distinct : s.pending.keys.Nodup) {table : LockTable} :
    u ∈ (s.wake table).woken ↔
      u ∈ s.woken ∨ ∃ claim, s.pending.get? u = some claim ∧ claim.page ∈ table.notified := by
  rw [wake, List.mem_append, List.mem_map]
  refine or_congr_right ⟨?_, ?_⟩
  · rintro ⟨⟨u, claim⟩, mem, rfl⟩
    obtain ⟨mem, alert⟩ := List.mem_filter.mp mem
    exact ⟨claim, FinMap.get?_of_mem_toList distinct mem, by simpa using alert⟩
  · rintro ⟨claim, waits, alert⟩
    exact ⟨(u, claim), List.mem_filter.mpr ⟨FinMap.mem_toList_of_get? waits, by simpa using alert⟩,
      rfl⟩

theorem attentive_idle : idle.Attentive :=
  ⟨nofun, List.nodup_nil⟩

namespace Attentive

/-- Who has been woken waits on when another makes its request. -/
theorem settle (h : s.Attentive) (claim : LockClaim) (outcome : LockTable × LockReply) :
    (s.settle t claim outcome).Attentive := by
  refine ⟨fun u mem => ?outstanding, ?distinct⟩
  case outstanding =>
    rw [woken_settle, List.mem_filter] at mem
    rw [s.get?_pending_settle_of_ne _ _ (by simpa using mem.2)]
    exact h.outstanding u mem.1
  case distinct =>
    obtain ⟨table, reply⟩ := outcome
    cases reply with
    | waiting => exact FinMap.nodup_keys_insert h.distinct t claim
    | granted => exact FinMap.nodup_keys_erase h.distinct t
    | deadlock => exact FinMap.nodup_keys_erase h.distinct t

theorem wake (h : s.Attentive) (table : LockTable) : (s.wake table).Attentive := by
  refine ⟨fun u mem => ?_, h.distinct⟩
  rcases (mem_woken_wake h.distinct).mp mem with old | ⟨claim, waits, -⟩
  · exact h.outstanding u old
  · exact ⟨claim, waits⟩

theorem next (h : s.Attentive) {e : LockEvent} (hs : s.next? e = some s') : s'.Attentive := by
  cases next_of_next? hs with
  | acquire _ => exact h.settle _ _
  | retry _ => exact h.settle _ _
  | release _ => exact h.wake _
  | releaseAll _ => exact h.wake _

theorem run {es : List LockEvent} (h : idle.run es = some s) : s.Attentive :=
  runEvents_induction (fun _ hs attentive => attentive.next hs) h attentive_idle

/-- After an event those are woken who were so before and have not made their requests again, and those
who wait for a lock that somebody has given up. -/
theorem mem_woken_next (h : s.Attentive) (consistent : s.Consistent) (passedOn : s.table.notified = [])
    {e : LockEvent} (hs : s.next? e = some s') :
    u ∈ s'.woken ↔ (u ∈ s.woken ∧ e ≠ .retry u) ∨
      ∃ claim, s.pending.get? u = some claim ∧ s.table.GivesUp s'.table claim.page := by
  -- only a release takes a lock from anybody
  have keeps : (∀ t p, e ≠ .release t p) → (∀ t, e ≠ .releaseAll t) →
      ∀ p, ¬ s.table.GivesUp s'.table p := by
    rintro other others p ⟨v, before, after⟩
    rcases consistent.holds_next hs before with held | eq | eq
    · exact absurd after (by simp [LockTable.holdsAny, held])
    · exact other _ _ eq
    · exact others _ eq
  cases next_of_next? hs with
  | @acquire t claim idle =>
    -- who asks for a lock for the first time has not been woken
    have other : u ∈ s.woken → u ≠ t := by
      rintro mem rfl
      obtain ⟨c, waits⟩ := h.outstanding u mem
      simp [idle] at waits
    simpa [keeps (by simp) (by simp)] using other
  | @retry t claim _ =>
    have other : LockEvent.retry t ≠ .retry u ↔ u ≠ t := by
      rw [Ne, LockEvent.retry.injEq, Ne, eq_comm]
    simp [keeps (by simp) (by simp), other]
  | release _ =>
    simp only [mem_woken_wake h.distinct, LockTable.mem_notified_release_iff passedOn]
    exact or_congr (by simp) Iff.rfl
  | releaseAll _ =>
    simp only [mem_woken_wake h.distinct, consistent.sound.mem_notified_releaseAll_iff passedOn]
    exact or_congr (by simp) Iff.rfl

end Attentive

/-- Those who have been woken can make their requests again in any order, and after that none of them
is left to do so. -/
theorem exists_run_retry {order : List TxnId} (distinct : order.Nodup)
    (waits : ∀ t ∈ order, ∃ claim, s.pending.get? t = some claim) :
    ∃ s', s.run (order.map .retry) = some s' ∧ s'.woken = s.woken.filter (· ∉ order) := by
  induction order generalizing s with
  | nil => exact ⟨s, rfl, by simp⟩
  | cons t rest ih =>
    obtain ⟨new, distinct⟩ := List.nodup_cons.mp distinct
    obtain ⟨claim, first⟩ := waits t (.head _)
    have turn : s.next? (.retry t)
        = some (s.settle t claim (s.table.request t claim.page claim.mode)) := by
      rw [next?, first, Option.map_some]
    -- the others wait as before, whatever becomes of this request
    obtain ⟨s', run, woken⟩ := ih (s := s.settle t claim (s.table.request t claim.page claim.mode))
      distinct fun u mem => by
        have ne : u ≠ t := fun eq => new (eq ▸ mem)
        rw [s.get?_pending_settle_of_ne _ _ ne]
        exact waits u (.tail _ mem)
    refine ⟨s', runEvents_cons.mpr ⟨_, turn, run⟩, ?_⟩
    rw [woken, woken_settle, List.filter_filter]
    simp [Bool.and_comm]

namespace Sound

/-- Who sleeps in a queue sleeps behind a holder. -/
theorem conflicts_ne_nil_of_asleep (h : s.Sound) {p : PageId} {mode : LockMode}
    (queued : ⟨t, mode⟩ ∈ (s.table.entry p).waiting) (asleep : t ∉ s.woken) :
    (s.table.entry p).conflicts t mode ≠ [] :=
  (h.kept t _ ((h.tracks.queued ..).mp queued)).resolve_left asleep

end Sound

/-- **No wake-up is lost.** A queued request whose transaction has not been woken has a holder in its
way. Those who have been woken can make their requests again in any order, and then every queued request
has a holder in its way. An event wakes just those who wait for a lock that somebody gives up by it, and
they stay awake until they make their requests again. -/
theorem no_lost_wakeup {es : List LockEvent} {s : LockClients} (h : idle.run es = some s) :
    (∀ t p mode, ⟨t, mode⟩ ∈ (s.table.entry p).waiting → t ∉ s.woken →
      (s.table.entry p).conflicts t mode ≠ []) ∧
    (∀ order : List TxnId, order.Nodup → (∀ t, t ∈ order ↔ t ∈ s.woken) →
      ∃ s', s.run (order.map .retry) = some s' ∧ s'.woken = [] ∧
        ∀ t p mode, ⟨t, mode⟩ ∈ (s'.table.entry p).waiting →
          (s'.table.entry p).conflicts t mode ≠ []) ∧
    ∀ e s', s.next? e = some s' → ∀ u, u ∈ s'.woken ↔ (u ∈ s.woken ∧ e ≠ .retry u) ∨
      ∃ claim, s.pending.get? u = some claim ∧ s.table.GivesUp s'.table claim.page := by
  have sound := Sound.run h
  have attentive := Attentive.run h
  refine ⟨fun t p mode => sound.conflicts_ne_nil_of_asleep, fun order distinct all => ?_,
    fun e s' hs u => attentive.mem_woken_next (Consistent.run h) sound.passedOn hs⟩
  obtain ⟨s', run, woken⟩ := exists_run_retry distinct fun t mem =>
    attentive.outstanding t ((all t).mp mem)
  have nobody : s'.woken = [] := by
    rw [woken, List.filter_eq_nil_iff]
    simpa using fun t mem => (all t).mpr mem
  have sound' : s'.Sound := runEvents_induction (fun _ hs sound => sound.next hs) run sound
  exact ⟨s', run, nobody, fun t p mode queued =>
    sound'.conflicts_ne_nil_of_asleep queued (by simp [nobody])⟩

/-- Two readers of a page are left when its writer has released it. One of them waits to write it, behind
another who does, and the other reader leaves. Before they are awake, somebody else comes to read. -/
def overtaken : List LockEvent :=
  [.acquire ⟨2⟩ ⟨⟨.number 1, 0⟩, .exclusive⟩, .acquire ⟨1⟩ ⟨⟨.number 1, 0⟩, .shared⟩,
    .acquire ⟨3⟩ ⟨⟨.number 1, 0⟩, .exclusive⟩, .release ⟨2⟩ ⟨.number 1, 0⟩,
    .acquire ⟨4⟩ ⟨⟨.number 1, 0⟩, .shared⟩, .retry ⟨3⟩, .retry ⟨1⟩,
    .acquire ⟨4⟩ ⟨⟨.number 1, 0⟩, .exclusive⟩, .releaseAll ⟨1⟩,
    .acquire ⟨5⟩ ⟨⟨.number 1, 0⟩, .shared⟩]

/-- After `overtaken` two transactions have been woken. When they have made their requests again, both
sleep behind the newcomer. -/
theorem no_lost_wakeup_overtaken : ∃ s s', idle.run overtaken = some s ∧
    s.woken = [⟨4⟩, ⟨3⟩] ∧ s.run [.retry ⟨3⟩, .retry ⟨4⟩] = some s' ∧ s'.woken = [] ∧
    (s'.table.entry ⟨.number 1, 0⟩).waiting = [⟨⟨3⟩, .exclusive⟩, ⟨⟨4⟩, .exclusive⟩] ∧
    (s'.table.entry ⟨.number 1, 0⟩).conflicts ⟨3⟩ .exclusive ≠ [] ∧
    (s'.table.entry ⟨.number 1, 0⟩).conflicts ⟨4⟩ .exclusive ≠ [] := by
  have ran : (idle.run overtaken).map (fun s => (s.woken,
      (s.run [.retry ⟨3⟩, .retry ⟨4⟩]).map fun s' => (s'.table.entry ⟨.number 1, 0⟩).waiting))
        = some ([⟨4⟩, ⟨3⟩], some [⟨⟨3⟩, .exclusive⟩, ⟨⟨4⟩, .exclusive⟩]) := by decide
  obtain ⟨s, run, told⟩ := Option.map_eq_some_iff.mp ran
  simp only [Prod.mk.injEq] at told
  obtain ⟨woken, queue⟩ := told
  obtain ⟨-, retry, -⟩ := no_lost_wakeup run
  obtain ⟨s', again, nobody, kept⟩ := retry [⟨3⟩, ⟨4⟩] (by decide) (by simp [woken, or_comm])
  rw [List.map_cons, List.map_cons, List.map_nil] at again
  rw [again, Option.map_some, Option.some.injEq] at queue
  exact ⟨s, s', run, woken, again, nobody, queue, kept _ _ _ (by simp [queue]),
    kept _ _ _ (by simp [queue])⟩

end LockClients

end RowStore
