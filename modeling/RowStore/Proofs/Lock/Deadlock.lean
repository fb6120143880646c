import Mathlib.Data.Fintype.Pigeonhole
import RowStore.Proofs.Lock.Waits

/-! # No deadlock
The lock table never lets transactions wait for each other in a circle: a request that would close a
circle is refused, and no other operation closes one. Main statement: `deadlock_free`, over every run of
every number of clients. It holds of the waits that can be read off the queues, because these are what
the table records (`Tracks`). Nor is a transaction left asleep behind a lock that it could be granted
(`Sound.kept`), so a chain of waits ends where somebody can go on. -/

namespace RowStore

open Relation

namespace LockTable

/-- Every request that waits has been notified, or is kept waiting by a holder. -/
def Alerts (l : LockTable) (pending : FinMap TxnId LockClaim) (woken : List TxnId) : Prop :=
  ∀ t claim, pending.get? t = some claim →
    t ∈ woken ∨ claim.page ∈ l.notified ∨ (l.entry claim.page).conflicts t claim.mode ≠ []

namespace Alerts

variable {l : LockTable} {pending : FinMap TxnId LockClaim} {woken : List TxnId}

theorem releaseEntry (h : l.Alerts pending woken) (t : TxnId) (p : PageId) :
    (l.releaseEntry t p).Alerts pending woken := by
  cases held : l.holdsAny t p with
  | false => rwa [releaseEntry_of_not_holds l t p held]
  | true =>
    have notified : (l.releaseEntry t p).notified = p :: l.notified := by
      rw [releaseEntry_of_holds l t p held]
    intro u claim hu
    rw [entry_releaseEntry, notified]
    rcases h u claim hu with awake | alert | kept
    · exact .inl awake
    · exact .inr (.inl (.tail _ alert))
    · -- whoever waits for this page need not be kept any more, but is notified
      by_cases eq : claim.page = p
      · exact .inr (.inl (eq ▸ .head _))
      · exact .inr (.inr (by rwa [if_neg eq]))

theorem foldl_releaseEntry (h : l.Alerts pending woken) (t : TxnId) (pages : List PageId) :
    (pages.foldl (·.releaseEntry t) l).Alerts pending woken :=
  List.foldlRecOn (motive := (Alerts · pending woken)) pages _ h fun _ h p _ => h.releaseEntry t p

theorem release (h : l.Alerts pending woken) (t : TxnId) (p : PageId) :
    (l.release t p).Alerts pending woken :=
  releaseEntry (l := { l with held := removeHeld l.held t p }) h t p

theorem releaseAll (h : l.Alerts pending woken) (t : TxnId) :
    (l.releaseAll t).Alerts pending woken :=
  foldl_releaseEntry (l := { l with held := l.held.erase t, waits := l.waits.clear t }) h t _

end Alerts

end LockTable

namespace LockClients

/-- What holds of the lock table and its clients after every event. -/
structure Sound (s : LockClients) : Prop where
  tracks : s.table.Tracks s.pending
  /-- A waiting transaction has been woken, or a conflicting lock is held. -/
  kept : ∀ t claim, s.pending.get? t = some claim →
    t ∈ s.woken ∨ (s.table.entry claim.page).conflicts t claim.mode ≠ []
  /-- All notifications have been passed on. -/
  passedOn : s.table.notified = []

theorem sound_idle : idle.Sound :=
  ⟨.empty, fun _ _ h => by simp [idle] at h, rfl⟩

namespace Sound

variable {s s' : LockClients} {t : TxnId} {claim : LockClaim}

/-- To be woken is to be notified. -/
theorem wake {table : LockTable} (tracks : table.Tracks s.pending)
    (alerts : table.Alerts s.pending s.woken) : (s.wake table).Sound where
  tracks := tracks.of_eq (fun _ => rfl) fun _ => rfl
  kept u claim hu := by
    rcases alerts u claim hu with awake | alert | kept
    · exact .inl (List.mem_append_left _ awake)
    · left
      -- the page was notified, so that `u` is among those who are woken for it
      have found : (u, claim) ∈ s.pending.toList.filter (·.2.page ∈ table.notified) :=
        List.mem_filter.mpr ⟨FinMap.mem_toList_of_get? hu, by simpa using alert⟩
      exact List.mem_append_right _ (List.mem_map_of_mem (f := Prod.fst) found)
    · exact .inr kept
  passedOn := rfl

theorem alerts (h : s.Sound) : s.table.Alerts s.pending s.woken :=
  fun u claim hu => (h.kept u claim hu).imp_right .inr

/-- Whoever else was asleep stays asleep for a reason, whatever becomes of the request of `t`. -/
theorem kept_of_ne (h : s.Sound) {table : LockTable} {pending : FinMap TxnId LockClaim}
    (other : ∀ u c, pending.get? u = some c → u ≠ t → s.pending.get? u = some c)
    (conflicts : ∀ u (c : LockClaim), u ≠ t → (s.table.entry c.page).conflicts u c.mode ≠ [] →
      (table.entry c.page).conflicts u c.mode ≠ [])
    (u : TxnId) (c : LockClaim) (hu : pending.get? u = some c) (ne : u ≠ t) :
    u ∈ s.woken.filter (· ≠ t) ∨ (table.entry c.page).conflicts u c.mode ≠ [] := by
  rcases h.kept u c (other u c hu ne) with awake | kept
  · exact .inl (List.mem_filter.mpr ⟨awake, by simpa using ne⟩)
  · exact .inr (conflicts u c ne kept)

/-- A request keeps the table sound, when it is made for the first time and when it is made again. -/
theorem settle_request (h : s.Sound)
    (here : ∀ c, s.pending.get? t = some c → c = claim) :
    (s.settle t claim (s.table.request t claim.page claim.mode)).Sound := by
  obtain ⟨p, mode⟩ := claim
  have erased : ∀ u c, (s.pending.erase t).get? u = some c → u ≠ t → s.pending.get? u = some c :=
    fun u c hu _ => (LockTable.Tracks.get?_of_get?_erase hu).2
  rcases s.table.request_cases t p mode with ⟨free, eq⟩ | ⟨busy, safe, eq⟩ | ⟨busy, -, eq⟩
  · -- granted: the grant keeps everybody else who was asleep in conflict with a holder
    rw [eq]
    refine ⟨h.tracks.granted here, ?_, h.passedOn⟩
    intro u c hu
    have ne := (LockTable.Tracks.get?_of_get?_erase hu).1
    refine h.kept_of_ne (t := t) erased ?_ u c hu ne
    intro v c ne kept
    exact s.table.conflicts_granted_ne_nil t p mode _ free ne kept
  · -- queued: the request sleeps because of those who conflict with it
    rw [eq]
    refine ⟨h.tracks.queue here safe, ?_, h.passedOn⟩
    intro u c hu
    rw [settle, FinMap.get?_insert] at hu
    simp only [settle, LockTable.conflicts_queued]
    by_cases self : u = t
    · rw [if_pos self] at hu
      obtain rfl := Option.some.inj hu
      exact .inr (self ▸ busy)
    · rw [if_neg self] at hu
      exact h.kept_of_ne (fun _ _ hu _ => hu) (fun _ _ _ kept => kept) u c hu self
  · -- refused: the request is withdrawn, and no lock has changed hands
    rw [eq]
    refine ⟨h.tracks.refused here, ?_, h.passedOn⟩
    intro u c hu
    have ne := (LockTable.Tracks.get?_of_get?_erase hu).1
    simp only [settle, LockTable.conflicts_refused]
    exact h.kept_of_ne erased (fun _ _ _ kept => kept) u c hu ne

/-- A lock that is held already is granted at once, and nothing changes. -/
theorem settle_granted (h : s.Sound) (out : s.pending.get? t = none) :
    (s.settle t claim (s.table, .granted)).Sound := by
  have same : ∀ u, (s.pending.erase t).get? u = s.pending.get? u := by
    intro u
    rw [FinMap.get?_erase]
    split
    · next eq => rw [eq, out]
    · rfl
  refine ⟨h.tracks.congr same, ?_, h.passedOn⟩
  intro u c hu
  have ne := (LockTable.Tracks.get?_of_get?_erase hu).1
  exact h.kept_of_ne (fun v c hv _ => same v ▸ hv) (fun _ _ _ kept => kept) u c hu ne

/-- Every event keeps the table and its clients sound. -/
theorem next (h : s.Sound) {e : LockEvent} (hs : s.next? e = some s') : s'.Sound := by
  cases next_of_next? hs with
  | acquire idle =>
    rw [LockTable.acquire]
    split
    · exact h.settle_granted idle
    · exact h.settle_request fun c hc => by simp [idle] at hc
  | retry waits => exact h.settle_request fun c hc => Option.some.inj (hc.symm.trans waits)
  | release _ => exact wake (h.tracks.release _ _) (h.alerts.release _ _)
  | releaseAll idle => exact wake (h.tracks.releaseAll idle) (h.alerts.releaseAll _)

/-- The table and its clients are sound after every run. -/
theorem run {es : List LockEvent} (h : idle.run es = some s) : s.Sound :=
  runEvents_induction (fun _ hs sound => sound.next hs) h sound_idle

/-- A transaction that waits has a request outstanding. -/
theorem isPending_of_waitsOn (h : s.Sound) {u : TxnId} (waits : s.table.WaitsOn t u) :
    s.isPending t = true := by
  obtain ⟨p, mode, mem, -⟩ := waits
  simp [isPending, FinMap.contains, (h.tracks.queued ..).mp mem]

/-- The waits that can be read off the queues form no cycle. -/
theorem acyclic_waitsOn (h : s.Sound) : Acyclic s.table.WaitsOn :=
  h.tracks.acyclic.mono fun _ _ waits => h.tracks.waitsOn_iff.mp waits

/-- There is no endless chain of waits, because only finitely many transactions wait. -/
theorem not_forall_waitsOn (h : s.Sound) (chain : Nat → TxnId) :
    ¬ ∀ n, s.table.WaitsOn (chain n) (chain (n + 1)) := by
  intro waits
  -- everybody in the chain waits, so that the chain comes back to one of finitely many
  have waiting : ∀ n, chain n ∈ s.pending.keys := by
    intro n
    obtain ⟨claim, eq⟩ := Option.isSome_iff_exists.mp (h.isPending_of_waitsOn (waits n))
    exact FinMap.mem_keys_of_get? eq
  have later : ∀ m k, TransGen s.table.WaitsOn (chain m) (chain (m + k + 1)) := by
    intro m k
    induction k with
    | zero => exact .single (waits m)
    | succ k ih => exact ih.tail (waits _)
  obtain ⟨m, n, ne, eq⟩ := Finite.exists_ne_map_eq_of_infinite
    fun n => (⟨chain n, waiting n⟩ : {t // t ∈ s.pending.keys})
  have same : chain m = chain n := congrArg Subtype.val eq
  -- between the two places lies a cycle of waits, whichever of them comes first
  rcases Nat.lt_or_gt_of_ne ne with lt | lt
  · obtain ⟨k, rfl⟩ := Nat.exists_eq_add_of_lt lt
    exact h.acyclic_waitsOn _ (same ▸ later m k)
  · obtain ⟨k, rfl⟩ := Nat.exists_eq_add_of_lt lt
    exact h.acyclic_waitsOn _ (same ▸ later n k)

/-- A blocked transaction waits for somebody. -/
theorem exists_waitsOn_of_blocked (h : s.Sound) (blocked : s.Blocked t) :
    ∃ u, s.table.WaitsOn t u := by
  obtain ⟨claim, eq⟩ := Option.isSome_iff_exists.mp blocked.1
  obtain ⟨u, hu⟩ := List.exists_mem_of_ne_nil _ ((h.kept t claim eq).resolve_left blocked.2)
  exact ⟨u, claim.page, claim.mode, (h.tracks.queued ..).mpr eq, hu⟩

/-- Where a chain of waits ends, a request that is still outstanding would be granted. -/
theorem request_granted_of_last (h : s.Sound) (last : ∀ u, ¬ s.table.WaitsOn t u)
    (waits : s.pending.get? t = some claim) :
    (s.table.request t claim.page claim.mode).2 = .granted := by
  have queued := (h.tracks.queued t claim.page claim.mode).mpr waits
  have free : (s.table.entry claim.page).conflicts t claim.mode = [] :=
    List.eq_nil_iff_forall_not_mem.mpr fun u hu => last u ⟨_, _, queued, hu⟩
  rcases s.table.request_cases t claim.page claim.mode with ⟨-, eq⟩ | ⟨busy, -⟩ | ⟨busy, -⟩
  · rw [eq]
  · exact absurd free busy
  · exact absurd free busy

end Sound

/-- **Freedom from deadlock.** However transactions ask for locks, ask again, and release them, no chain
of waits leads back to where it started, none goes on without end, and where one ends there is a
transaction that is not blocked: if it has a request outstanding, the request would be granted now. -/
theorem deadlock_free {es : List LockEvent} {s : LockClients} (h : idle.run es = some s) :
    (∀ t, ¬ TransGen s.table.WaitsOn t t) ∧
    (∀ chain : Nat → TxnId, ¬ ∀ n, s.table.WaitsOn (chain n) (chain (n + 1))) ∧
    ∀ t u, s.Blocked t → ReflTransGen s.table.WaitsOn t u → (∀ v, ¬ s.table.WaitsOn u v) →
      ¬ s.Blocked u ∧ ∀ claim, s.pending.get? u = some claim →
        (s.table.request u claim.page claim.mode).2 = .granted := by
  have sound := Sound.run h
  refine ⟨sound.acyclic_waitsOn, sound.not_forall_waitsOn, ?_⟩
  intro t u _ _ last
  constructor
  · intro blocked
    obtain ⟨v, waits⟩ := sound.exists_waitsOn_of_blocked blocked
    exact last v waits
  · intro claim waits
    exact sound.request_granted_of_last last waits

/-- Two transactions write a page each; a third waits for one of them, and that one for the other. -/
def chainOfThree : List LockEvent :=
  [.acquire ⟨1⟩ ⟨⟨.number 1, 0⟩, .exclusive⟩, .acquire ⟨2⟩ ⟨⟨.number 1, 1⟩, .exclusive⟩,
    .acquire ⟨3⟩ ⟨⟨.number 1, 1⟩, .shared⟩, .acquire ⟨2⟩ ⟨⟨.number 1, 0⟩, .shared⟩]

/-- The third transaction of `chainOfThree` is blocked, and its chain of waits ends at the first. -/
theorem deadlock_free_chainOfThree : ∃ s, idle.run chainOfThree = some s ∧ s.Blocked ⟨3⟩ ∧
    s.table.WaitsOn ⟨3⟩ ⟨2⟩ ∧ s.table.WaitsOn ⟨2⟩ ⟨1⟩ ∧ ¬ TransGen s.table.WaitsOn ⟨3⟩ ⟨3⟩ :=
  ⟨_, rfl, ⟨by decide, by decide⟩, ⟨⟨.number 1, 1⟩, .shared, by decide, by decide⟩,
    ⟨⟨.number 1, 0⟩, .shared, by decide, by decide⟩,
    (deadlock_free (show idle.run chainOfThree = some _ from rfl)).1 _⟩

end LockClients

end RowStore
