import RowStore.Proofs.Lock.Clients
import RowStore.Proofs.Lock.Cycle
import RowStore.Proofs.Lock.Effect
import RowStore.Proofs.Lock.Search

/-! # The waits that a lock table records
A lock table keeps track of the waiting transactions: its queues hold exactly their requests, it records
for each of them the holders of conflicting locks, and these records form no cycle
(`LockTable.Tracks`). Every operation keeps it so. -/

namespace RowStore

open Relation

namespace LockTable

/-! ## Renewing the records of a lock -/

/-- Who is not among the requests keeps the record that there was. -/
theorem holders_foldl_set_of_not_mem (f : LockRequest → List TxnId) {t : TxnId}
    (requests : List LockRequest) (g : WaitsFor) (out : ∀ r ∈ requests, r.txn ≠ t) :
    (requests.foldl (fun g r => g.set r.txn (f r)) g).holders t = g.holders t := by
  induction requests generalizing g with
  | nil => rfl
  | cons r rest ih =>
    rw [List.foldl_cons, ih _ fun r mem => out r (.tail _ mem),
      g.holders_set_of_ne _ (out r (.head _)).symm]

/-- Who is among the requests once gets the record of its request. -/
theorem holders_foldl_set_of_mem (f : LockRequest → List TxnId) {t : TxnId} {r : LockRequest}
    (requests : List LockRequest) (g : WaitsFor) (mem : r ∈ requests) (here : r.txn = t)
    (only : ∀ r' ∈ requests, r'.txn = t → r' = r) :
    (requests.foldl (fun g r => g.set r.txn (f r)) g).holders t = f r := by
  induction requests generalizing g with
  | nil => simp at mem
  | cons first rest ih =>
    rw [List.foldl_cons]
    by_cases later : ∃ r' ∈ rest, r'.txn = t
    · -- a later request of the same transaction is the same one, and overwrites the record
      obtain ⟨r', mem', eq⟩ := later
      have same := only r' (.tail _ mem') eq
      exact ih _ (same ▸ mem') fun r' mem => only r' (.tail _ mem)
    · simp only [not_exists, not_and] at later
      obtain rfl : r = first := by
        rcases List.mem_cons.mp mem with eq | mem
        · exact eq
        · exact absurd here (later r mem)
      rw [holders_foldl_set_of_not_mem f rest _ later, here, WaitsFor.holders_set_self]

theorem holders_refresh_of_not_mem {e : LockEntry} {t : TxnId} (g : WaitsFor)
    (out : ∀ mode, ⟨t, mode⟩ ∉ e.waiting) : (refresh e g).holders t = g.holders t :=
  holders_foldl_set_of_not_mem _ _ _ fun r mem eq => out r.mode (eq ▸ mem)

theorem holders_refresh_of_mem {e : LockEntry} {t : TxnId} {mode : LockMode} (g : WaitsFor)
    (mem : ⟨t, mode⟩ ∈ e.waiting) (only : ∀ mode', ⟨t, mode'⟩ ∈ e.waiting → mode' = mode) :
    (refresh e g).holders t = e.conflicts t mode := by
  refine holders_foldl_set_of_mem _ e.waiting g mem rfl fun r' mem' eq => ?_
  obtain ⟨u, mode'⟩ := r'
  obtain rfl : u = t := eq
  rw [only mode' mem']

/-! ## Keeping track -/

/-- The table knows which requests wait, and whom they wait for. -/
structure Tracks (l : LockTable) (pending : FinMap TxnId LockClaim) : Prop where
  /-- The queues hold the requests that wait, and no others. -/
  queued : ∀ t p mode, ⟨t, mode⟩ ∈ (l.entry p).waiting ↔ pending.get? t = some ⟨p, mode⟩
  /-- For a request that waits, the holders of conflicting locks are recorded. -/
  recorded : ∀ t claim, pending.get? t = some claim →
    l.waits.holders t = (l.entry claim.page).conflicts t claim.mode
  /-- For who does not wait, nobody is recorded. -/
  unrecorded : ∀ t, pending.get? t = none → l.waits.holders t = []
  acyclic : Acyclic l.waits.Edge

namespace Tracks

variable {l : LockTable} {pending : FinMap TxnId LockClaim} {t : TxnId} {p : PageId}
  {mode : LockMode}

theorem empty : (∅ : LockTable).Tracks ∅ where
  queued t p mode := by simp
  recorded t claim h := by simp at h
  unrecorded t _ := rfl
  acyclic t cycle := by
    obtain ⟨u, edge, -⟩ := TransGen.head'_iff.mp cycle
    exact absurd edge List.not_mem_nil

/-- Which requests wait is told by a look at each transaction. -/
theorem congr {pending' : FinMap TxnId LockClaim} (h : l.Tracks pending)
    (same : ∀ u, pending'.get? u = pending.get? u) : l.Tracks pending' where
  queued u q m := by rw [same]; exact h.queued u q m
  recorded u claim := by rw [same]; exact h.recorded u claim
  unrecorded u := by rw [same]; exact h.unrecorded u
  acyclic := h.acyclic

/-- The pages that each transaction holds, and those that were released, play no part. -/
theorem of_eq {l' : LockTable} (h : l.Tracks pending) (entries : ∀ q, l'.entry q = l.entry q)
    (waits : ∀ u, l'.waits.holders u = l.waits.holders u) : l'.Tracks pending where
  queued u q m := by rw [entries]; exact h.queued u q m
  recorded u claim hu := by rw [entries, waits]; exact h.recorded u claim hu
  unrecorded u hu := by rw [waits]; exact h.unrecorded u hu
  acyclic := h.acyclic.mono fun b c edge => by rwa [WaitsFor.Edge, waits] at edge

/-- The recorded edges are the waits that can be read off the queues. -/
theorem waitsOn_iff (h : l.Tracks pending) {u : TxnId} :
    l.WaitsOn t u ↔ u ∈ l.waits.holders t := by
  constructor
  · rintro ⟨p, mode, mem, hu⟩
    rwa [h.recorded t _ ((h.queued t p mode).mp mem)]
  · intro hu
    cases ht : pending.get? t with
    | none => simp [h.unrecorded t ht] at hu
    | some claim =>
      rw [h.recorded t claim ht] at hu
      exact ⟨claim.page, claim.mode, (h.queued ..).mpr ht, hu⟩

/-- Who has no request outstanding stands in no queue. -/
theorem awaits_eq_false (h : l.Tracks pending) (idle : pending.get? t = none) :
    (l.entry p).awaits t = false := by
  simp [Bool.eq_false_iff, LockEntry.awaits_iff, h.queued, idle]

/-- A request that is not made elsewhere stands in no other queue. -/
theorem not_mem_waiting (h : l.Tracks pending)
    (here : ∀ claim, pending.get? t = some claim → claim = ⟨p, mode⟩) {q : PageId} (ne : q ≠ p)
    (m : LockMode) : ⟨t, m⟩ ∉ (l.entry q).waiting := by
  intro mem
  have eq := here _ ((h.queued ..).mp mem)
  exact ne (congrArg LockClaim.page eq)

/-- A request that leaves its queue waits no longer, and the others wait as before. -/
theorem queued_erase (h : l.Tracks pending)
    (here : ∀ claim, pending.get? t = some claim → claim = ⟨p, mode⟩) {l' : LockTable}
    (waiting : ∀ q, (l'.entry q).waiting
      = if q = p then ((l.entry p).dequeue t).waiting else (l.entry q).waiting)
    (u : TxnId) (q : PageId) (m : LockMode) :
    ⟨u, m⟩ ∈ (l'.entry q).waiting ↔ (pending.erase t).get? u = some ⟨q, m⟩ := by
  rw [waiting, FinMap.get?_erase]
  by_cases eq : u = t
  · -- `t` waits nowhere: it has left this queue, and stood in no other
    subst eq
    split
    · simp
    · next ne => simpa using h.not_mem_waiting here ne m
  · split
    · next at_p => simp [eq, at_p, h.queued]
    · exact h.queued ..

/-- What waits without a request is what waited with it, but for its transaction. -/
theorem get?_of_get?_erase {u : TxnId} {claim : LockClaim}
    (hu : (pending.erase t).get? u = some claim) : u ≠ t ∧ pending.get? u = some claim := by
  rw [FinMap.get?_erase] at hu
  split at hu
  · cases hu
  · next ne => exact ⟨ne, hu⟩

/-- To renew the records of the lock of one page is enough if those of the other pages are right. -/
theorem of_refresh {g : WaitsFor}
    (queued : ∀ u q m, ⟨u, m⟩ ∈ (l.entry q).waiting ↔ pending.get? u = some ⟨q, m⟩)
    (waits : l.waits = refresh (l.entry p) g)
    (away : ∀ u claim, pending.get? u = some claim → claim.page ≠ p →
      g.holders u = (l.entry claim.page).conflicts u claim.mode)
    (out : ∀ u, pending.get? u = none → g.holders u = [])
    (acyclic : (∀ u claim, pending.get? u = some claim →
        l.waits.holders u = (l.entry claim.page).conflicts u claim.mode) →
      (∀ u, pending.get? u = none → l.waits.holders u = []) → Acyclic l.waits.Edge) :
    l.Tracks pending := by
  have recorded : ∀ u claim, pending.get? u = some claim →
      l.waits.holders u = (l.entry claim.page).conflicts u claim.mode := by
    intro u claim hu
    by_cases eq : claim.page = p
    · -- a waiting transaction has one claim only, so that its record is written once
      have mem := (queued u claim.page claim.mode).mpr hu
      rw [waits, eq]
      refine holders_refresh_of_mem _ (eq ▸ mem) fun m mem' => ?_
      have same := (queued ..).mp mem'
      rw [hu] at same
      exact (congrArg LockClaim.mode (Option.some.inj same)).symm
    · rw [waits, holders_refresh_of_not_mem, away u claim hu eq]
      intro m mem
      have same := (queued ..).mp mem
      rw [hu] at same
      exact eq (congrArg LockClaim.page (Option.some.inj same))
  have unrecorded : ∀ u, pending.get? u = none → l.waits.holders u = [] := by
    intro u hu
    rw [waits, holders_refresh_of_not_mem, out u hu]
    intro m mem
    have := (queued ..).mp mem
    simp [hu] at this
  exact ⟨queued, recorded, unrecorded, acyclic recorded unrecorded⟩

/-- A grant keeps track: who was granted the lock waits for nobody, so that no cycle is closed. -/
theorem granted (h : l.Tracks pending)
    (here : ∀ claim, pending.get? t = some claim → claim = ⟨p, mode⟩) :
    (l.granted t p mode).Tracks (pending.erase t) := by
  -- the records of this lock are renewed after that of `t` has been cleared
  refine of_refresh (p := p) (g := l.waits.clear t) (h.queued_erase here fun q => ?waiting) ?waits
    (fun u claim hu ne => ?away) (fun u hu => ?out) fun recorded unrecorded =>
      h.acyclic.to_sink (a := t) (fun b edge => ?sink) fun b c edge => ?new
  case waiting =>
    rw [entry_granted]
    split
    · exact LockEntry.waiting_grant
    · rfl
  case waits => rw [entry_granted, if_pos rfl]; rfl
  case away =>
    obtain ⟨other, hu⟩ := get?_of_get?_erase hu
    rw [entry_granted, if_neg ne, WaitsFor.holders_clear_of_ne _ other, h.recorded u claim hu]
  case out =>
    by_cases eq : u = t
    · rw [eq, WaitsFor.holders_clear_self]
    · rw [FinMap.get?_erase, if_neg eq] at hu
      rw [WaitsFor.holders_clear_of_ne _ eq, h.unrecorded u hu]
  case sink => simp [WaitsFor.Edge, unrecorded t (by simp)] at edge
  -- an edge that was not there before leads to the new holder, and from there none leads on
  case new =>
    cases hb : (pending.erase t).get? b with
    | none => simp [WaitsFor.Edge, unrecorded b hb] at edge
    | some claim =>
      rw [WaitsFor.Edge, recorded b claim hb, entry_granted] at edge
      rw [WaitsFor.Edge, h.recorded b claim (get?_of_get?_erase hb).2]
      split at edge
      · next eq => rw [eq]; exact LockEntry.mem_conflicts_of_mem_conflicts_grant edge
      · exact .inl edge

/-- A request that is put into the queue keeps track: the search has found no cycle. -/
theorem queue (h : l.Tracks pending)
    (here : ∀ claim, pending.get? t = some claim → claim = ⟨p, mode⟩)
    (safe : (l.waits.set t ((l.entry p).conflicts t mode)).hasCycleThrough t = false) :
    (l.queued t p mode).Tracks (pending.insert t ⟨p, mode⟩) := by
  have other : ∀ {u}, u ≠ t → (l.queued t p mode).waits.holders u = l.waits.holders u :=
    fun ne => WaitsFor.holders_set_of_ne _ _ ne
  refine ⟨fun u q m => ?queued, fun u claim hu => ?recorded, fun u hu => ?unrecorded,
    h.acyclic.of_source (a := t) (fun b c ne edge => ?other)
      (WaitsFor.not_transGen_of_hasCycleThrough safe)⟩
  case queued =>
    rw [entry_queued, FinMap.get?_insert]
    by_cases eq : u = t
    · subst eq
      split
      · next at_p =>
        subst at_p
        -- a request that stands in the queue already is not put there twice
        cases hu : pending.get? u with
        | none =>
          simp [LockEntry.mem_waiting_enqueue, h.awaits_eq_false hu, h.queued, hu, eq_comm]
        | some claim =>
          obtain rfl := here claim hu
          have waits : (l.entry q).awaits u = true :=
            LockEntry.awaits_iff.mpr ⟨mode, (h.queued ..).mpr hu⟩
          simp [LockEntry.mem_waiting_enqueue, waits, h.queued, hu]
      · next ne =>
        have out := h.not_mem_waiting here ne m
        simp [out, Ne.symm ne]
    · have ne : (⟨u, m⟩ : LockRequest) ≠ ⟨t, mode⟩ := fun eq' => eq (congrArg LockRequest.txn eq')
      split
      · next at_p => simp [eq, LockEntry.mem_waiting_enqueue, h.queued, at_p]
      · exact h.queued ..
  case recorded =>
    rw [conflicts_queued]
    rw [FinMap.get?_insert] at hu
    split at hu
    · next eq =>
      obtain rfl := Option.some.inj hu
      rw [eq]
      exact WaitsFor.holders_set_self ..
    · next ne => rw [other ne, h.recorded u claim hu]
  case unrecorded =>
    rw [FinMap.get?_insert] at hu
    split at hu
    · cases hu
    · next ne => rw [other ne, h.unrecorded u hu]
  -- only `t` has got new edges, and the search has seen that no cycle goes through `t`
  case other => rwa [WaitsFor.Edge, other ne] at edge

/-- A request that is refused keeps track: it leaves nothing behind. -/
theorem refused (h : l.Tracks pending)
    (here : ∀ claim, pending.get? t = some claim → claim = ⟨p, mode⟩) :
    (l.refused t p).Tracks (pending.erase t) := by
  have other : ∀ {u}, u ≠ t → (l.refused t p).waits.holders u = l.waits.holders u :=
    fun ne => WaitsFor.holders_clear_of_ne _ ne
  have self : (l.refused t p).waits.holders t = [] := WaitsFor.holders_clear_self ..
  refine ⟨h.queued_erase here fun q => ?waiting, fun u claim hu => ?recorded,
    fun u hu => ?unrecorded, h.acyclic.mono fun b c edge => ?fewer⟩
  case waiting =>
    rw [entry_refused]
    split <;> rfl
  case recorded =>
    obtain ⟨ne, hu⟩ := get?_of_get?_erase hu
    rw [conflicts_refused, other ne, h.recorded u claim hu]
  case unrecorded =>
    by_cases eq : u = t
    · rw [eq, self]
    · rw [FinMap.get?_erase, if_neg eq] at hu
      rw [other eq, h.unrecorded u hu]
  case fewer =>
    by_cases eq : b = t
    · rw [WaitsFor.Edge, eq, self] at edge
      exact absurd edge List.not_mem_nil
    · rwa [WaitsFor.Edge, other eq] at edge

/-- A release keeps track: whoever waits then waits for fewer. -/
theorem releaseEntry (h : l.Tracks pending) (t : TxnId) (p : PageId) :
    (l.releaseEntry t p).Tracks pending := by
  cases held : l.holdsAny t p with
  | false => rwa [releaseEntry_of_not_holds l t p held]
  | true =>
    have waiting : ∀ q, ((l.releaseEntry t p).entry q).waiting = (l.entry q).waiting := by
      intro q
      rw [entry_releaseEntry]
      split
      · next eq => rw [eq, LockEntry.waiting_release]
      · rfl
    refine of_refresh (p := p) (g := l.waits) (fun u q m => ?queued) ?waits
      (fun u claim hu ne => ?away) h.unrecorded fun recorded unrecorded =>
        h.acyclic.mono fun b c edge => ?fewer
    case queued => rw [waiting, h.queued]
    case waits =>
      rw [entry_releaseEntry, if_pos rfl, releaseEntry_of_holds l t p held]
    case away => rw [entry_releaseEntry, if_neg ne, h.recorded u claim hu]
    -- the renewed records name some of the holders that were recorded before
    case fewer =>
      cases hb : pending.get? b with
      | none => simp [WaitsFor.Edge, unrecorded b hb] at edge
      | some claim =>
        rw [WaitsFor.Edge, recorded b claim hb, entry_releaseEntry] at edge
        rw [WaitsFor.Edge, h.recorded b claim hb]
        split at edge
        · next eq => rw [eq]; exact LockEntry.mem_conflicts_of_mem_conflicts_release edge
        · exact edge

theorem release (h : l.Tracks pending) (t : TxnId) (p : PageId) : (l.release t p).Tracks pending := by
  have unlisted : ({ l with held := removeHeld l.held t p } : LockTable).Tracks pending :=
    h.of_eq (fun _ => rfl) fun _ => rfl
  exact unlisted.releaseEntry t p

theorem foldl_releaseEntry (h : l.Tracks pending) (t : TxnId) (pages : List PageId) :
    (pages.foldl (·.releaseEntry t) l).Tracks pending :=
  List.foldlRecOn (motive := (Tracks · pending)) pages _ h fun _ h p _ => h.releaseEntry t p

theorem releaseAll (h : l.Tracks pending) (idle : pending.get? t = none) :
    (l.releaseAll t).Tracks pending := by
  have unlisted : ({ l with held := l.held.erase t, waits := l.waits.clear t } : LockTable).Tracks
      pending := by
    refine h.of_eq (fun _ => rfl) fun u => ?_
    by_cases eq : u = t
    · rw [eq, WaitsFor.holders_clear_self, h.unrecorded t idle]
    · exact WaitsFor.holders_clear_of_ne _ eq
  exact unlisted.foldl_releaseEntry t (l.pagesOf t)

end Tracks

end LockTable

end RowStore
