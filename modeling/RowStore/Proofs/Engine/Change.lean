import RowStore.Engine.Call
import RowStore.Proofs.Engine.Fetch

/-! # What a change does
A transaction changes a page that it has fetched for writing. The page is then marked as changed by it,
is noted for it, and is locked by it alone (`Sound`); every other page, the disk, and the locks stay as
they are (`changes_changed`). This is so even if the page has to come back into memory, and a page without
unwritten changes leaves it (`sound_of_settles`). -/

namespace RowStore.Engine

variable {e e' : Engine} {t u : TxnId} {p q : PageId} {ref : PageRef} {page : Page}

/-- Memory and disk fit together, and the unwritten changes of each transaction are noted for it and
locked by it alone. -/
structure Sound (e : Engine) : Prop extends e.Coherent where
  noted : ∀ t p, e.pool.Noted t p ↔ e.owner? p = some t
  locked : ∀ t p, e.owner? p = some t → e.locks.holds t p .exclusive = true

theorem Fetches.sound (h : e.Fetches e' t) (sound : e.Sound) : e'.Sound where
  toCoherent := h.coherent
  noted u q := by
    rw [Pool.Noted, h.dirtied, h.owner]
    exact sound.noted u q
  locked u q owner := by
    rw [h.owner] at owner
    have held := sound.locked u q owner
    by_cases eq : u = t
    · subst eq
      exact h.own held
    · rw [h.others eq]
      exact held

/-- Nobody else has unwritten changes of a page that a transaction has locked. -/
theorem Sound.owner?_of_holds (h : e.Sound) {mode : LockMode} (held : e.locks.holds t p mode = true) :
    e.owner? p = none ∨ e.owner? p = some t := by
  cases owner : e.owner? p with
  | none => exact .inl rfl
  | some u =>
    have same := h.locks.alone (h.locked u p owner) held
    rw [same]
    exact .inr rfl

/-- The engine after a transaction has changed a page that it has fetched. -/
def changed (e : Engine) (t : TxnId) (ref : PageRef) (page : Page) : Engine :=
  { e with pool := (e.pool.setFrame ref.frame (page.mark (some t))).noteDirtied t page.id }

/-- A change of a page that is still in memory goes through. -/
theorem endChange_of_resident (h : e.pool.Sound) (resident : e.pool.frame? page.id = some ref.frame)
    (write : ref.permission = .readWrite) (reply : Reply) :
    (e.setPage ref (page.mark (some t))).endChange t ref true reply
      = (e.changed t ref page, .done (.ok reply)) := by
  obtain ⟨old, at_frame, -⟩ := h.exists_page resident
  obtain ⟨inside, -⟩ := Array.getElem?_eq_some_iff.mp at_frame
  have here : (e.pool.setFrame ref.frame (page.mark (some t))).frames[ref.frame]?
      = some (page.mark (some t)) := by
    simp [Pool.setFrame, inside]
  have marked := Pool.markDirty_of_resident (t := t) here (show _ = _ from resident) write
  -- the page is marked twice, by the change and again by the note of it
  have twice : (e.pool.setFrame ref.frame (page.mark (some t))).setFrame ref.frame
      ((page.mark (some t)).mark (some t)) = e.pool.setFrame ref.frame (page.mark (some t)) := by
    simp [Pool.setFrame, Page.mark]
  rw [twice] at marked
  simp only [endChange, if_true, setPage, markDirty, marked]
  rfl

/-- What a transaction's change of a page leads to. -/
structure Changes (e e' : Engine) (t : TxnId) (page : Page) : Prop where
  sound : e'.Sound
  disk : e'.disk = e.disk
  catalog : e'.catalog = e.catalog
  locks : e'.locks = e.locks
  owner : ∀ p, e'.owner? p = if p = page.id then some t else e.owner? p
  current : ∀ r, e'.currentRow r = if r.page = page.id then page.row? r.slot else e.currentRow r
  kept : ∀ (i : Nat) (other : Page), e.pool.frames[i]? = some other → other.id ≠ page.id →
    e'.pool.frames[i]? = some other

section Settles

variable {pool : Pool} {frame : Nat} (settles : e.pool.Settles pool t frame page)

include settles

theorem owner?_of_settles (q : PageId) :
    ({ e with pool } : Engine).owner? q = if q = page.id then some t else e.owner? q := by
  rw [owner?, owner?]
  split
  · next eq =>
    subst eq
    rw [Pool.page?_eq_some.mpr ⟨frame, settles.resident, settles.here⟩]
    rfl
  · next ne =>
    -- a page that has left had no unwritten changes
    rcases settles.others q ne with ⟨-, same⟩ | ⟨gone, old, here, clean⟩
    · rw [same]
    · rw [settles.sound.page?_eq_none.mpr gone, here, Option.bind_none, Option.bind_some, clean]

theorem currentRow_of_settles (h : e.Coherent) (r : RecordId) :
    ({ e with pool } : Engine).currentRow r =
      if r.page = page.id then page.row? r.slot else e.currentRow r := by
  have stored : ({ e with pool } : Engine).stored? = e.stored? := stored?_congr rfl rfl
  rw [currentRow, currentRow, current?, current?, stored]
  split
  · next eq =>
    rw [eq, Pool.page?_eq_some.mpr ⟨frame, settles.resident, settles.here⟩]
    rfl
  · next ne =>
    rcases settles.others r.page ne with ⟨-, same⟩ | ⟨gone, old, here, clean⟩
    · rw [same]
    · -- a page that has left is read from the disk from now on, with the rows that it had
      obtain ⟨-, on_disk, eq, -⟩ := h.resident _ _ here
      rw [settles.sound.page?_eq_none.mpr gone, here, eq, Option.none_or, Option.some_or,
        Option.bind_some, Option.bind_some, (h.clean _ _ _ here clean eq).rows]

variable (sound : page.Sound)
  (on_disk : ∃ stored, e.stored? page.id = some stored ∧ page.layout = stored.layout)

include sound on_disk

/-- Memory and disk still fit together when a page has been marked that is on the disk. -/
theorem coherent_of_settles (h : e.Coherent) : ({ e with pool } : Engine).Coherent := by
  have stored : ({ e with pool } : Engine).stored? = e.stored? := stored?_congr rfl rfl
  have here : pool.page? page.id = some (page.mark (some t)) :=
    Pool.page?_eq_some.mpr ⟨frame, settles.resident, settles.here⟩
  have before : ∀ {q : PageId} {new : Page}, q ≠ page.id → pool.page? q = some new →
      e.pool.page? q = some new := by
    intro q new ne hq
    rcases settles.others q ne with ⟨-, same⟩ | ⟨gone, -⟩
    · rwa [← same]
    · rw [settles.sound.page?_eq_none.mpr gone] at hq
      cases hq
  refine ⟨h.storable, h.locks, settles.sound, ?resident, ?clean⟩
  case resident =>
    intro q new hq
    rw [stored]
    by_cases eq : q = page.id
    · subst eq
      obtain rfl := Option.some.inj (here.symm.trans hq)
      exact ⟨sound.mark _, on_disk⟩
    · exact h.resident q new (before eq hq)
  case clean =>
    intro q new old hq clean hs
    rw [stored] at hs
    by_cases eq : q = page.id
    · subst eq
      obtain rfl := Option.some.inj (here.symm.trans hq)
      cases clean
    · exact h.clean q new old (before eq hq) clean hs

theorem sound_of_settles (h : e.Sound) (held : e.locks.holds t page.id .exclusive = true) :
    ({ e with pool } : Engine).Sound where
  toCoherent := coherent_of_settles settles sound on_disk h.toCoherent
  noted u q := by
    rw [settles.noted, owner?_of_settles settles, h.noted]
    by_cases here : q = page.id
    · subst here
      rw [if_pos rfl]
      constructor
      · rintro (⟨rfl, -⟩ | owner)
        · rfl
        · -- whoever has changed the page before had it locked, so it was `t`
          rw [h.locks.alone (h.locked u _ owner) held]
      · exact fun eq => .inl ⟨(Option.some.inj eq).symm, rfl⟩
    · rw [if_neg here]
      exact or_iff_right fun both => here both.2
  locked u q owner := by
    rw [owner?_of_settles settles] at owner
    split at owner
    · next eq =>
      obtain rfl := Option.some.inj owner
      rw [eq]
      exact held
    · exact h.locked u q owner

end Settles

section Changed

variable (resident : e.pool.frame? page.id = some ref.frame)

include resident

theorem page?_changed (h : e.pool.Sound) (q : PageId) : (e.changed t ref page).pool.page? q =
    if q = page.id then some (page.mark (some t)) else e.pool.page? q := by
  rw [changed, Pool.page?_congr (p := e.pool.setFrame ref.frame (page.mark (some t)))
    Pool.frames_noteDirtied Pool.resident_noteDirtied, Pool.page?_setFrame h resident]

/-- A change of a page that is still in memory moves no page. -/
theorem settles_changed (h : e.pool.Sound) :
    e.pool.Settles (e.changed t ref page).pool t ref.frame page := by
  obtain ⟨old, at_frame, id⟩ := h.exists_page resident
  exact Pool.settles_marked h at_frame id.symm resident

theorem currentRow_changed (h : e.Coherent) (r : RecordId) :
    (e.changed t ref page).currentRow r =
      if r.page = page.id then page.row? r.slot else e.currentRow r :=
  currentRow_of_settles (settles_changed resident h.pool) h r

/-- What a change does. -/
theorem changes_changed (h : e.Sound) (held : e.locks.holds t page.id .exclusive = true)
    (sound : page.Sound)
    (layout : ∀ old, e.pool.page? page.id = some old → page.layout = old.layout) :
    e.Changes (e.changed t ref page) t page := by
  obtain ⟨old, at_frame, id⟩ := h.pool.exists_page resident
  have here : e.pool.page? page.id = some old := Pool.page?_eq_some.mpr ⟨_, resident, at_frame⟩
  have settles := settles_changed (t := t) resident h.pool
  obtain ⟨-, stored, on_disk, same⟩ := h.resident _ _ here
  refine ⟨sound_of_settles settles sound ⟨stored, on_disk, (layout old here).trans same⟩ h held, rfl, rfl,
    rfl, owner?_of_settles settles, currentRow_changed resident h.toCoherent, ?_⟩
  intro i other at_i ne
  rw [changed, Pool.frames_noteDirtied, Pool.setFrame, Array.getElem?_setIfInBounds]
  split
  · next eq =>
    -- in the frame of the changed page there is no other
    rw [eq, at_i] at at_frame
    exact absurd (Option.some.inj at_frame ▸ id) ne
  · exact at_i

end Changed

end RowStore.Engine
