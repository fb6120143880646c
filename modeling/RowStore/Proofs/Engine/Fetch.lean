import RowStore.Proofs.Engine.Disk
import RowStore.Proofs.Lock.Holders
import RowStore.Proofs.Pool

/-! # What a fetch does
Memory and disk agree on every page without unwritten changes (`Coherent`), so it makes no difference to
the rows that a fetch yields (`currentRow`) whether their page is in memory. A fetch gets a lock and may
move pages in and out of memory; it changes no rows and nobody's unwritten changes
(`fetches_getPage`). -/

namespace RowStore.Engine

variable {e e' : Engine} {t u : TxnId} {p : PageId} {permission : Permission}

/-- A page as a fetch yields it: as it is in memory, or else as it is on the disk. -/
def current? (e : Engine) (p : PageId) : Option Page :=
  (e.pool.page? p).or (e.stored? p)

/-- The values that a fetch yields at a record id. -/
def currentRow (e : Engine) (r : RecordId) : Option (List Value) :=
  (e.current? r.page).bind (·.row? r.slot)

/-- The transaction whose changes of a page are not written yet. -/
def owner? (e : Engine) (p : PageId) : Option TxnId :=
  (e.pool.page? p).bind Page.dirtiedBy

/-- Whatever has become of the pages in memory, they are well formed, and each of them is also on the
disk. -/
structure Rooted (e : Engine) : Prop where
  storable : e.catalog.Storable
  pool : e.pool.Sound
  resident : ∀ p page, e.pool.page? p = some page →
    page.Sound ∧ ∃ stored, e.stored? p = some stored ∧ page.layout = stored.layout

/-- Memory and disk fit together. -/
structure Coherent (e : Engine) : Prop where
  storable : e.catalog.Storable
  locks : e.locks.Sound
  pool : e.pool.Sound
  /-- A page in memory is well formed, and is also on the disk. -/
  resident : ∀ p page, e.pool.page? p = some page →
    page.Sound ∧ ∃ stored, e.stored? p = some stored ∧ page.layout = stored.layout
  /-- A page without unwritten changes has the bitmap and the rows that it has on the disk. -/
  clean : ∀ p page stored, e.pool.page? p = some page → page.dirtiedBy = none →
    e.stored? p = some stored → page.Agrees stored

theorem Coherent.rooted (h : e.Coherent) : e.Rooted :=
  ⟨h.storable, h.pool, h.resident⟩

/-- Pages stay rooted if none of them leaves the disk, and each of those in memory is read from there or
takes the place of one of the same layout. -/
theorem Rooted.next (h : e.Rooted) (catalog : e'.catalog = e.catalog) (pool : e'.pool.Sound)
    (stored : ∀ p page, e.stored? p = some page → ∃ page', e'.stored? p = some page')
    (pages : ∀ p new, e'.pool.page? p = some new → e.stored? p = some new ∨
      ∃ old, e.pool.page? p = some old ∧ new.layout = old.layout ∧ (old.Sound → new.Sound)) :
    e'.Rooted where
  storable := catalog ▸ h.storable
  pool := pool
  resident p new here := by
    have before : new.Sound ∧ ∃ on_disk, e.stored? p = some on_disk ∧ new.layout = on_disk.layout := by
      rcases pages p new here with read | ⟨old, resident, layout, kept⟩
      · exact ⟨(spec_of_stored? read).2.2.1, new, read, rfl⟩
      · obtain ⟨sound, on_disk, eq, same⟩ := h.resident p old resident
        exact ⟨kept sound, on_disk, eq, layout.trans same⟩
    obtain ⟨sound, old, old_eq, layout⟩ := before
    obtain ⟨now, now_eq⟩ := stored p old old_eq
    -- both have the layout of the file of their table
    obtain ⟨-, -, -, f, found, old_layout, -⟩ := spec_of_stored? old_eq
    obtain ⟨-, -, -, g, found', now_layout, -⟩ := spec_of_stored? now_eq
    obtain rfl : g = f := Option.some.inj (found'.symm.trans (catalog ▸ found))
    exact ⟨sound, now, now_eq, layout.trans (old_layout.trans now_layout.symm)⟩

theorem current?_of_resident {page : Page} (h : e.pool.page? p = some page) :
    e.current? p = some page := by
  rw [current?, h, Option.some_or]

theorem current?_of_not_resident (h : e.pool.page? p = none) : e.current? p = e.stored? p := by
  rw [current?, h, Option.none_or]

/-- A page that nobody has changed is fetched with the rows that are on the disk. -/
theorem Coherent.currentRow_of_owner? (h : e.Coherent) (owner : e.owner? p = none) (slot : Nat) :
    e.currentRow ⟨p, slot⟩ = e.storedRow ⟨p, slot⟩ := by
  rw [currentRow, storedRow]
  cases here : e.pool.page? p with
  | none => rw [current?_of_not_resident here]
  | some page =>
    obtain ⟨-, stored, eq, -⟩ := h.resident p page here
    have clean : page.dirtiedBy = none := by simpa [owner?, here] using owner
    rw [current?_of_resident here, eq, Option.bind_some, Option.bind_some,
      (h.clean p page stored here clean eq).rows]

/-- A page, whether it is in memory or not, has its own id, is sound, and has the layout of its file. -/
theorem Coherent.spec_of_current? {f : HeapFile} {page : Page} (h : e.Coherent)
    (found : e.catalog.file? p.table = some f) (here : e.current? p = some page) :
    page.id = p ∧ page.Sound ∧ page.layout = f.layout := by
  have layout : ∀ {stored : Page}, e.stored? p = some stored → stored.layout = f.layout := by
    intro stored on_disk
    obtain ⟨-, -, -, g, found', same, -⟩ := spec_of_stored? on_disk
    rw [same, Option.some.inj (found'.symm.trans found)]
  cases resident : e.pool.page? p with
  | some page' =>
    rw [current?_of_resident resident] at here
    obtain rfl := Option.some.inj here
    obtain ⟨sound, stored, on_disk, same⟩ := h.resident p page' resident
    exact ⟨h.pool.id_eq resident, sound, same.trans (layout on_disk)⟩
  | none =>
    rw [current?_of_not_resident resident] at here
    obtain ⟨id, -, sound, -⟩ := spec_of_stored? here
    exact ⟨id, sound, layout here⟩

/-- What becomes of the pages in memory when one of them is brought there: another one, without unwritten
changes, may leave. -/
structure Brings (e e' : Engine) : Prop where
  same : e' = { e with pool := e'.pool }
  pool : e'.pool.Sound
  dirtied : e'.pool.dirtied = e.pool.dirtied
  kept : ∀ (i : Nat) (page : Page), e.pool.frames[i]? = some page → e'.pool.frames[i]? = some page
  pages : ∀ p, e'.pool.page? p = e.pool.page? p ∨
    e'.pool.page? p = none ∧ (∃ old, e.pool.page? p = some old ∧ old.dirtiedBy = none) ∨
    e.pool.page? p = none ∧ ∃ new, e'.pool.page? p = some new ∧ e.stored? p = some new

/-- A page that is in memory is only moved to the front, and any other is read and loaded. -/
theorem bring_cases {i : Nat} (hb : e.bring p = .ok (e', i)) :
    e.pool.frame? p = some i ∧ e' = { e with pool := e.pool.promote p i } ∨
      e.pool.frame? p = none ∧ ∃ page pool, e.readPage p = .ok page ∧
        e.pool.load page = .ok (pool, i) ∧ e' = { e with pool } := by
  rw [bring] at hb
  split at hb
  · next here =>
    obtain ⟨rfl, rfl⟩ := Prod.mk.inj (Except.ok.inj hb)
    exact .inl ⟨here, rfl⟩
  · next gone =>
    obtain ⟨page, read, hb⟩ := bind_eq_ok.mp hb
    obtain ⟨⟨pool, frame⟩, loaded, hb⟩ := bind_eq_ok.mp hb
    obtain ⟨rfl, rfl⟩ := Prod.mk.inj (Except.ok.inj hb)
    exact .inr ⟨gone, page, pool, read, loaded, rfl⟩

/-- To bring a page into memory makes it resident. -/
theorem brings_of_bring (h : e.pool.Sound) {i : Nat} (hb : e.bring p = .ok (e', i)) :
    e.Brings e' ∧ e'.pool.frame? p = some i := by
  rcases bring_cases hb with ⟨here, rfl⟩ | ⟨gone, page, pool, read, loaded, rfl⟩
  · obtain ⟨page, at_i, id⟩ := h.exists_page here
    refine ⟨⟨rfl, h.promote at_i id, rfl, fun _ _ kept => kept, ?_⟩, by simp⟩
    intro q
    left
    by_cases eq : q = p
    · rw [eq, Pool.page?_eq_some.mpr ⟨i, here, at_i⟩]
      exact Pool.page?_eq_some.mpr ⟨i, by simp, at_i⟩
    · exact Pool.page?_promote_of_ne eq
  · -- the page is read from the disk, and takes the place of a clean one if there is no other
    have stored : e.stored? p = some page := toOption_eq_some.mpr read
    obtain rfl := (spec_of_stored? stored).1
    have loads := Pool.loads_of_load h loaded
    refine ⟨⟨rfl, loads.sound, loads.dirtied, loads.kept, ?_⟩, loads.resident⟩
    intro q
    by_cases eq : q = page.id
    · subst eq
      have here := Pool.page?_eq_some.mpr ⟨i, loads.resident, loads.here⟩
      exact .inr (.inr ⟨h.page?_eq_none.mpr gone, page, here, stored⟩)
    · exact (loads.others q eq).imp_right .inl

namespace Brings

variable (h : e.Brings e')

include h

theorem stored? : e'.stored? = e.stored? := by
  rw [h.same]
  exact stored?_congr rfl rfl

theorem owner? : e'.owner? = e.owner? := by
  funext p
  rw [Engine.owner?, Engine.owner?]
  -- neither the page that left nor the one that came has been changed by anybody
  rcases h.pages p with eq | ⟨gone, old, here, clean⟩ | ⟨gone, new, here, stored⟩
  · rw [eq]
  · rw [gone, here, Option.bind_some, clean, Option.bind_none]
  · rw [gone, here, Option.bind_some, (spec_of_stored? stored).2.1, Option.bind_none]

theorem currentRow (coherent : e.Coherent) : e'.currentRow = e.currentRow := by
  funext r
  rw [Engine.currentRow, Engine.currentRow, current?, current?, h.stored?]
  rcases h.pages r.page with eq | ⟨gone, old, here, clean⟩ | ⟨gone, new, here, stored⟩
  · rw [eq]
  · -- the page that left is read from the disk from now on, with the rows that it had
    obtain ⟨-, stored, eq, -⟩ := coherent.resident _ _ here
    rw [gone, here, eq, Option.none_or, Option.some_or, Option.bind_some, Option.bind_some,
      (coherent.clean _ _ _ here clean eq).rows]
  · rw [gone, here, stored, Option.none_or, Option.some_or]

theorem rooted (rooted : e.Rooted) : e'.Rooted := by
  refine rooted.next (by rw [h.same]) h.pool (fun p page on_disk => ⟨page, h.stored? ▸ on_disk⟩) ?_
  intro p page here
  rcases h.pages p with eq | ⟨gone, -⟩ | ⟨-, new, here', stored⟩
  · exact .inr ⟨page, eq ▸ here, rfl, id⟩
  · exact nomatch gone.symm.trans here
  · obtain rfl := Option.some.inj (here.symm.trans here')
    exact .inl stored

theorem coherent (coherent : e.Coherent) : e'.Coherent where
  storable := h.same ▸ coherent.storable
  locks := h.same ▸ coherent.locks
  pool := h.pool
  resident := (h.rooted coherent.rooted).resident
  clean p page stored here clean on_disk := by
    rw [h.stored?] at on_disk
    rcases h.pages p with eq | ⟨gone, -⟩ | ⟨-, new, here', stored'⟩
    · exact coherent.clean p page stored (eq ▸ here) clean on_disk
    · exact nomatch gone.symm.trans here
    · obtain rfl := Option.some.inj (here.symm.trans here')
      exact Option.some.inj (stored'.symm.trans on_disk) ▸ .refl _

end Brings

/-! ## Fetching -/

/-- What a transaction's fetch leaves as it was: everything but its own locks, and which pages are in
memory. -/
structure Fetches (e e' : Engine) (t : TxnId) : Prop where
  coherent : e'.Coherent
  disk : e'.disk = e.disk
  catalog : e'.catalog = e.catalog
  dirtied : e'.pool.dirtied = e.pool.dirtied
  owner : e'.owner? = e.owner?
  current : e'.currentRow = e.currentRow
  kept : ∀ (i : Nat) (page : Page), e.pool.frames[i]? = some page → e'.pool.frames[i]? = some page
  others : ∀ {u p mode}, u ≠ t → e'.locks.holds u p mode = e.locks.holds u p mode
  own : ∀ {p mode}, e.locks.holds t p mode = true → e'.locks.holds t p mode = true

/-- The engine after a transaction has asked for a page's lock. -/
def asking (e : Engine) (t : TxnId) (p : PageId) (mode : LockMode) : Engine :=
  { e with locks := (e.locks.acquire t p mode).1 }

/-- What a fetch leads to, by the reply to the request for the lock: only when the lock is granted is the
page brought into memory, and the lock is kept even if it cannot be. -/
inductive Gets (e : Engine) (t : TxnId) (p : PageId) (permission : Permission) :
    LockReply → Engine × Fetch → Prop where
  | waiting : Gets e t p permission .waiting (e.asking t p permission.mode, .waiting)
  | deadlock : Gets e t p permission .deadlock
      (e.asking t p permission.mode, .failed (.lock ⟨t, p⟩))
  | unserved {err : FileError} (failed : (e.asking t p permission.mode).bring p = .error err) :
    Gets e t p permission .granted (e.asking t p permission.mode, .failed err)
  | served {e' : Engine} {frame : Nat}
      (brought : (e.asking t p permission.mode).bring p = .ok (e', frame)) :
    Gets e t p permission .granted (e', .fetched ⟨frame, permission⟩)

/-- A fetch is one of these. -/
theorem gets_of_getPage {fetch : Fetch} (hg : e.getPage t p permission = (e', fetch)) :
    e.Gets t p permission (e.locks.acquire t p permission.mode).2 (e', fetch) := by
  rw [← hg]
  rcases request : e.locks.acquire t p permission.mode with ⟨locks, reply⟩
  have asked : e.asking t p permission.mode = { e with locks } := by rw [asking, request]
  simp only [getPage, request, ← asked]
  cases reply with
  | waiting => exact .waiting
  | deadlock => exact .deadlock
  | granted =>
    dsimp only
    split
    · next brought => exact .served brought
    · next failed => exact .unserved failed

/-- To ask for a lock is the first part of a fetch. -/
theorem fetches_asking (h : e.Coherent) (t : TxnId) (p : PageId) (mode : LockMode) :
    e.Fetches (e.asking t p mode) t where
  coherent := ⟨h.storable, h.locks.acquire t p mode, h.pool, h.resident, h.clean⟩
  disk := rfl
  catalog := rfl
  dirtied := rfl
  owner := rfl
  current := rfl
  kept _ _ kept := kept
  others ne := LockTable.holds_acquire_of_ne ne
  own held := LockTable.holds_acquire_of_holds held

theorem Fetches.bring (h : e.Fetches e' t) {e'' : Engine} (hb : e'.Brings e'') :
    e.Fetches e'' t where
  coherent := hb.coherent h.coherent
  disk := by rw [hb.same, ← h.disk]
  catalog := by rw [hb.same, ← h.catalog]
  dirtied := hb.dirtied.trans h.dirtied
  owner := hb.owner?.trans h.owner
  current := (hb.currentRow h.coherent).trans h.current
  kept i page here := hb.kept i page (h.kept i page here)
  others ne := by
    rw [hb.same]
    exact h.others ne
  own held := by
    rw [hb.same]
    exact h.own held

/-- What a fetch does, and what it yields. -/
theorem fetches_getPage (h : e.Coherent) {fetch : Fetch}
    (hg : e.getPage t p permission = (e', fetch)) : e.Fetches e' t ∧
      ∀ ref, fetch = .fetched ref → ref.permission = permission ∧
        e'.pool.frame? p = some ref.frame ∧ e'.locks.holds t p permission.mode = true := by
  have asked := fetches_asking h t p permission.mode
  have gets := gets_of_getPage hg
  generalize request : (e.locks.acquire t p permission.mode).2 = reply at gets
  cases gets with
  | waiting | deadlock | unserved => exact ⟨asked, nofun⟩
  | served brought =>
    obtain ⟨brings, resident⟩ := brings_of_bring asked.coherent.pool brought
    refine ⟨asked.bring brings, ?_⟩
    intro ref eq
    obtain rfl := Fetch.fetched.inj eq
    refine ⟨rfl, resident, ?_⟩
    rw [brings.same]
    exact LockTable.holds_of_acquire request

/-- A fetched page is the current one. -/
theorem current?_of_fetched (h : e.Coherent) {ref : PageRef}
    (hg : e.getPage t p permission = (e', .fetched ref)) :
    ∃ page, e'.page? ref = some page ∧ e'.pool.page? p = some page ∧ page.id = p := by
  obtain ⟨fetches, spec⟩ := fetches_getPage h hg
  obtain ⟨-, resident, -⟩ := spec ref rfl
  obtain ⟨page, here, id⟩ := fetches.coherent.pool.exists_page resident
  exact ⟨page, here, Pool.page?_eq_some.mpr ⟨_, resident, here⟩, id⟩

end RowStore.Engine
