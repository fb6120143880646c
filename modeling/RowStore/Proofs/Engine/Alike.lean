import RowStore.Proofs.Engine.Ending
import RowStore.Proofs.Page.Edits

/-! # Engines that cannot be told apart
Which pages are in memory makes no difference to what is fetched: a page without unwritten changes is in
memory exactly as it would be read (`Neat.stored?_eq_some`), and one with unwritten changes never leaves.
So engines that have the same disk, tables and locks, and yield the same pages (`Alike`), answer alike
whatever they keep in memory, unless one of them has no room left: a fetch (`alike_getPage`), a change
of a page that has been fetched (`alike_changed`), a new page at the end of a file (`alike_allocate`),
and the end of a transaction (`alike_complete`). -/

namespace RowStore

/-- A page that cannot be loaded finds no room. -/
theorem Pool.load_eq_error {p : Pool} {page : Page} {err : FileError} (h : p.load page = .error err) :
    err = .poolFull := by
  rw [load] at h
  cases room : p.makeRoom with
  | ok q => simp [room, bind, Except.bind, pure, Except.pure] at h
  | error err' =>
    obtain rfl : err' = err := by simpa [room, bind, Except.bind] using h
    exact makeRoom_eq_error room

/-- Which pages a transaction is noted to have changed depends on the earlier notes only. -/
theorem Pool.dirtied_noteDirtied {p p' : Pool} (h : p'.dirtied = p.dirtied) (t : TxnId) (id : PageId) :
    (p'.noteDirtied t id).dirtied = (p.noteDirtied t id).dirtied := by
  simp only [noteDirtied, h]
  split
  · exact h
  · rfl

theorem Pool.dirtied_noteWritten {p p' : Pool} (h : p'.dirtied = p.dirtied) (t : TxnId) (id : PageId) :
    (p'.noteWritten t id).dirtied = (p.noteWritten t id).dirtied := by
  rw [noteWritten, noteWritten, h]
  split
  · rfl
  · exact h

namespace Engine

variable {e e' e₁ e₁' : Engine} {t : TxnId} {p q : PageId} {permission : Permission}
  {ref ref' : PageRef} {page : Page} {faults : Faults} {f : HeapFile}

/-! ## Pages as they would be read -/

/-- Every page in memory is settled by its bitmap and its rows. -/
def Neat (e : Engine) : Prop :=
  ∀ p page, e.pool.page? p = some page → page.Tidy

theorem tidy_of_stored? (h : e.stored? p = some page) : page.Tidy := by
  obtain ⟨f, -, read⟩ := stored?_eq_some.mp h
  obtain ⟨-, -, decoded⟩ := HeapFile.readPage_eq_ok.mp read
  exact Page.tidy_of_decode decoded

/-- A page without unwritten changes is in memory as it would be read. -/
theorem Neat.stored?_eq_some (neat : e.Neat) (h : e.Coherent) (here : e.pool.page? p = some page)
    (clean : page.dirtiedBy = none) : e.stored? p = some page := by
  obtain ⟨-, stored, on_disk, layout⟩ := h.resident p page here
  obtain ⟨id, unmarked, -⟩ := spec_of_stored? on_disk
  have same : stored = page.mark none := (neat p page here).eq_mark (tidy_of_stored? on_disk)
    (id.trans (h.pool.id_eq here).symm) layout.symm (h.clean p page stored here clean on_disk) unmarked
  rw [on_disk, same, ← clean]
  rfl

/-- Whose unwritten changes a page has is told by the page that a fetch yields. -/
theorem owner?_eq_bind (e : Engine) (p : PageId) :
    e.owner? p = (e.current? p).bind Page.dirtiedBy := by
  rw [owner?]
  cases here : e.pool.page? p with
  | some page => rw [current?_of_resident here]
  | none =>
    rw [current?_of_not_resident here, Option.bind_none]
    cases stored : e.stored? p with
    | none => rfl
    | some page => exact (spec_of_stored? stored).2.1.symm

/-- What a fetch yields depends on the disk, the tables and the pages in memory only. -/
theorem current?_congr (disk : e'.disk = e.disk) (catalog : e'.catalog = e.catalog)
    (pages : e'.pool.page? = e.pool.page?) : e'.current? = e.current? := by
  funext p
  rw [current?, current?, stored?_congr disk catalog, pages]

/-! ## Fetching -/

namespace Brings

variable (h : e.Brings e')

include h

theorem current? (coherent : e.Coherent) (neat : e.Neat) : e'.current? = e.current? := by
  funext p
  rw [Engine.current?, Engine.current?, h.stored?]
  rcases h.pages p with eq | ⟨gone, old, here, clean⟩ | ⟨gone, new, here, stored⟩
  · rw [eq]
  · rw [gone, here, neat.stored?_eq_some coherent here clean, Option.none_or, Option.some_or]
  · rw [gone, here, stored, Option.none_or, Option.some_or]

theorem neat (neat : e.Neat) : e'.Neat := by
  intro p page here
  rcases h.pages p with eq | ⟨gone, -⟩ | ⟨-, new, here', stored⟩
  · exact neat p page (eq ▸ here)
  · exact nomatch gone.symm.trans here
  · obtain rfl := Option.some.inj (here'.symm.trans here)
    exact tidy_of_stored? stored

end Brings

/-- A page that cannot be brought into memory finds no room, or cannot be read. -/
theorem bring_eq_error {err : FileError} (h : e.pool.Sound) (hb : e.bring p = .error err) :
    err = .poolFull ∨ e.current? p = none ∧ e.readPage p = .error err := by
  rw [bring] at hb
  split at hb
  · cases hb
  · next out =>
    have gone : e.pool.page? p = none := h.page?_eq_none.mpr out
    cases read : e.readPage p with
    | error err' =>
      obtain rfl : err' = err := by simpa [read, bind, Except.bind] using hb
      refine .inr ⟨?_, rfl⟩
      rw [current?_of_not_resident gone, stored?, read]
      rfl
    | ok page =>
      cases loaded : e.pool.load page with
      | error err' =>
        obtain rfl : err' = err := by simpa [read, loaded, bind, Except.bind] using hb
        exact .inl (Pool.load_eq_error loaded)
      | ok _ => simp [read, loaded, bind, Except.bind, pure, Except.pure] at hb

/-- A page that has been fetched for this permission. -/
structure Holding (e : Engine) (p : PageId) (permission : Permission) (ref : PageRef) (page : Page) :
    Prop where
  coherent : e.Coherent
  neat : e.Neat
  frame : e.pool.frame? p = some ref.frame
  page : e.page? ref = some page
  permission : ref.permission = permission

theorem Holding.resident (h : e.Holding p permission ref page) : e.pool.page? p = some page :=
  Pool.page?_eq_some.mpr ⟨_, h.frame, h.page⟩

theorem Holding.id (h : e.Holding p permission ref page) : page.id = p :=
  h.coherent.pool.id_eq h.resident

/-- What comes of a fetch, by the reply to the request for the lock: the page that is current, unless
there is none or it finds no room. -/
inductive Serves (e e' : Engine) (t : TxnId) (p : PageId) (permission : Permission) :
    LockReply → Fetch → Prop where
  | waiting : Serves e e' t p permission .waiting .waiting
  | deadlock : Serves e e' t p permission .deadlock (.failed (.lock ⟨t, p⟩))
  | full : Serves e e' t p permission .granted (.failed .poolFull)
  | unread {err : FileError} (gone : e.current? p = none) (read : e.readPage p = .error err) :
    Serves e e' t p permission .granted (.failed err)
  | served {ref : PageRef} {page : Page} (holding : e'.Holding p permission ref page)
    (current : e.current? p = some page) : Serves e e' t p permission .granted (.fetched ref)

/-- What comes of a fetch, and that it changes no page. -/
theorem serves_getPage (h : e.Coherent) (neat : e.Neat) {fetch : Fetch}
    (hg : e.getPage t p permission = (e', fetch)) :
    e.Serves e' t p permission (e.locks.acquire t p permission.mode).2 fetch ∧
      e'.locks = (e.locks.acquire t p permission.mode).1 ∧ e'.current? = e.current? ∧ e'.Neat := by
  have asked := (fetches_asking h t p permission.mode).coherent
  have same : (e.asking t p permission.mode).current? = e.current? := current?_congr rfl rfl rfl
  have still : (e.asking t p permission.mode).Neat := neat
  have gets := gets_of_getPage hg
  generalize (e.locks.acquire t p permission.mode).2 = reply at gets ⊢
  cases gets with
  | waiting => exact ⟨.waiting, rfl, same, still⟩
  | deadlock => exact ⟨.deadlock, rfl, same, still⟩
  | unserved failed =>
    refine ⟨?_, rfl, same, still⟩
    rcases bring_eq_error asked.pool failed with rfl | ⟨gone, read⟩
    · exact .full
    · exact .unread (same ▸ gone) read
  | served brought =>
    obtain ⟨brings, resident⟩ := brings_of_bring asked.pool brought
    have coherent := brings.coherent asked
    have current := (brings.current? asked still).trans same
    obtain ⟨page, here, id⟩ := coherent.pool.exists_page resident
    refine ⟨.served ⟨coherent, brings.neat still, resident, here, rfl⟩ ?_, ?_, current,
      brings.neat still⟩
    · rw [← current]
      exact current?_of_resident (Pool.page?_eq_some.mpr ⟨_, resident, here⟩)
    · rw [brings.same]
      rfl

/-! ## Engines that are alike -/

/-- Two engines have the same files, tables and locks, have noted the same changes, and yield the same
pages, whatever each of them keeps in memory. -/
structure Alike (e e' : Engine) : Prop where
  disk : e'.disk = e.disk
  catalog : e'.catalog = e.catalog
  locks : e'.locks = e.locks
  dirtied : e'.pool.dirtied = e.pool.dirtied
  current : e'.current? = e.current?

namespace Alike

variable (h : e.Alike e')

include h

theorem stored? : e'.stored? = e.stored? :=
  stored?_congr h.disk h.catalog

theorem file (table : TableId) : e'.file table = e.file table := by
  rw [Engine.file, Engine.file, h.catalog]

theorem numPages (f : HeapFile) : e'.numPages f = e.numPages f := by
  rw [Engine.numPages, Engine.numPages, h.disk]

theorem readPage (p : PageId) : e'.readPage p = e.readPage p :=
  readPage_congr h.disk h.catalog p

theorem owner? (p : PageId) : e'.owner? p = e.owner? p := by
  rw [owner?_eq_bind, owner?_eq_bind, h.current]

theorem dirtiedBy (t : TxnId) : e'.pool.dirtiedBy t = e.pool.dirtiedBy t := by
  rw [Pool.dirtiedBy, Pool.dirtiedBy, h.dirtied]

end Alike

/-- What two engines that are alike fetch: the same page, or the same failure, unless one of them has no
room. -/
inductive FetchedAlike (e e' : Engine) (p : PageId) (permission : Permission) :
    Fetch → Fetch → Prop where
  | full {fetch : Fetch} : FetchedAlike e e' p permission (.failed .poolFull) fetch
  | full' {fetch : Fetch} : FetchedAlike e e' p permission fetch (.failed .poolFull)
  | waiting : FetchedAlike e e' p permission .waiting .waiting
  | failed (err : FileError) : FetchedAlike e e' p permission (.failed err) (.failed err)
  | fetched {ref ref' : PageRef} {page : Page} (holding : e.Holding p permission ref page)
    (holding' : e'.Holding p permission ref' page) :
    FetchedAlike e e' p permission (.fetched ref) (.fetched ref')

/-- **Fetching from engines that are alike.** Both get the same page, whether it is in memory or not. -/
theorem alike_getPage (h : e.Alike e') (coherent : e.Coherent) (coherent' : e'.Coherent)
    (neat : e.Neat) (neat' : e'.Neat) {fetch fetch' : Fetch}
    (hg : e.getPage t p permission = (e₁, fetch)) (hg' : e'.getPage t p permission = (e₁', fetch')) :
    e₁.Alike e₁' ∧ FetchedAlike e₁ e₁' p permission fetch fetch' := by
  obtain ⟨serves, locks, current, -⟩ := serves_getPage coherent neat hg
  obtain ⟨serves', locks', current', -⟩ := serves_getPage coherent' neat' hg'
  have fetches := (fetches_getPage coherent hg).1
  have fetches' := (fetches_getPage coherent' hg').1
  rw [h.locks] at serves' locks'
  refine ⟨⟨?disk, ?catalog, locks'.trans locks.symm, ?dirtied, ?current⟩, ?_⟩
  case disk => rw [fetches'.disk, h.disk, fetches.disk]
  case catalog => rw [fetches'.catalog, h.catalog, fetches.catalog]
  case dirtied => rw [fetches'.dirtied, h.dirtied, fetches.dirtied]
  case current => rw [current', h.current, current]
  -- the lock table answers both in the same way, and so does the disk
  generalize (e.locks.acquire t p permission.mode).2 = reply at serves serves'
  cases serves with
  | waiting => cases serves'; exact .waiting
  | deadlock => cases serves'; exact .failed _
  | full => exact .full
  | unread gone read =>
    cases serves' with
    | full => exact .full'
    | unread _ read' =>
      rw [h.readPage, read] at read'
      obtain rfl := Except.error.inj read'
      exact .failed _
    | served _ here =>
      rw [h.current, gone] at here
      cases here
  | served holding here =>
    cases serves' with
    | full => exact .full'
    | unread gone _ =>
      rw [h.current, here] at gone
      cases gone
    | served holding' here' =>
      rw [h.current, here] at here'
      obtain rfl := Option.some.inj here'
      exact .fetched holding holding'

/-! ## Changing and appending -/

theorem current?_changed (h : e.Coherent) (resident : e.pool.frame? page.id = some ref.frame)
    (q : PageId) : (e.changed t ref page).current? q =
      if q = page.id then some (page.mark (some t)) else e.current? q := by
  have stored : (e.changed t ref page).stored? = e.stored? := stored?_congr rfl rfl
  rw [current?, page?_changed resident h.pool, stored]
  split
  · rfl
  · rfl

theorem neat_changed (h : e.Coherent) (neat : e.Neat)
    (resident : e.pool.frame? page.id = some ref.frame) (tidy : page.Tidy) :
    (e.changed t ref page).Neat := by
  intro q new here
  rw [page?_changed resident h.pool] at here
  split at here
  · exact Option.some.inj here ▸ tidy.mark _
  · exact neat q new here

/-- Engines that are alike stay so when the same change is made to the same page. -/
theorem alike_changed (h : e.Alike e') (coherent : e.Coherent) (coherent' : e'.Coherent)
    (resident : e.pool.frame? page.id = some ref.frame)
    (resident' : e'.pool.frame? page.id = some ref'.frame) :
    (e.changed t ref page).Alike (e'.changed t ref' page) where
  disk := h.disk
  catalog := h.catalog
  locks := h.locks
  dirtied :=
    have same : (e'.pool.setFrame ref'.frame (page.mark (some t))).dirtied
        = (e.pool.setFrame ref.frame (page.mark (some t))).dirtied := h.dirtied
    Pool.dirtied_noteDirtied same t page.id
  current := by
    funext q
    rw [current?_changed coherent resident, current?_changed coherent' resident', h.current]

/-- A page that has been appended is read from the disk, and all others are as they were. -/
theorem current?_allocate (h : e.Coherent) (found : e.catalog.file? f.id = some f)
    (whole : f.Whole (e.octets f)) (q : PageId) :
    (e.allocate f).1.current? q = (e.current? q).or ((e.allocate f).1.stored? q) := by
  have same : (e.allocate f).1.pool.page? q = e.pool.page? q := rfl
  rw [current?, current?, same]
  cases e.pool.page? q with
  | some page => rfl
  | none =>
    cases stored : e.stored? q with
    | none => rfl
    | some page => rw [stored?_allocate h.storable found whole stored]; rfl

theorem alike_allocate (h : e.Alike e') (coherent : e.Coherent) (coherent' : e'.Coherent)
    (found : e.catalog.file? f.id = some f) (whole : f.Whole (e.octets f)) :
    (e.allocate f).1.Alike (e'.allocate f).1 ∧ (e'.allocate f).2 = (e.allocate f).2 := by
  have disk : (e'.allocate f).1.disk = (e.allocate f).1.disk := by
    simp only [allocate, h.disk]
  have stored : (e'.allocate f).1.stored? = (e.allocate f).1.stored? := stored?_congr disk h.catalog
  refine ⟨⟨disk, h.catalog, h.locks, h.dirtied, ?_⟩, by simp only [allocate, h.disk]⟩
  have whole' : f.Whole (e'.octets f) := by
    rw [octets, h.disk]
    exact whole
  funext q
  rw [current?_allocate coherent found whole, current?_allocate coherent' (h.catalog ▸ found) whole',
    h.current, stored]

/-! ## Ending a transaction -/

/-- A page that has been written has lost its mark, and all others are as they were. -/
theorem current?_written {disk : FileTree} {frame : Nat} (h : e.Sound)
    (resident : e.pool.frame? p = some frame)
    (touches : e.Touches p disk) (q : PageId) :
    (e.written disk t p frame page).current? q =
      if q = p then some (page.mark none) else e.current? q := by
  have stored : (e.written disk t p frame page).stored? = ({ e with disk } : Engine).stored? :=
    stored?_congr rfl rfl
  rw [current?, page?_written resident h.pool, stored]
  split
  · rfl
  · next ne =>
    rw [touches.stored?_eq ne]
    rfl

/-- Engines that are alike, and fit together with what has been noted. -/
structure Twins (e e' : Engine) : Prop extends e.Alike e' where
  sound : e.Sound
  sound' : e'.Sound
  neat : e.Neat
  neat' : e'.Neat

theorem neat_written {disk : FileTree} {frame : Nat} (h : e.Sound) (neat : e.Neat)
    (resident : e.pool.frame? p = some frame) (here : e.pool.page? p = some page) :
    (e.written disk t p frame page).Neat := by
  intro q new hq
  rw [page?_written resident h.pool] at hq
  split at hq
  · exact Option.some.inj hq ▸ (neat p page here).mark none
  · exact neat q new hq

theorem alike_writeBack (h : e.Twins e') (p : PageId) (faults : Faults) :
    (e.writeBack p faults).1.Twins (e'.writeBack p faults).1 ∧
      (e'.writeBack p faults).2 = (e.writeBack p faults).2 := by
  have owner' := h.owner? p
  cases owner : e.owner? p with
  | none =>
    rw [writeBack_of_owner?_eq_none owner, writeBack_of_owner?_eq_none (owner'.trans owner)]
    exact ⟨h, rfl⟩
  | some t =>
    -- the page is in memory in both, because of its unwritten changes
    obtain ⟨page, here, dirty⟩ := Option.bind_eq_some_iff.mp owner
    obtain ⟨page', here', -⟩ := Option.bind_eq_some_iff.mp (owner'.trans owner)
    obtain rfl : page = page' := by
      have same := congrFun h.current p
      rw [current?_of_resident here, current?_of_resident here'] at same
      exact (Option.some.inj same).symm
    obtain ⟨i, resident, -⟩ := Pool.page?_eq_some.mp here
    obtain ⟨i', resident', -⟩ := Pool.page?_eq_some.mp here'
    have touches := h.sound.toCoherent.rooted.touches here (e.wrote_writing p page faults)
    have touches' := h.sound'.toCoherent.rooted.touches here' (e'.wrote_writing p page faults)
    have wrote' := writing_congr h.disk h.catalog p page faults
    rw [wrote'] at touches'
    rcases wrote : e.writing p page faults with ⟨disk, _ | _⟩
    · -- the write stops at the same place, and the page is still in memory
      rw [wrote] at touches touches' wrote'
      have back := writeBack_of_failed resident here dirty wrote
      have back' := writeBack_of_failed resident' here' dirty wrote'
      have current : ({ e' with disk } : Engine).current? = ({ e with disk } : Engine).current? := by
        rw [current?_of_touches touches' (by simp [owner', owner]),
          current?_of_touches touches (by simp [owner]), h.current]
      rw [back, back']
      exact ⟨⟨⟨rfl, h.catalog, h.locks, h.dirtied, current⟩, sound_writeBack h.sound back,
        sound_writeBack h.sound' back', h.neat, h.neat'⟩, rfl⟩
    · rw [wrote] at touches touches' wrote'
      have back := writeBack_of_dirty resident here dirty wrote
      have back' := writeBack_of_dirty resident' here' dirty wrote'
      rw [back, back']
      refine ⟨⟨⟨rfl, h.catalog, h.locks, ?_, ?_⟩, sound_writeBack h.sound back,
        sound_writeBack h.sound' back', neat_written h.sound h.neat resident here,
        neat_written h.sound' h.neat' resident' here'⟩, rfl⟩
      · have same : (e'.pool.setFrame i' (page.mark none)).dirtied
            = (e.pool.setFrame i (page.mark none)).dirtied := h.dirtied
        exact Pool.dirtied_noteWritten same t p
      · funext q
        rw [current?_written h.sound resident touches, current?_written h.sound' resident' touches',
          h.current]

theorem alike_writeBackAll (faults : Faults) (ps : List PageId) (h : e.Twins e') :
    (e.writeBackAll faults ps).1.Twins (e'.writeBackAll faults ps).1 ∧
      (e'.writeBackAll faults ps).2 = (e.writeBackAll faults ps).2 := by
  induction ps generalizing e e' with
  | nil => exact ⟨h, rfl⟩
  | cons p ps ih =>
    obtain ⟨twins, same⟩ := alike_writeBack h p faults
    rw [writeBackAll, writeBackAll]
    rcases wrote : e.writeBack p faults with ⟨e₁, result⟩
    rcases wrote' : e'.writeBack p faults with ⟨e₁', result'⟩
    rw [wrote, wrote'] at twins same
    obtain rfl : result' = result := same
    cases result' with
    | ok _ => exact ih twins
    | error err => exact ⟨twins, rfl⟩

theorem isUnwritten_eq (e : Engine) (p : PageId) : e.isUnwritten p = (e.owner? p).isSome := by
  rw [isUnwritten, owner?]
  cases e.pool.page? p <;> rfl

theorem alike_flush (h : e.Twins e') (ps : List PageId) (faults : Faults) :
    (e.flush ps faults).1.Twins (e'.flush ps faults).1 ∧
      (e'.flush ps faults).2 = (e.flush ps faults).2 := by
  have unwritten : e'.isUnwritten = e.isUnwritten := by
    funext p
    rw [isUnwritten_eq, isUnwritten_eq, h.owner?]
  obtain ⟨twins, same⟩ := alike_writeBackAll faults ps h
  rw [flush, flush]
  rcases hw : e.writeBackAll faults ps with ⟨e₁, result⟩
  rcases hw' : e'.writeBackAll faults ps with ⟨e₁', result'⟩
  rw [hw, hw'] at twins same
  obtain rfl : result' = result := same
  cases result' with
  | error err => exact ⟨twins, rfl⟩
  | ok _ =>
    cases faults.sync? with
    | none => exact ⟨twins, rfl⟩
    | some err =>
      dsimp only
      rw [unwritten]
      split
      · exact ⟨twins, rfl⟩
      · exact ⟨twins, rfl⟩

/-- A page that is read again is as it is on the disk, whether or not it stays in memory. -/
theorem current?_revertPage (h : e.Coherent) (faults : Faults) (p q : PageId) :
    (e.revertPage faults p).current? q = if q = p then e.stored? q else e.current? q := by
  have stored : (e.revertPage faults p).stored? = e.stored? := by
    rw [(reverts_revertPage h faults p).same]
    exact stored?_congr rfl rfl
  rw [current?, stored, revertPage]
  split
  · next out =>
    split
    · next eq => rw [eq, h.pool.page?_eq_none.mpr out, Option.none_or]
    · rfl
  · next frame resident =>
    split
    · next page _ read =>
      rw [Pool.page?_setFrame h.pool resident]
      split
      · next eq => rw [Option.some_or, eq, stored?, read]; rfl
      · rfl
    · rw [Pool.page?_drop]
      split
      · rw [Option.none_or]
      · rfl

theorem neat_revertPage (h : e.Coherent) (neat : e.Neat) (faults : Faults) (p : PageId) :
    (e.revertPage faults p).Neat := by
  intro q page here
  rw [revertPage] at here
  split at here
  · exact neat q page here
  · next frame resident =>
    split at here
    · next new _ read =>
      rw [Pool.page?_setFrame h.pool resident] at here
      split at here
      · exact Option.some.inj here ▸ tidy_of_stored? (toOption_eq_some.mpr read)
      · exact neat q page here
    · rw [Pool.page?_drop, Option.ite_none_left_eq_some] at here
      exact neat q page here.2

/-- Pages that are read again are as they are on the disk, and all others as they were. -/
theorem current?_foldl_revertPage (h : e.Coherent) (neat : e.Neat) (faults : Faults)
    (ps : List PageId) : (ps.foldl (revertPage faults) e).Neat ∧
      ∀ q, (ps.foldl (revertPage faults) e).current? q =
        if q ∈ ps then e.stored? q else e.current? q := by
  induction ps generalizing e with
  | nil => exact ⟨neat, fun _ => rfl⟩
  | cons p ps ih =>
    have first := reverts_revertPage h faults p
    obtain ⟨rest, current⟩ := ih first.coherent (neat_revertPage h neat faults p)
    refine ⟨rest, fun q => ?_⟩
    have stored : (e.revertPage faults p).stored? = e.stored? := by
      rw [first.same]
      exact stored?_congr rfl rfl
    rw [List.foldl_cons, current, current?_revertPage h, stored]
    by_cases last : q ∈ ps <;> by_cases here : q = p <;> simp [last, here]

/-- To read the pages again that a transaction has changed, and to take its locks away, leaves engines
alike. -/
theorem alike_rollBack (h : e.Twins e') (t : TxnId) (faults : Faults) :
    ((e.revert t faults).finish t).Alike ((e'.revert t faults).finish t) ∧
      ((e.revert t faults).finish t).Neat ∧ ((e'.revert t faults).finish t).Neat := by
  have reverts := reverts_foldl h.sound.toCoherent faults (e.pool.dirtiedBy t)
  have reverts' := reverts_foldl h.sound'.toCoherent faults (e'.pool.dirtiedBy t)
  obtain ⟨neat, current⟩ :=
    current?_foldl_revertPage h.sound.toCoherent h.neat faults (e.pool.dirtiedBy t)
  obtain ⟨neat', current'⟩ :=
    current?_foldl_revertPage h.sound'.toCoherent h.neat' faults (e'.pool.dirtiedBy t)
  rw [revert, revert]
  refine ⟨⟨?disk, ?catalog, ?locks, ?dirtied, ?current⟩, neat, neat'⟩
  case disk => rw [finish, finish, reverts.same, reverts'.same]; exact h.disk
  case catalog => rw [finish, finish, reverts.same, reverts'.same]; exact h.catalog
  case locks =>
    rw [finish, finish, reverts.same, reverts'.same]
    dsimp only
    rw [h.locks]
  case dirtied =>
    rw [finish, finish]
    dsimp only
    rw [reverts.dirtied, reverts'.dirtied, h.dirtied]
  case current =>
    have stored : e'.stored? = e.stored? := h.stored?
    have finished : ∀ e : Engine, (e.finish t).current? = e.current? := fun _ =>
      current?_congr rfl rfl rfl
    rw [finished, finished]
    funext q
    rw [current, current', h.dirtiedBy, stored, h.current]

/-- **Ending a transaction on engines that are alike.** Both commit it, or fail to for the same reason,
or abort it, and are alike then. -/
theorem alike_complete (h : e.Twins e') (t : TxnId) (commit : Bool) (faults : Faults) :
    (e.complete t commit faults).1.Alike (e'.complete t commit faults).1 ∧
      (e.complete t commit faults).1.Neat ∧ (e'.complete t commit faults).1.Neat ∧
      (e'.complete t commit faults).2 = (e.complete t commit faults).2 := by
  cases commit with
  | false =>
    obtain ⟨alike, neat, neat'⟩ := alike_rollBack h t faults
    exact ⟨alike, neat, neat', rfl⟩
  | true =>
    obtain ⟨twins, same⟩ := alike_flush h (e.pool.dirtiedBy t) faults
    simp only [complete, if_true, flushPagesOf, h.dirtiedBy]
    rcases hf : e.flush (e.pool.dirtiedBy t) faults with ⟨e₁, result⟩
    rcases hf' : e'.flush (e.pool.dirtiedBy t) faults with ⟨e₁', result'⟩
    rw [hf, hf'] at twins same
    obtain rfl : result' = result := same
    cases result' with
    | ok _ =>
      refine ⟨⟨twins.disk, twins.catalog, ?locks, ?dirtied, twins.current⟩, twins.neat, twins.neat',
        rfl⟩
      case locks => exact congrArg (LockTable.releaseAll · t) twins.locks
      case dirtied => exact congrArg (FinMap.erase · t) twins.dirtied
    | error err =>
      obtain ⟨alike, neat, neat'⟩ := alike_rollBack twins t faults
      exact ⟨alike, neat, neat', rfl⟩

end Engine

end RowStore
