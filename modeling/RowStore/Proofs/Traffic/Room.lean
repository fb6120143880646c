import RowStore.Proofs.Engine.Alike
import RowStore.Proofs.Scan.Reading
import RowStore.Proofs.Traffic.Sound

/-! # Room in memory
No operation makes more pages resident than fit (`keeps_step`, `keeps_complete`). So a transaction that
works alone (`Engine.Alone`) can bring one more page into memory as long as fewer pages have unwritten
changes than fit there (`Alone.exists_fetched_iff`), and can read every table when there are none
(`Alone.readable`). Every run leaves a transaction alone if the others hold no locks
(`Traffic.alone_of_run`). -/

namespace RowStore

namespace Engine

variable {e e' : Engine} {t : TxnId} {p : PageId} {permission : Permission} {c : Call}
  {progress : Progress} {faults : Faults}

theorem keeps_bring (h : e.Coherent) {i : Nat} (hb : e.bring p = .ok (e', i)) :
    e.pool.Keeps e'.pool := by
  rcases bring_cases hb with ⟨here, rfl⟩ | ⟨-, page, pool, -, loaded, rfl⟩
  · exact .promote here
  · exact .load h.pool loaded

theorem keeps_getPage (h : e.Coherent) {fetch : Fetch}
    (hg : e.getPage t p permission = (e', fetch)) : e.pool.Keeps e'.pool := by
  have gets := gets_of_getPage hg
  generalize (e.locks.acquire t p permission.mode).2 = reply at gets
  cases gets with
  | waiting | deadlock | unserved => exact .refl _
  | served brought =>
    have asked := (fetches_asking h t p permission.mode).coherent
    exact show (e.asking t p permission.mode).pool.Keeps e'.pool from keeps_bring asked brought

theorem keeps_step (h : e.Sound) (hc : c.Sound e) (hs : e.step t c = (e', progress)) :
    e.pool.Keeps e'.pool := by
  cases asks : c.asks? with
  | none =>
    obtain ⟨locks, rfl⟩ | ⟨i, -, rfl⟩ := step_of_not_asks asks hs
    · exact .refl _
    · exact .refl _
  | some asked =>
    obtain ⟨e₁, fetch, hg, rfl | ⟨ref, new, rfl⟩⟩ := step_of_asks h hc asks hs
    · exact keeps_getPage h.toCoherent hg
    · have replaced : e₁.pool.Keeps (e₁.pool.setFrame ref.frame (new.mark (some t))) :=
        .of_resident rfl rfl rfl
      exact (keeps_getPage h.toCoherent hg).trans (replaced.trans (.noteDirtied t new.id))

/-! ## Ends of transactions -/

theorem keeps_writeBack {result : Except FileError Unit} (hw : e.writeBack p faults = (e', result)) :
    e.pool.Keeps e'.pool := by
  cases writesBack_of_writeBack hw with
  | clean | failed => exact .refl _
  | @dirty t page frame =>
    have replaced : e.pool.Keeps (e.pool.setFrame frame (page.mark none)) := .of_resident rfl rfl rfl
    exact replaced.trans (.noteWritten t p)

theorem keeps_revertPage (e : Engine) (faults : Faults) (p : PageId) :
    e.pool.Keeps (e.revertPage faults p).pool := by
  rw [revertPage]
  split
  · exact .refl _
  · split
    · exact .of_resident rfl rfl rfl
    · exact .drop p

theorem keeps_complete (e : Engine) (t : TxnId) (commit : Bool) (faults : Faults) :
    e.pool.Keeps (e.complete t commit faults).1.pool := by
  obtain ⟨e', keeps, done⟩ := complete_induction (motive := fun e' => e.pool.Keeps e'.pool) (.refl _)
    (fun keeps wrote => keeps.trans (keeps_writeBack wrote))
    (fun p keeps => keeps.trans (keeps_revertPage _ faults p)) t commit
  have finished : e'.pool.Keeps (e'.finish t).pool := .of_resident rfl rfl rfl
  exact done ▸ keeps.trans finished

/-! ## Working alone -/

/-- What it is like for a transaction to be alone: nobody else holds locks or is in the middle of writing
to a page, and memory holds no more than fits there. -/
structure Alone (e : Engine) (t : TxnId) : Prop where
  sound : e.Sound
  others : ∀ u ≠ t, ∀ p mode, e.locks.holds u p mode = false
  unlatched : e.pool.latched = []
  within : e.pool.resident.length ≤ e.pool.capacity
  roomy : 0 < e.pool.capacity

theorem Fresh.alone (h : e.Fresh) (t : TxnId) : e.Alone t := by
  obtain ⟨capacity, pool⟩ := h.pool
  have one : 1 ≤ max capacity 1 := Nat.le_max_right ..
  refine ⟨h.sound, ?_, by rw [pool]; rfl, by rw [pool]; exact Nat.zero_le _, by rw [pool]; exact one⟩
  intro u _ p mode
  rw [h.locks]
  cases mode <;> rfl

namespace Alone

variable (h : e.Alone t)

include h

/-- Nobody else has unwritten changes. -/
theorem owner?_cases (p : PageId) : e.owner? p = none ∨ e.owner? p = some t := by
  cases owner : e.owner? p with
  | none => exact .inl rfl
  | some u =>
    right
    by_contra ne
    have held := h.sound.locked u p owner
    rw [h.others u fun eq => ne (eq ▸ rfl)] at held
    cases held

/-- Who is alone stays alone in its own steps. -/
theorem step (hc : c.Sound e) (hs : e.step t c = (e', progress)) : e'.Alone t := by
  obtain ⟨steps, -⟩ := steps_step h.sound hc hs
  have keeps := keeps_step h.sound hc hs
  refine ⟨steps.sound, fun u ne p mode => ?_, keeps.latched.trans h.unlatched, keeps.within h.within,
    keeps.capacity ▸ h.roomy⟩
  rw [steps.others ne]
  exact h.others u ne p mode

/-- When a transaction that has been alone is over, everybody is alone, and nobody has unwritten
changes. -/
theorem complete (commit : Bool) (faults : Faults) :
    (∀ u, (e.complete t commit faults).1.Alone u) ∧
      ∀ p, (e.complete t commit faults).1.owner? p = none := by
  have keeps := keeps_complete e t commit faults
  rcases hc : e.complete t commit faults with ⟨e', result⟩
  rw [hc] at keeps
  obtain ⟨written, torn?, completes, -⟩ := completes_complete h.sound hc
  refine ⟨fun u => ⟨completes.sound, fun v _ p mode => ?_, keeps.latched.trans h.unlatched,
    keeps.within h.within, keeps.capacity ▸ h.roomy⟩, fun p => ?_⟩
  · rw [completes.locks]
    split
    · rfl
    · next other => exact h.others v other p mode
  · rw [completes.owner]
    split
    · rfl
    · next other => exact (h.owner?_cases p).resolve_right other

variable {f : HeapFile} {n : Nat} (found : e.catalog.file? f.id = some f) (whole : e.Whole f)

/-- Who is alone is granted every lock. -/
theorem granted (p : PageId) (mode : LockMode) : (e.locks.acquire t p mode).2 = .granted :=
  LockTable.acquire_granted_of_alone fun u ne m => h.others u ne p m

include found whole

omit h in
theorem exists_readPage (inside : n < e.numPages f) : ∃ page, e.readPage ⟨f.id, n⟩ = .ok page := by
  obtain ⟨page, read⟩ := HeapFile.exists_readPage (p := ⟨f.id, n⟩) rfl (HeapFile.Whole.covers whole inside)
  refine ⟨page, bind_eq_ok.mpr ⟨f, file_eq_ok.mpr found, ?_⟩⟩
  exact read

/-- Who is alone can fetch a page of a file of whole pages if it is one with unwritten changes, or if
these leave room for another one. -/
theorem exists_fetched_iff (inside : n < e.numPages f) (permission : Permission) :
    (∃ e' ref, e.getPage t ⟨f.id, n⟩ permission = (e', .fetched ref)) ↔
      (e.owner? ⟨f.id, n⟩).isSome = true ∨ e.pool.dirtyCount < e.pool.capacity := by
  rw [Engine.exists_fetched_iff, and_iff_right (h.granted _ _), Fetchable,
    and_iff_right (exists_readPage found whole inside), ← Pool.roomy_iff h.unlatched h.within]
  constructor
  · rintro (resident | room)
    · -- a page that is in memory without unwritten changes can leave it
      obtain ⟨i, frame⟩ := Option.isSome_iff_exists.mp resident
      obtain ⟨page, at_i, -⟩ := h.sound.pool.exists_page frame
      have owner : e.owner? ⟨f.id, n⟩ = page.dirtiedBy := by
        rw [owner?, Pool.page?_eq_some.mpr ⟨i, frame, at_i⟩, Option.bind_some]
      cases dirty : page.dirtiedBy with
      | some u => exact .inl (by rw [owner, dirty]; rfl)
      | none =>
        refine .inr (.inr ⟨_, i, Pool.mem_resident_of_frame? frame, ?_, by simp [h.unlatched]⟩)
        simp [Pool.isDirty, at_i, dirty]
    · exact .inr room
  · rintro (owned | room)
    · left
      rw [owner?] at owned
      obtain ⟨page, here⟩ := Option.isSome_iff_exists.mp (Option.isSome_of_isSome_bind owned)
      obtain ⟨i, frame, -⟩ := Pool.page?_eq_some.mp here
      rw [frame]
      rfl
    · exact .inr room

/-- A page that cannot be fetched finds no room. -/
theorem fetched_or_poolFull (inside : n < e.numPages f) (permission : Permission) :
    (∃ e' ref, e.getPage t ⟨f.id, n⟩ permission = (e', .fetched ref)) ∨
      ∃ e', e.getPage t ⟨f.id, n⟩ permission = (e', .failed .poolFull) := by
  rcases hg : e.getPage t ⟨f.id, n⟩ permission with ⟨e', fetch⟩
  have gets := gets_of_getPage hg
  rw [h.granted] at gets
  cases gets with
  | served => exact .inl ⟨e', _, rfl⟩
  | @unserved err failed =>
    obtain ⟨page, read⟩ := exists_readPage found whole inside
    have asked := (fetches_asking h.sound.toCoherent t ⟨f.id, n⟩ permission.mode).coherent.pool
    have full : err = .poolFull := by
      refine (bring_eq_error asked failed).resolve_right fun unread => ?_
      cases read.symm.trans unread.2
    exact .inr ⟨_, by rw [full]⟩

/-- Who is alone can read a table of whole pages while nobody has unwritten changes. -/
theorem readable (clean : ∀ p, e.owner? p = none) : e.Readable t f where
  coherent := h.sound.toCoherent
  registered := found
  loads n inside := by
    refine (h.exists_fetched_iff found whole inside .readOnly).mpr (.inr ?_)
    have none_dirty : e.pool.dirtyCount = 0 := by
      refine h.sound.pool.dirtyCount_eq [] List.nodup_nil fun id => ?_
      have owner : (e.pool.page? id).bind Page.dirtiedBy = none := clean id
      simp [owner]
    rw [none_dirty]
    exact h.roomy
  latched i mem := by
    rw [h.unlatched] at mem
    cases mem

end Alone

end Engine

namespace Traffic

/-- No run makes more pages resident than fit, and none leaves a page that is being written to. -/
theorem keeps_run {e : Engine} (fresh : e.Fresh) {es : List TrafficEvent} {s : Traffic}
    (h : (quiet e).run es = some s) : e.pool.Keeps s.engine.pool := by
  refine ((sound_quiet fresh).run_induction (motive := fun _ s => e.pool.Keeps s.engine.pool) ?_ h
    (.refl _)).2
  intro done s s' ev _ sound step kept
  refine kept.trans ?_
  cases next_of_next? step with
  | start => exact .refl _
  | step turn => exact Engine.keeps_step sound.engine (sound.calls _ _ turn) rfl
  | complete => exact Engine.keeps_complete ..

/-- After a run a transaction is alone if the others hold no locks. -/
theorem alone_of_run {e : Engine} (fresh : e.Fresh) {es : List TrafficEvent} {s : Traffic}
    (h : (quiet e).run es = some s) {t : TxnId}
    (others : ∀ u ≠ t, ∀ p mode, s.engine.locks.holds u p mode = false) : s.engine.Alone t := by
  have first := fresh.alone t
  have keeps := keeps_run fresh h
  exact ⟨(Sound.run fresh h).engine, others, keeps.latched.trans first.unlatched,
    keeps.within first.within, keeps.capacity ▸ first.roomy⟩

end Traffic

end RowStore
