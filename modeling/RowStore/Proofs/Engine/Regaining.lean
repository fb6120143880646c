import RowStore.Proofs.Engine.Eviction

/-! # Pages that are held while they leave memory
A page without unwritten changes may leave memory while a transaction holds it, and the transaction may
change it then. When the page is marked, it becomes resident again as it is held, and the commit that comes
next writes it (`Regains`); or there is no room for it, and then nothing that is done to it reaches the disk
until it is marked successfully (`Refuses`). The second part is about frames in which no page is resident
(`Pool.Detached`): they stay so, and a commit does the same whatever pages are in them
(`complete_setPage`). Main statement: `regains_or_refuses_of_markDirty`. -/

namespace RowStore

namespace Pool

variable {p p' : Pool} {id : PageId} {i j : Nat} {page other : Page} {t : TxnId} {ref : PageRef}

/-! ## Frames in which no page is resident -/

/-- Whether there is such a frame, and no page is resident in it. -/
structure Detached (p : Pool) (i : Nat) : Prop where
  inside : i < p.frames.size
  apart : ∀ id j, (id, j) ∈ p.resident → j ≠ i

namespace Detached

theorem stays (h : p.Detached i) (stays : p.Stays p') : p'.Detached i :=
  ⟨stays.size ▸ h.inside, stays.resident ▸ h.apart⟩

theorem drop (h : p.Detached i) (id : PageId) : (p.drop id).Detached i :=
  ⟨h.inside, fun a j mem => h.apart a j (List.mem_filter.mp mem).1⟩

theorem promote (h : p.Detached i) (ne : j ≠ i) (id : PageId) : (p.promote id j).Detached i := by
  refine ⟨h.inside, fun a k mem => ?_⟩
  rcases List.mem_cons.mp mem with eq | mem
  · exact (Prod.mk.inj eq).2 ▸ ne
  · exact (h.drop id).apart a k mem

theorem makeRoom (h : p.Detached i) (room : p.makeRoom = .ok p') : p'.Detached i := by
  rcases makeRoom_cases room with rfl | ⟨victim, -, rfl⟩
  · exact h
  · exact h.drop victim

/-- A page that is loaded becomes resident in a new frame. -/
theorem load (h : p.Detached i) {frame : Nat} (loaded : p.load page = .ok (p', frame)) :
    p'.Detached i := by
  obtain ⟨q, room, rfl, rfl⟩ := load_cases loaded
  obtain ⟨inside, apart⟩ := h.makeRoom room
  have appended : (q.append page).Detached i :=
    ⟨by simpa [append] using Nat.lt_succ_of_lt inside, apart⟩
  exact appended.promote (Nat.ne_of_gt inside) page.id

theorem frame?_ne (h : p.Detached i) (here : p.frame? id = some j) : j ≠ i :=
  h.apart id j (mem_resident_of_frame? here)

/-- Another page may be put into the frame, and all resident pages stay as they are. -/
theorem page?_setFrame (h : p.Detached i) : (p.setFrame i page).page? id = p.page? id := by
  have frame : (p.setFrame i page).frame? id = p.frame? id := rfl
  rw [page?, page?, frame]
  cases here : p.frame? id with
  | none => rfl
  | some j => simp [setFrame, Array.getElem?_setIfInBounds, (h.frame?_ne here).symm]

/-- A page that is marked becomes resident in its own frame at most. -/
theorem markDirty (h : p.Detached i)
    (unmarked : ref.frame = i → (p.markDirty t ref).2 ≠ .ok ()) : (p.markDirty t ref).1.Detached i := by
  cases here : p.frames[ref.frame]? with
  | none => simpa [Pool.markDirty, here] using h
  | some page =>
    cases write : ref.permission with
    | readOnly => simpa [Pool.markDirty, here, write] using h
    | readWrite =>
      have marks := marks_markDirty (t := t) here write
      generalize p.markDirty t ref = result at marks unmarked
      -- the mark itself moves no page; the frame becomes resident only if there is room
      have marked := h.stays (p.stays_marked t ref.frame page)
      have elsewhere : result.2 = .ok () → ref.frame ≠ i := fun done eq => unmarked eq done
      cases marks with
      | still | refused => exact marked
      | swapped => exact marked.promote (elsewhere rfl) page.id
      | regained gone room => exact (marked.makeRoom room).promote (elsewhere rfl) page.id

end Detached

theorem setFrame_comm (ne : i ≠ j) :
    (p.setFrame i page).setFrame j other = (p.setFrame j other).setFrame i page := by
  rw [setFrame, setFrame, setFrame, setFrame, Array.setIfInBounds_comm _ _ ne]

theorem noteWritten_setFrame :
    (p.setFrame i page).noteWritten t id = (p.noteWritten t id).setFrame i page := by
  have dirtied : (p.setFrame i page).dirtied = p.dirtied := rfl
  rw [noteWritten, noteWritten, dirtied]
  cases p.dirtied.get? t <;> rfl

end Pool

namespace Engine

variable {e e' : Engine} {t u : TxnId} {p q : PageId} {permission : Permission} {ref : PageRef}
  {page : Page} {faults : Faults} {c : Call} {ev : Event} {es : List Event} {i : Nat}

theorem detached_getPage {fetch : Fetch} (h : e.pool.Detached i)
    (hg : e.getPage t p permission = (e', fetch)) : e'.pool.Detached i := by
  have gets := gets_of_getPage hg
  generalize (e.locks.acquire t p permission.mode).2 = reply at gets
  cases gets with
  | waiting | deadlock | unserved => exact h
  | served brought =>
    rcases bring_cases brought with ⟨here, rfl⟩ | ⟨-, page, pool, -, loaded, rfl⟩
    · exact h.promote (h.frame?_ne here) p
    · exact h.load loaded

/-- A step may fetch a page, and leaves the resident pages where they are after that. -/
theorem detached_step (sound : e.pool.Sound) (h : e.pool.Detached i) (t : TxnId) (c : Call) :
    (e.step t c).1.pool.Detached i := by
  cases asks : c.asks? with
  | none =>
    rcases hs : e.step t c with ⟨e', progress⟩
    obtain ⟨locks, rfl⟩ | ⟨i, -, rfl⟩ := step_of_not_asks asks hs
    · exact h
    · exact h
  | some asked =>
    obtain ⟨p, permission⟩ := asked
    obtain ⟨use, eq, stays⟩ := exists_use (e := e) (t := t) asks
    rcases hg : e.getPage t p permission with ⟨e₁, fetch⟩
    have fetched := detached_getPage h hg
    rw [eq, withPage, hg]
    cases fetch with
    | waiting | failed => exact fetched
    | fetched ref =>
      obtain ⟨refreshes, spec⟩ := refreshes_getPage sound hg
      rcases enters_or_pool_eq hg with ⟨ref', same, write, -⟩ | ⟨unfetched, -⟩
      · obtain rfl := Fetch.fetched.inj same
        obtain ⟨page, here, id⟩ := (refreshes.sound sound).exists_page (spec ref rfl).1
        have here : e₁.page? ref = some page := here
        simp only [here]
        exact fetched.stays (stays e₁ ref page here (id ▸ (spec ref rfl).1) write)
      · exact absurd rfl (unfetched ref)

theorem detached_revertPage (h : e.pool.Detached i) (faults : Faults) (p : PageId) :
    (e.revertPage faults p).pool.Detached i := by
  rw [revertPage]
  split
  · exact h
  · split
    · exact h.stays (Pool.stays_setFrame ..)
    · exact h.drop p

theorem detached_complete (h : e.pool.Detached i) (t : TxnId) (commit : Bool) (faults : Faults) :
    (e.complete t commit faults).1.pool.Detached i := by
  obtain ⟨e', detached, done⟩ := complete_induction (motive := fun e => e.pool.Detached i) h
    (fun detached wrote => detached.stays (stays_writeBack wrote))
    (fun p detached => detached_revertPage detached faults p) t commit
  rw [done]
  exact ⟨detached.inside, detached.apart⟩

/-- No page becomes resident in such a frame, whatever happens, unless the page in it is marked
successfully. -/
theorem detached_happen (sound : e.pool.Sound) (h : e.pool.Detached i)
    (unmarked : ∀ u ref, ev = .markDirty u ref → ref.frame = i → (e.markDirty u ref).2 ≠ .ok ()) :
    (e.happen ev).pool.Detached i := by
  cases ev with
  | openTable | addTable | release => exact h
  | latch frames => exact ⟨h.inside, h.apart⟩
  | step t call => exact detached_step sound h t call
  | edit ref edit =>
    rw [happen]
    split
    · exact h.stays (Pool.stays_setFrame ..)
    · exact h
  | markDirty t ref => exact h.markDirty (unmarked t ref rfl)
  | flushPage p => exact h.stays (stays_writeBackAll e ∅ [p])
  | flushAll => exact h.stays (stays_flush e _ ∅)
  | flushPagesOf t faults => exact h.stays (stays_flush e _ faults)
  | complete t commit faults => exact detached_complete h t commit faults
  | discard p => exact h.drop p

/-! ## What a commit does not depend on -/

section SetPage

variable (h : e.pool.Detached ref.frame)

include h

theorem writeBack_setPage : (e.setPage ref page).writeBack p faults =
    ((e.writeBack p faults).1.setPage ref page, (e.writeBack p faults).2) := by
  have pages : (e.setPage ref page).pool.page? p = e.pool.page? p := h.page?_setFrame
  have owners : (e.setPage ref page).owner? p = e.owner? p := by rw [owner?, owner?, pages]
  cases owner : e.owner? p with
  | none =>
    rw [writeBack_of_owner?_eq_none owner, writeBack_of_owner?_eq_none (owners.trans owner)]
  | some t =>
    obtain ⟨old, here, dirty⟩ := Option.bind_eq_some_iff.mp owner
    obtain ⟨frame, resident, -⟩ := Pool.page?_eq_some.mp here
    have disk : (e.setPage ref page).disk = e.disk := rfl
    have writing : (e.setPage ref page).writing p old faults = e.writing p old faults :=
      writing_congr disk rfl p old faults
    have written : ∀ disk, (e.setPage ref page).written disk t p frame old =
        (e.written disk t p frame old).setPage ref page := by
      intro disk
      simp only [Engine.written, setPage, Pool.setFrame_comm (h.frame?_ne resident).symm,
        Pool.noteWritten_setFrame]
    have resident' : (e.setPage ref page).pool.frame? p = some frame := resident
    rcases wrote : e.writing p old faults with ⟨disk, _ | _⟩
    · rw [writeBack_of_failed resident here dirty wrote,
        writeBack_of_failed resident' (pages.trans here) dirty (writing.trans wrote)]
      rfl
    · rw [writeBack_of_dirty resident here dirty wrote,
        writeBack_of_dirty resident' (pages.trans here) dirty (writing.trans wrote), written]

theorem writeBackAll_setPage (faults : Faults) (ps : List PageId) :
    (e.setPage ref page).writeBackAll faults ps =
      ((e.writeBackAll faults ps).1.setPage ref page, (e.writeBackAll faults ps).2) := by
  induction ps generalizing e with
  | nil => rfl
  | cons p ps ih =>
    rw [writeBackAll, writeBack_setPage h, writeBackAll]
    rcases wrote : e.writeBack p faults with ⟨e', _ | _⟩
    · rfl
    · exact ih (h.stays (stays_writeBack wrote))

theorem flush_setPage (ps : List PageId) (faults : Faults) : (e.setPage ref page).flush ps faults =
    ((e.flush ps faults).1.setPage ref page, (e.flush ps faults).2) := by
  have unwritten : (e.setPage ref page).isUnwritten = e.isUnwritten := by
    funext p
    have pages : (e.setPage ref page).pool.page? p = e.pool.page? p := h.page?_setFrame
    rw [isUnwritten, isUnwritten, pages]
  rw [flush, flush, writeBackAll_setPage h, unwritten]
  rcases e.writeBackAll faults ps with ⟨e', result⟩
  cases result with
  | error err => rfl
  | ok _ =>
    cases faults.sync? with
    | none => rfl
    | some err =>
      dsimp only
      split <;> rfl

theorem revertPage_setPage (faults : Faults) (p : PageId) :
    (e.setPage ref page).revertPage faults p = (e.revertPage faults p).setPage ref page := by
  have frame : (e.setPage ref page).pool.frame? p = e.pool.frame? p := rfl
  have disk : (e.setPage ref page).disk = e.disk := rfl
  rw [revertPage, revertPage, frame, readPage_congr disk rfl]
  cases resident : e.pool.frame? p with
  | none => rfl
  | some j =>
    dsimp only
    split
    · simp only [setPage, Pool.setFrame_comm (h.frame?_ne resident).symm]
    · rfl

theorem foldl_revertPage_setPage (faults : Faults) (ps : List PageId) :
    ps.foldl (revertPage faults) (e.setPage ref page) =
      (ps.foldl (revertPage faults) e).setPage ref page := by
  induction ps generalizing e with
  | nil => rfl
  | cons p ps ih =>
    rw [List.foldl_cons, List.foldl_cons, revertPage_setPage h]
    exact ih (detached_revertPage h faults p)

/-- The end of a transaction does the same whatever page is in a frame in which no page is resident. -/
theorem complete_setPage (t : TxnId) (commit : Bool) (faults : Faults) :
    (e.setPage ref page).complete t commit faults =
      ((e.complete t commit faults).1.setPage ref page, (e.complete t commit faults).2) := by
  -- an abort, and a commit that fails and is taken back
  have reverted : ∀ {e : Engine}, e.pool.Detached ref.frame →
      ((e.setPage ref page).revert t faults).finish t
        = ((e.revert t faults).finish t).setPage ref page := by
    intro e h
    have listed : (e.setPage ref page).pool.dirtiedBy t = e.pool.dirtiedBy t := rfl
    rw [revert, listed, foldl_revertPage_setPage h]
    rfl
  cases commit with
  | false => exact congrArg (·, Except.ok ()) (reverted h)
  | true =>
    have listed : (e.setPage ref page).pool.dirtiedBy t = e.pool.dirtiedBy t := rfl
    have still := stays_flush e (e.pool.dirtiedBy t) faults
    have same : (e.setPage ref page).flush _ faults = _ := flush_setPage h (e.pool.dirtiedBy t) faults
    rcases flushed : e.flush (e.pool.dirtiedBy t) faults with ⟨e', result⟩
    rw [flushed] at still same
    simp only [complete, if_true, flushPagesOf, listed, same, flushed]
    cases result with
    | ok _ => rfl
    | error err => exact congrArg (·, Except.error err) (reverted (h.stays still))

end SetPage

/-- Whether no page is marked successfully in a frame while events happen one after another. -/
def Unmarked (e : Engine) (frame : Nat) (es : List Event) : Prop :=
  ∀ done u ref, done ++ [.markDirty u ref] <+: es → ref.frame = frame →
    ((done.foldl happen e).markDirty u ref).2 ≠ .ok ()

theorem detached_foldl (sound : e.pool.Sound) (h : e.pool.Detached i) (unmarked : e.Unmarked i es) :
    (es.foldl happen e).pool.Sound ∧ (es.foldl happen e).pool.Detached i := by
  induction es using List.reverseRecOn with
  | nil => exact ⟨sound, h⟩
  | append_singleton es ev ih =>
    obtain ⟨sound, h⟩ := ih fun done u ref pre => unmarked done u ref (pre.trans (List.prefix_append ..))
    rw [List.foldl_concat]
    refine ⟨(carries_happen sound ev).sound sound, detached_happen sound h fun u ref eq => ?_⟩
    exact unmarked es u ref (eq ▸ List.prefix_rfl)

/-- What is in a frame makes no difference to the commits of a transaction: whatever page is put there,
the same is written, and the page stays there as it is. -/
def Ignores (e : Engine) (t : TxnId) (ref : PageRef) : Prop :=
  ∀ faults page, (e.setPage ref page).complete t true faults =
    ((e.complete t true faults).1.setPage ref page, (e.complete t true faults).2)

/-! ## Pages that stay in their frames -/

section Owned

variable (owner : e.owner? q = some u)

include owner

/-- A page with unwritten changes stays in its frame when another page is fetched. -/
theorem frame?_of_getPage (h : e.pool.Sound) {fetch : Fetch}
    (hg : e.getPage t p permission = (e', fetch)) : e'.pool.frame? q = e.pool.frame? q := by
  have gets := gets_of_getPage hg
  generalize (e.locks.acquire t p permission.mode).2 = reply at gets
  cases gets with
  | waiting | deadlock | unserved => rfl
  | served brought =>
    rcases bring_cases brought with ⟨here, rfl⟩ | ⟨gone, page, pool, read, loaded, rfl⟩
    · rw [Pool.frame?_promote]
      split
      · next eq => exact eq ▸ here.symm
      · rfl
    · obtain ⟨rfl, -⟩ := layout_of_readPage read
      obtain ⟨roomy, room, -, rfl⟩ := Pool.load_cases loaded
      have ne : q ≠ page.id := by
        rintro rfl
        rw [owner?, h.page?_eq_none.mpr gone] at owner
        cases owner
      rw [Pool.frame?_promote, if_neg ne]
      rcases (Pool.sheds_makeRoom h room).others q with same | ⟨-, old, here, clean⟩
      · exact same
      · rw [owner?, here, Option.bind_some, clean] at owner
        cases owner

theorem frame?_of_step (h : e.Sound) (hc : c.Sound e) : (e.step t c).1.pool.frame? q = e.pool.frame? q := by
  rcases hs : e.step t c with ⟨e', progress⟩
  cases asks : c.asks? with
  | none =>
    obtain ⟨locks, rfl⟩ | ⟨i, -, rfl⟩ := step_of_not_asks asks hs
    · rfl
    · rfl
  | some asked =>
    obtain ⟨e₁, fetch, hg, rfl | ⟨ref, new, rfl⟩⟩ := step_of_asks h hc asks hs
    · exact frame?_of_getPage owner h.pool hg
    · exact Pool.frame?_marked.trans (frame?_of_getPage owner h.pool hg)

omit owner in
theorem frame?_foldl_revertPage (faults : Faults) {ps : List PageId} (out : q ∉ ps) :
    (ps.foldl (revertPage faults) e).pool.frame? q = e.pool.frame? q := by
  induction ps generalizing e with
  | nil => rfl
  | cons p ps ih =>
    rw [List.mem_cons, not_or] at out
    refine (ih out.2).trans ?_
    rw [revertPage]
    split
    · rfl
    · split
      · rfl
      · exact Pool.frame?_drop.trans (if_neg out.1)

/-- The pages that others have changed stay in their frames when a transaction ends. -/
theorem frame?_of_complete (h : e.Sound) (ne : u ≠ t) (commit : Bool) (faults : Faults) :
    (e.complete t commit faults).1.pool.frame? q = e.pool.frame? q := by
  obtain ⟨e₁, e₂, written, reverted, done⟩ := exists_complete e t commit faults
  have first : e₁.pool.resident = e.pool.resident ∧ ∀ p, e₁.pool.Noted t p → e.pool.Noted t p := by
    rcases written with rfl | rfl
    · exact ⟨rfl, fun _ noted => noted⟩
    · exact ⟨(stays_writeBackAll ..).resident, fun _ noted => noted_of_writeBackAll noted⟩
  obtain ⟨resident, noted⟩ := first
  have still : e₁.pool.frame? q = e.pool.frame? q := by rw [Pool.frame?, Pool.frame?, resident]
  rw [done]
  rcases reverted with rfl | rfl
  · exact still
  · refine (frame?_foldl_revertPage faults fun mem => ?_).trans still
    -- a page that is read again is noted for the transaction, but this one is somebody else's
    have mine := (h.noted t q).mp (noted q (Pool.mem_dirtiedBy.mp mem))
    exact ne (Option.some.inj (owner.symm.trans mine))

end Owned

/-! ## Commits -/

/-- Pages that are written back stay in their frames, and change in their marks only. -/
theorem exists_mark_of_writeBackAll (at_i : e.pool.frames[i]? = some page) (faults : Faults)
    (ps : List PageId) :
    ∃ mark, (e.writeBackAll faults ps).1.pool.frames[i]? = some (page.mark mark) := by
  refine writeBackAll_induction (motive := fun e => ∃ mark, e.pool.frames[i]? = some (page.mark mark))
    ⟨page.dirtiedBy, at_i⟩ ?_ ps
  rintro e e' p result ⟨mark, at_i⟩ wrote
  cases writesBack_of_writeBack wrote with
  | clean | failed => exact ⟨mark, at_i⟩
  | @dirty t old frame _ _ _ at_frame =>
    rw [written, Pool.frames_noteWritten, Pool.setFrame, Array.getElem?_setIfInBounds]
    split
    · next eq =>
      subst eq
      obtain rfl := Option.some.inj (at_i.symm.trans at_frame)
      obtain ⟨inside, -⟩ := Array.getElem?_eq_some_iff.mp at_i
      exact ⟨none, if_pos inside⟩
    · exact ⟨mark, at_i⟩

/-- A commit that goes through writes a page that its transaction has changed as it is in memory. -/
theorem exists_stored_of_complete (h : e.Sound) (resident : e.pool.frame? p = some i)
    (at_i : e.pool.frames[i]? = some page) (owner : e.owner? p = some t)
    (hc : e.complete t true faults = (e', .ok ())) :
    ∃ stored, e'.readPage p = .ok stored ∧ stored.layout = page.layout ∧ page.Agrees stored := by
  obtain ⟨written, torn?, completes, -⟩ := completes_complete h hc
  have wrote := flush_fst (e := e) (e.pool.dirtiedBy t) faults
  obtain ⟨mark, kept⟩ := exists_mark_of_writeBackAll at_i faults (e.pool.dirtiedBy t)
  have stays := stays_writeBackAll e faults (e.pool.dirtiedBy t)
  rw [← wrote] at kept stays
  simp only [complete, if_true, flushPagesOf] at hc
  rcases flushed : e.flush (e.pool.dirtiedBy t) faults with ⟨e₁, result⟩
  rw [flushed] at hc kept stays
  cases result with
  | error err => cases (Prod.mk.inj hc).2
  | ok _ =>
    obtain rfl := (Prod.mk.inj hc).1
    have still : (e₁.finish t).pool.frame? p = some i := by
      rw [Pool.frame?, finish, stays.resident, ← Pool.frame?, resident]
    have here : (e₁.finish t).pool.page? p = some (page.mark mark) :=
      Pool.page?_eq_some.mpr ⟨i, still, kept⟩
    -- nobody has changed the page since, so it is on the disk as it is in memory
    have clean : (e₁.finish t).owner? p = none := by rw [completes.owner, if_pos owner]
    rw [owner?, here, Option.bind_some] at clean
    obtain ⟨-, stored, on_disk, layout⟩ := completes.sound.resident p _ here
    have agrees := completes.sound.clean p _ stored here clean on_disk
    exact ⟨stored, toOption_eq_some.mp on_disk, layout.symm, agrees.bits, agrees.rows⟩

/-! ## Marking a page that is held -/

/-- What it leads to that a transaction marks a page successfully that it holds: the page is resident as it
is held, no page with unwritten changes has left memory, and the commit that comes next writes it. -/
structure Regains (e e' : Engine) (t : TxnId) (ref : PageRef) (page : Page) : Prop where
  resident : e'.pool.frame? page.id = some ref.frame
  here : e'.page? ref = some (page.mark (some t))
  listed : page.id ∈ e'.pool.dirtiedBy t
  within : e'.pool.resident.length ≤ e.pool.capacity
  dirty : ∀ q u, e.owner? q = some u → e'.pool.frame? q = e.pool.frame? q ∧
    (q ≠ page.id → e'.pool.page? q = e.pool.page? q)
  committed : ∀ faults e'', e'.complete t true faults = (e'', .ok ()) →
    ∃ stored, e''.readPage page.id = .ok stored ∧ stored.layout = page.layout ∧ page.Agrees stored

/-- What it leads to that a page cannot be marked that a transaction holds: the resident pages are those
that were so before, and until the page is marked successfully, no commit of the transaction depends on
it. -/
structure Refuses (e e' : Engine) (t : TxnId) (ref : PageRef) : Prop where
  resident : e'.pool.resident = e.pool.resident
  pages : ∀ q, e'.pool.page? q = e.pool.page? q
  ignored : ∀ es, e'.Unmarked ref.frame es → (es.foldl happen e').Ignores t ref

theorem length_resident_of_markDirty (h : e.pool.Sound)
    (within : e.pool.resident.length ≤ e.pool.capacity) (t : TxnId) (ref : PageRef) :
    (e.markDirty t ref).1.pool.resident.length ≤ e.pool.capacity := by
  have turns := turns_markDirty h t ref
  generalize (e.markDirty t ref).1 = e' at turns
  have count : ∀ p : Pool, p.ids.length = p.resident.length := fun p => List.length_map _
  cases turns with
  | uses used enters => exact enters.capacity ▸ count e'.pool ▸ enters.within (count e.pool ▸ within)
  | rests unused stays =>
    rw [stays.resident]
    exact within

/-- A page that a transaction has locked, and holds in a frame, is replaced and marked. Either it is
resident then as it is held, or there is no room for it. -/
theorem regains_or_refuses_of_markDirty (h : e.Sound)
    (within : e.pool.resident.length ≤ e.pool.capacity) {old : Page} (here : e.page? ref = some old)
    (id : page.id = old.id) (write : ref.permission = .readWrite)
    (held : e.locks.holds t page.id .exclusive = true)
    (clean : e.pool.frame? page.id ≠ some ref.frame → e.owner? page.id = none) (sound : page.Sound)
    (on_disk : ∃ stored, e.stored? page.id = some stored ∧ page.layout = stored.layout)
    {result : Except FileError Unit} (marked : (e.setPage ref page).markDirty t ref = (e', result)) :
    result = .ok () ∧ e.Regains e' t ref page ∨
      result = .error .poolFull ∧ e.Refuses e' t ref := by
  have at_frame : e.pool.frames[ref.frame]? = some old := here
  obtain ⟨inside, -⟩ := Array.getElem?_eq_some_iff.mp at_frame
  have put : (e.setPage ref page).pool.Sound :=
    h.pool.setFrame fun found at_i => by rw [id, Option.some.inj (at_frame.symm.trans at_i)]
  have fits := length_resident_of_markDirty put within t ref
  have marks : e.pool.Marks t ref page _ := Pool.marks_setFrame inside write
  rcases done : (e.pool.setFrame ref.frame page).markDirty t ref with ⟨pool, result'⟩
  have same : (e.setPage ref page).markDirty t ref = ({ e with pool }, result') := by
    rw [markDirty, setPage]
    simp only [done]
  rw [done] at marks
  rw [same] at fits marked
  obtain ⟨rfl, rfl⟩ := Prod.mk.inj marked
  cases result' with
  | ok _ =>
    have settles := marks.settles h.pool at_frame id
    have sound' := sound_of_settles settles sound on_disk h held
    refine .inl ⟨rfl, settles.resident, settles.here, ?listed, fits, ?dirty, ?committed⟩
    case listed => exact Pool.mem_dirtiedBy.mpr ((settles.noted t page.id).mpr (.inl ⟨rfl, rfl⟩))
    case dirty =>
      intro q u owner
      by_cases eq : q = page.id
      · -- the transaction has changed the page before, so the page has not left its frame
        subst eq
        refine ⟨settles.resident.trans ?_, fun ne => absurd rfl ne⟩
        by_contra moved
        cases (clean (Ne.symm moved)).symm.trans owner
      · rcases settles.others q eq with ⟨frame, same⟩ | ⟨-, old, here, clean⟩
        · exact ⟨frame, fun _ => same⟩
        · rw [owner?, here, Option.bind_some, clean] at owner
          cases owner
    case committed =>
      intro faults e'' hc
      have owner := owner?_of_settles settles page.id
      rw [if_pos rfl] at owner
      obtain ⟨stored, read, layout, agrees⟩ :=
        exists_stored_of_complete sound' settles.resident settles.here owner hc
      exact ⟨stored, read, layout, agrees.bits, agrees.rows⟩
  | error err =>
    cases marks with
    | refused gone full =>
      have apart : e.pool.frame? page.id ≠ some ref.frame := by simp [gone]
      have stays := e.pool.stays_marked t ref.frame page
      have unmoved : (e.pool.marked t ref.frame page).Detached ref.frame :=
        Pool.Detached.stays ⟨inside, fun _ _ => Pool.ne_of_apart h.pool at_frame id apart⟩ stays
      refine .inr ⟨congrArg _ (Pool.makeRoom_eq_error full), stays.resident,
        fun q => Pool.page?_marked_of_apart h.pool at_frame id apart, fun es unmarked faults other => ?_⟩
      -- the mark is set, but on a page that no id leads to any more
      have later := detached_foldl (Pool.sound_marked h.pool at_frame id) unmoved unmarked
      exact complete_setPage later.2 t true faults

end Engine

end RowStore
