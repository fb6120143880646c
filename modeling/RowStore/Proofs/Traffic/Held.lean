import RowStore.Proofs.Engine.Regaining
import RowStore.Proofs.Traffic.Rescan

/-! # Pages that transactions hold
A transaction that has fetched a page for writing may change it much later. While the others work, and the
transaction itself does nothing but read, the page stays in its frame as it was fetched (`Held`), but it
may leave memory, and another copy of it may come there. Main statement: `regains_or_refuses`, whatever has
become of the page in memory, a change of it is written by the next commit if the page can be marked, and
otherwise it makes no difference. -/

namespace RowStore

/-- A page that is on the disk stays there, with its layout. -/
theorem Engine.Extends.exists_stored {e e' : Engine} {p : PageId} {layout : Layout} (h : e.Extends e')
    (on_disk : ∃ stored, e.stored? p = some stored ∧ layout = stored.layout) :
    ∃ stored, e'.stored? p = some stored ∧ layout = stored.layout := by
  obtain ⟨stored, here, rfl⟩ := on_disk
  obtain ⟨-, -, -, f, found, layout, -⟩ := spec_of_stored? here
  obtain ⟨later, read⟩ := h.exists_readPage ⟨stored, toOption_eq_some.mp here⟩
  have there : e'.stored? p = some later := toOption_eq_some.mpr read
  obtain ⟨-, -, -, g, found', layout', -⟩ := spec_of_stored? there
  rw [h.catalog] at found'
  exact ⟨later, there, by rw [layout, layout', Option.some.inj (found.symm.trans found')]⟩

namespace Traffic

variable {first : Rows} {s s' : Traffic} {t : TxnId} {p : PageId} {mode : LockMode} {ev : TrafficEvent}
  {ref : PageRef} {page : Page}

section GoesOn

variable (h : s.Sound first) (goesOn : ∀ commit faults, ev ≠ .complete t commit faults)
  (hs : s.next? ev = some s')

include h goesOn hs

/-- A transaction keeps its locks for as long as it goes on. -/
theorem holds_next (held : s.engine.locks.holds t p mode = true) :
    s'.engine.locks.holds t p mode = true := by
  cases next_of_next? hs with
  | start => exact held
  | @step u call turn =>
    have stepped : s.engine.step u call = (_, _) := rfl
    obtain ⟨steps, -⟩ := Engine.steps_step h.engine (h.calls u call turn) stepped
    by_cases eq : t = u
    · subst eq
      exact steps.own held
    · exact (steps.others eq).trans held
  | @complete u commit faults _ =>
    have ne : t ≠ u := fun eq => goesOn commit faults (eq ▸ rfl)
    obtain ⟨written, torn?, completes, -⟩ := Engine.completes_complete h.engine rfl
    exact (completes.locks t p mode).trans ((if_neg ne).trans held)

/-- The pages that a transaction has changed stay in their frames for as long as it goes on. -/
theorem frame?_next (owner : s.engine.owner? p = some t) :
    s'.engine.pool.frame? p = s.engine.pool.frame? p := by
  cases next_of_next? hs with
  | start => rfl
  | step turn => exact Engine.frame?_of_step owner h.engine (h.calls _ _ turn)
  | @complete u commit faults _ =>
    have ne : t ≠ u := fun eq => goesOn commit faults (eq ▸ rfl)
    exact Engine.frame?_of_complete owner h.engine ne commit faults

end GoesOn

/-- What is so of a page that a transaction has fetched for writing while it does nothing but read: the page
is locked and stands in its frame as it was fetched. Only if the transaction had changed the page before,
it must still be resident there. -/
structure Held (t : TxnId) (ref : PageRef) (page : Page) (s : Traffic) : Prop where
  calls : ∀ c, s.calls.get? t = some c → c.reads = true
  locked : s.engine.locks.holds t page.id .exclusive = true
  here : s.engine.page? ref = some page
  resident : s.engine.owner? page.id = some t → s.engine.pool.frame? page.id = some ref.frame
  on_disk : ∃ stored, s.engine.stored? page.id = some stored ∧ page.layout = stored.layout

/-- The page is held when it has been fetched. -/
theorem held_of_fetched (h : s.Sound first) (asks : s.calls.get? t = some (.fetch p .readWrite))
    {e : Engine} (fetched : s.engine.getPage t p .readWrite = (e, .fetched ref)) :
    ∃ page, e.page? ref = some page ∧ page.id = p ∧ page.Sound ∧
      Held t ref page (s.advance t (.fetch p .readWrite)) := by
  obtain ⟨fetches, spec⟩ := Engine.fetches_getPage h.engine.toCoherent fetched
  obtain ⟨-, resident, locked⟩ := spec ref rfl
  obtain ⟨page, here, current, rfl⟩ := Engine.current?_of_fetched h.engine.toCoherent fetched
  obtain ⟨sound, on_disk⟩ := fetches.coherent.resident _ _ current
  have stepped : s.engine.step t (.fetch page.id .readWrite) = (e, .done (.ok (.fetched ref))) := by
    rw [Engine.step, Engine.withPage, fetched]
    simp only [here]
  have engine : (s.advance t (.fetch page.id .readWrite)).engine = e := by
    rw [engine_advance, stepped]
  refine ⟨page, here, rfl, sound, fun c turn => ?_, engine ▸ locked, engine ▸ here,
    fun _ => engine ▸ resident, engine ▸ on_disk⟩
  rw [calls_advance, stepped, follow, FinMap.get?_erase_self] at turn
  cases turn

/-- A page stays held. -/
theorem Held.next (held : Held t ref page s) (h : s.Sound first) (reads : ev.readsOnly t = true)
    (hs : s.next? ev = some s') : Held t ref page s' := by
  have goesOn := TrafficEvent.ne_complete_of_readsOnly reads
  have guards := guards_next_of_reads held.calls reads hs h (LockTable.holdsAny_of_holds held.locked)
  obtain ⟨log, calls⟩ := log_next_of_reads held.calls reads hs
  refine ⟨calls, holds_next h goesOn hs held.locked, guards.kept nofun ref.frame page held.here rfl,
    fun owner => ?_, (extends_next h hs).exists_stored held.on_disk⟩
  -- the transaction has changed nothing meanwhile, so the page is one that it had changed before
  rw [(h.next hs).kept, log, ← h.kept] at owner
  exact (frame?_next h goesOn hs owner).trans (held.resident owner)

/-- **No change is lost.** In any run a transaction fetches a page for writing, and then others fetch pages,
insert, delete and end, while the transaction itself at most reads. The page may still be in memory then,
or another copy of it without unwritten changes may, or none. Now the transaction edits the page that it
has fetched, and marks it. If this succeeds, the page is in memory as it has been edited, is marked and
noted for the transaction, no more pages are there than fit and none with unwritten changes has left, and
the next commit, if it goes through, writes the page as it is. Otherwise memory is full, the pages in it are
those that were there before, and whatever happens then, no commit of the transaction depends on the page
before it is marked successfully. -/
theorem regains_or_refuses {e : Engine} (fresh : e.Fresh) {es later : List TrafficEvent}
    (h : (quiet e).run es = some s) (asks : s.calls.get? t = some (.fetch p .readWrite)) {e₁ : Engine}
    (fetched : s.engine.getPage t p .readWrite = (e₁, .fetched ref))
    (reads : ∀ ev ∈ later, ev.readsOnly t = true) (hr : s.run (.step t :: later) = some s') :
    ∃ page, e₁.page? ref = some page ∧ page.id = p ∧ s'.engine.page? ref = some page ∧
      (s'.engine.pool.frame? p = some ref.frame ∨
        (∃ other, s'.engine.pool.page? p = some other ∧ other.dirtiedBy = none) ∨
        s'.engine.pool.frame? p = none) ∧
      ∀ edits, (∀ tuple, .insert tuple ∈ edits → tuple.values.length = tuple.schema.size) →
      ∀ e' result, (s'.engine.setPage ref (page.edits edits)).markDirty t ref = (e', result) →
        result = .ok () ∧ s'.engine.Regains e' t ref (page.edits edits) ∨
          result = .error .poolFull ∧ s'.engine.Refuses e' t ref := by
  have sound := Sound.run fresh h
  obtain ⟨page, got, rfl, well_formed, held⟩ := held_of_fetched sound asks fetched
  obtain ⟨mid, step, rest⟩ := runEvents_cons.mp hr
  obtain rfl : s.advance t (.fetch page.id .readWrite) = mid := by
    rw [next?, asks] at step
    exact Option.some.inj step
  obtain ⟨sound', held'⟩ := (sound.advance asks).run_induction
    (motive := fun _ s => Held t ref page s)
    (fun mem sound hs held => held.next sound (reads _ mem) hs) rest held
  -- whoever else had changed the page would hold its lock, so a copy in another frame has no changes
  have owner := sound'.engine.owner?_of_holds held'.locked
  have clean : s'.engine.pool.frame? page.id ≠ some ref.frame → s'.engine.owner? page.id = none :=
    fun moved => owner.resolve_right fun mine => moved (held'.resident mine)
  refine ⟨page, got, rfl, held'.here, ?_, fun edits complete e' result marked => ?_⟩
  · by_cases still : s'.engine.pool.frame? page.id = some ref.frame
    · exact .inl still
    · right
      cases there : s'.engine.pool.page? page.id with
      | none => exact .inr (sound'.engine.pool.page?_eq_none.mp there)
      | some other =>
        have unowned := clean still
        rw [Engine.owner?, there, Option.bind_some] at unowned
        exact .inl ⟨other, rfl, unowned⟩
  · obtain ⟨id, layout⟩ := page.spec_of_edits edits
    have write := (Engine.fetches_getPage sound.engine.toCoherent fetched).2 ref rfl
    have whole : (quiet e).run (es ++ .step t :: later) = some s' :=
      runEvents_append.trans (Option.bind_eq_some_iff.mpr ⟨s, h, hr⟩)
    have within := (keeps_run fresh whole).within (fresh.alone t).within
    exact Engine.regains_or_refuses_of_markDirty sound'.engine within held'.here id write.1
      (id.symm ▸ held'.locked) (id.symm ▸ clean) (well_formed.edits complete)
      (by rw [id, layout]; exact held'.on_disk) marked

/-- Three numbers are inserted and committed, the third one on a second page, and another transaction asks
for the first page to write to it. -/
def askingForFirst : List TrafficEvent :=
  inserting ⟨1⟩ 7 5 ++ [.complete ⟨1⟩ true ∅] ++ inserting ⟨2⟩ 8 4 ++ [.complete ⟨2⟩ true ∅]
    ++ inserting ⟨3⟩ 9 6
    ++ [.complete ⟨3⟩ true ∅, .start ⟨4⟩ (.fetch (numberPage 0) .readWrite)]

/-- Somebody else reads the second page. -/
def readingSecond : List TrafficEvent :=
  [.start ⟨5⟩ (.fetch (numberPage 1) .readOnly), .step ⟨5⟩]

/-- Somebody else deletes the number on the second page. -/
def deletingThird : List TrafficEvent :=
  .start ⟨5⟩ (.delete (some ⟨numberPage 1, 0⟩)) :: List.replicate 3 (.step ⟨5⟩)

/-- The first number is deleted from a page. -/
def deletingFirst : List Page.Edit := [.delete ⟨numberPage 0, 0⟩]

/-- The first number is deleted from the page that the transaction holds, which is marked then. -/
def markDeleted (e : Engine) (ref : PageRef) : Option (Engine × Except FileError Unit) :=
  (e.page? ref).map fun page => (e.setPage ref (page.edits deletingFirst)).markDirty ⟨4⟩ ref

/-- One page fits memory. When the second page has been read, the first one has left, comes back when it is
marked, and is written; when the second page has been changed, the first one cannot come back. -/
theorem regains_or_refuses_evicted : ∃ s e₁ ref page s₁ e₂ s₂ e₃,
    (quiet .sample).run askingForFirst = some s ∧
    s.engine.getPage ⟨4⟩ (numberPage 0) .readWrite = (e₁, .fetched ref) ∧
    e₁.page? ref = some page ∧ page.row? 0 = some [.int 7] ∧
    s.run (.step ⟨4⟩ :: readingSecond) = some s₁ ∧
    s₁.engine.pool.frame? (numberPage 0) = none ∧
    markDeleted s₁.engine ref = some (e₂, .ok ()) ∧
    s₁.engine.Regains e₂ ⟨4⟩ ref (page.edits deletingFirst) ∧
    (∃ stored, (e₂.complete ⟨4⟩ true).1.readPage (numberPage 0) = .ok stored ∧
      stored.row? 0 = none) ∧
    s.run (.step ⟨4⟩ :: deletingThird) = some s₂ ∧
    markDeleted s₂.engine ref = some (e₃, .error .poolFull) ∧
    s₂.engine.Refuses e₃ ⟨4⟩ ref := by
  have asking : ((quiet .sample).run askingForFirst).map (fun s => (s.calls.get? ⟨4⟩,
      (s.engine.getPage ⟨4⟩ (numberPage 0) .readWrite).2))
        = some (some (.fetch (numberPage 0) .readWrite), .fetched ⟨2, .readWrite⟩) := by
    decide +kernel
  have deleted : ((quiet .sample).run askingForFirst).bind (fun s =>
      ((s.engine.getPage ⟨4⟩ (numberPage 0) .readWrite).1.page? ⟨2, .readWrite⟩).map fun page =>
        (page.row? 0, (page.edits deletingFirst).row? 0)) = some (some [.int 7], none) := by
    decide +kernel
  have evicted : ((quiet .sample).run askingForFirst).map (fun s =>
      (s.run (.step ⟨4⟩ :: readingSecond)).map fun s => (s.engine.pool.frame? (numberPage 0),
        (markDeleted s.engine ⟨2, .readWrite⟩).map fun m => (m.2.isOk, (m.1.complete ⟨4⟩ true).2.isOk)))
          = some (some (none, some (true, true))) := by decide +kernel
  have crowded : ((quiet .sample).run askingForFirst).map (fun s =>
      (s.run (.step ⟨4⟩ :: deletingThird)).map fun s =>
        (markDeleted s.engine ⟨2, .readWrite⟩).map fun m => m.2.isOk) = some (some (some false)) := by
    decide +kernel
  obtain ⟨s, run, told⟩ := Option.map_eq_some_iff.mp asking
  rw [run, Option.bind_some] at deleted
  rw [run, Option.map_some, Option.some.injEq, Option.map_eq_some_iff] at evicted crowded
  obtain ⟨asks, fetched⟩ := Prod.mk.inj told
  obtain ⟨s₁, run₁, told₁⟩ := evicted
  obtain ⟨s₂, run₂, told₂⟩ := crowded
  obtain ⟨gone, told₁⟩ := Prod.mk.inj told₁
  obtain ⟨⟨e₂, result₂⟩, marked₁, told₁⟩ := Option.map_eq_some_iff.mp told₁
  obtain ⟨succeeded, committed⟩ := Prod.mk.inj told₁
  obtain ⟨⟨e₃, result₃⟩, marked₂, refused⟩ := Option.map_eq_some_iff.mp told₂
  have records : ∀ tuple, .insert tuple ∈ deletingFirst → tuple.values.length = tuple.schema.size := by
    simp [deletingFirst]
  obtain ⟨page, got, id, here₁, -, outcome₁⟩ := regains_or_refuses Engine.fresh_sample run asks
    (Prod.ext rfl fetched) (by simp [readingSecond, TrafficEvent.readsOnly]) run₁
  obtain ⟨page', got', -, here₂, -, outcome₂⟩ := regains_or_refuses Engine.fresh_sample run asks
    (Prod.ext rfl fetched) (by simp [deletingThird, TrafficEvent.readsOnly]) run₂
  obtain rfl := Option.some.inj (got.symm.trans got')
  rw [got, Option.map_some, Option.some.injEq] at deleted
  obtain ⟨before, after⟩ := Prod.mk.inj deleted
  have regained := marked₁
  have full := marked₂
  rw [markDeleted, here₁] at regained
  rw [markDeleted, here₂] at full
  rcases outcome₁ _ records _ _ (Option.some.inj regained) with ⟨rfl, regains⟩ | ⟨rfl, -⟩
  · rcases outcome₂ _ records _ _ (Option.some.inj full) with ⟨rfl, -⟩ | ⟨rfl, refuses⟩
    · cases refused
    · have ended : (e₂.complete ⟨4⟩ true).2 = .ok () := by
        cases result : (e₂.complete ⟨4⟩ true).2 with
        | ok _ => rfl
        | error err => simp [result, Except.isOk, Except.toBool] at committed
      obtain ⟨stored, read, -, agrees⟩ := regains.committed _ _ (Prod.ext rfl ended)
      rw [(page.spec_of_edits deletingFirst).1, id] at read
      exact ⟨s, _, _, page, s₁, e₂, s₂, e₃, run, Prod.ext rfl fetched, got, before, run₁, gone, marked₁,
        regains, ⟨stored, read, (congrFun agrees.rows 0).symm.trans after⟩, run₂, marked₂, refuses⟩
  · cases succeeded

end Traffic

end RowStore
