import RowStore.Proofs.Traffic.Sound

/-! # Isolation
A transaction that fetches a page gets the page on the disk with its own changes, and as long as it goes
on nobody else changes the page, in memory or on the disk. The second part is told from one event to the
next (`guards_next`), for a transaction that holds the page's lock. Main statement: `isolation`. -/

namespace RowStore.Traffic

variable {first : Rows} {s s' s'' : Traffic} {t u : TxnId} {p : PageId} {permission : Permission}
  {call : Call} {new more : List Change}

/-! ## What becomes of the record -/

theorem changes_advance (s : Traffic) (t u : TxnId) (call : Call) : (s.advance t call).changes u =
    if u = t then s.changes t ++ (Change.of? call (s.engine.step t call).2).toList
    else s.changes u := by
  rcases hs : s.engine.step t call with ⟨e', progress⟩
  simp only [changes, log, advance, hs]
  cases Change.of? call progress with
  | none =>
    dsimp only
    split
    · next eq => rw [eq, Option.toList_none, List.append_nil]
    · rfl
  | some c =>
    dsimp only
    rw [FinMap.getD_insert]
    split
    · rfl
    · rfl

theorem changes_finish_of_ne (commit : Bool) (faults : Faults) (ne : u ≠ t) :
    (s.finish t commit faults).changes u = s.changes u := by
  rw [changes, log, finish, FinMap.getD_erase, if_neg ne, changes, log]

/-- Who is in the middle of something after an event has not changed anything by it. -/
theorem changes_of_turn {ev : TrafficEvent} (hs : s.next? ev = some s')
    (turn : s'.calls.get? t = some call) : s'.changes t = s.changes t := by
  cases next_of_next? hs with
  | start => rfl
  | @step u c at_u =>
    rw [calls_advance] at turn
    rw [changes_advance]
    split
    · next eq =>
      subst eq
      cases progress : (s.engine.step t c).2 with
      | done result =>
        rw [progress, follow, FinMap.get?_erase_self] at turn
        cases turn
      | waits p => rw [Change.of?_waits, Option.toList_none, List.append_nil]
      | goesOn next => rw [Change.of?_goesOn, Option.toList_none, List.append_nil]
    · rfl
  | complete idle =>
    refine changes_finish_of_ne _ _ ?_
    rintro rfl
    cases idle.symm.trans turn

/-! ## A page that is locked -/

/-- What can become of a page while a transaction has locked it, and has made these changes. -/
structure Guards (t : TxnId) (p : PageId) (s s' : Traffic) (new : List Change) : Prop where
  held : s'.engine.locks.holdsAny t p = true
  changes : s'.changes t = s.changes t ++ new
  stored : ∀ slot, s'.engine.storedRow ⟨p, slot⟩ = s.engine.storedRow ⟨p, slot⟩
  current : ∀ slot, s'.engine.currentRow ⟨p, slot⟩
    = Rows.after s.engine.currentRow new ⟨p, slot⟩
  /-- A copy of the page stays as it is if the transaction does not change the page. -/
  kept : (∀ c ∈ new, c.id.page ≠ p) → ∀ (i : Nat) (page : Page),
    s.engine.pool.frames[i]? = some page → page.id = p → s'.engine.pool.frames[i]? = some page

theorem Guards.refl (held : s.engine.locks.holdsAny t p = true) : Guards t p s s [] where
  held := held
  changes := (List.append_nil _).symm
  stored _ := rfl
  current _ := rfl
  kept _ _ _ here _ := here

theorem Guards.trans (h : Guards t p s s' new) (h' : Guards t p s' s'' more) :
    Guards t p s s'' (new ++ more) where
  held := h'.held
  changes := by rw [h'.changes, h.changes, List.append_assoc]
  stored slot := (h'.stored slot).trans (h.stored slot)
  current slot := by
    rw [h'.current, Rows.after_append]
    exact Rows.after_congr (h.current slot)
  kept out i page here id :=
    h'.kept (fun c mem => out c (List.mem_append_right _ mem)) i page
      (h.kept (fun c mem => out c (List.mem_append_left _ mem)) i page here id) id

/-- Nobody else has unwritten changes of a page that is locked. -/
theorem Sound.owner?_of_holdsAny (h : s.Sound first)
    (held : s.engine.locks.holdsAny t p = true) :
    s.engine.owner? p = none ∨ s.engine.owner? p = some t :=
  h.engine.owner?_of_holds held

/-- No step changes a page that another transaction has locked. -/
theorem guards_advance (h : s.Sound first) (held : s.engine.locks.holdsAny t p = true)
    (hc : s.calls.get? u = some call) : ∃ new, Guards t p s (s.advance u call) new := by
  rcases hs : s.engine.step u call with ⟨e', progress⟩
  obtain ⟨steps, -⟩ := Engine.steps_step h.engine (h.calls u call hc) hs
  have engine : (s.advance u call).engine = e' := by rw [advance, hs]
  have changes := changes_advance s u t call
  rw [hs] at changes
  by_cases eq : t = u
  · subst eq
    rw [if_pos rfl] at changes
    refine ⟨_, engine ▸ steps.own held, changes, ?_, ?_, ?_⟩
    · intro slot
      rw [engine, steps.stored]
    · intro slot
      rw [engine, steps.current]
    · intro out i page here id
      rw [engine]
      apply steps.kept i page here
      intro mem
      obtain ⟨c, told, same⟩ := Option.map_eq_some_iff.mp mem
      exact out c (Option.mem_toList.mpr told) (same.trans id)
  · -- what somebody else has changed is locked by him alone, so it is another page
    rw [if_neg eq] at changes
    have held' : e'.locks.holdsAny t p = true := (steps.others eq).trans held
    have apart : ∀ c ∈ Change.of? call progress, c.id.page ≠ p := by
      rintro c told rfl
      have owner := steps.owner c.id.page
      have mem : c.id.page ∈ (Change.of? call progress).map (·.id.page) :=
        Option.map_eq_some_iff.mpr ⟨c, told, rfl⟩
      rw [if_pos mem] at owner
      exact eq (steps.sound.locks.alone (steps.sound.locked u _ owner) held')
    refine ⟨[], engine ▸ held', by rw [changes, List.append_nil], ?_, ?_, ?_⟩
    · intro slot
      rw [engine, steps.stored]
    · intro slot
      rw [engine, steps.current, Rows.after_nil, Rows.after_of_not_mem]
      intro c mem same
      exact apart c (Option.mem_toList.mp mem) (congrArg RecordId.page same)
    · intro _ i page here id
      rw [engine]
      apply steps.kept i page here
      intro mem
      obtain ⟨c, told, same⟩ := Option.map_eq_some_iff.mp mem
      exact apart c told (same.trans id)

/-- The end of a transaction changes no page that another has locked. -/
theorem guards_finish (h : s.Sound first) (held : s.engine.locks.holdsAny t p = true) (ne : t ≠ u)
    (commit : Bool) (faults : Faults) : Guards t p s (s.finish u commit faults) [] := by
  rcases hc : s.engine.complete u commit faults with ⟨e', result⟩
  obtain ⟨written, torn?, completes, -⟩ := Engine.completes_complete h.engine hc
  have engine : (s.finish u commit faults).engine = e' := by rw [finish, hc]
  have other : s.engine.owner? p ≠ some u := by
    intro owner
    rcases h.owner?_of_holdsAny held with nobody | mine
    · cases nobody.symm.trans owner
    · exact ne (Option.some.inj (mine.symm.trans owner))
  refine ⟨?_, ?_, ?_, ?_, ?_⟩
  · rw [engine, LockTable.holdsAny, completes.locks, if_neg ne]
    exact held
  · rw [changes_finish_of_ne commit faults ne, List.append_nil]
  · intro slot
    rw [engine, completes.storedRow_of_owner?_ne other]
  · intro slot
    rw [engine, completes.current, if_neg other, Rows.after_nil]
  · intro _ i page here id
    rw [engine]
    exact completes.kept i page here (id ▸ other)

/-- Nothing that happens changes a page that a transaction has locked, but its own changes. -/
theorem guards_next (h : s.Sound first) (held : s.engine.locks.holdsAny t p = true)
    {ev : TrafficEvent} (goesOn : ∀ commit faults, ev ≠ .complete t commit faults)
    (hs : s.next? ev = some s') : ∃ new, Guards t p s s' new := by
  cases next_of_next? hs with
  | start _ _ =>
    exact ⟨[], held, (List.append_nil _).symm, fun _ => rfl, fun _ => rfl, fun _ _ _ here _ => here⟩
  | step turn => exact guards_advance h held turn
  | @complete u commit faults _ =>
    have ne : t ≠ u := fun eq => goesOn commit faults (eq ▸ rfl)
    exact ⟨[], guards_finish h held ne commit faults⟩

/-- No run changes a page that a transaction has locked, but by its own changes, until it ends. -/
theorem guards_run (h : s.Sound first) (held : s.engine.locks.holdsAny t p = true)
    {es : List TrafficEvent} (goesOn : ∀ commit faults, .complete t commit faults ∉ es)
    (hr : s.run es = some s') : ∃ new, Guards t p s s' new := by
  refine (h.run_induction (motive := fun _ s' => ∃ new, Guards t p s s' new) ?_ hr
    ⟨[], .refl held⟩).2
  rintro done mid last ev mem sound step ⟨new, guards⟩
  have other : ∀ commit faults, ev ≠ .complete t commit faults :=
    fun commit faults eq => goesOn commit faults (eq ▸ mem)
  obtain ⟨more, next⟩ := guards_next sound guards.held other step
  exact ⟨_, guards.trans next⟩

/-- The step that fetches a page locks it, and may change it. -/
theorem guards_fetched (h : s.Sound first) (hc : s.calls.get? t = some call)
    (asks : call.asks? = some (p, permission)) {e' : Engine} {ref : PageRef}
    (fetched : s.engine.getPage t p permission = (e', .fetched ref)) :
    ∃ new, Guards t p { s with engine := e' } (s.advance t call) new := by
  rcases hs : s.engine.step t call with ⟨e'', progress⟩
  have sound := h.calls t call hc
  obtain ⟨fetches, spec⟩ := Engine.fetches_getPage h.engine.toCoherent fetched
  obtain ⟨-, -, held⟩ := spec ref rfl
  obtain ⟨steps, -⟩ := Engine.steps_step h.engine sound hs
  obtain ⟨page, here, rfl, uses⟩ := Engine.uses_of_step h.engine sound asks fetched hs
  have engine : (s.advance t call).engine = e'' := by rw [advance, hs]
  have changes := changes_advance s t t call
  rw [hs, if_pos rfl] at changes
  have stored : e'.storedRow = s.engine.storedRow :=
    Engine.storedRow_congr fetches.disk fetches.catalog
  refine ⟨_, ?_, changes, ?_, ?_, ?_⟩
  · -- the use of a page touches no locks, whether it changes the page or not
    rw [engine]
    cases uses with
    | quiet => exact LockTable.holdsAny_of_holds held
    | changes => exact LockTable.holdsAny_of_holds held
  · intro slot
    rw [engine, steps.stored, stored]
  · intro slot
    rw [engine, steps.current, fetches.current]
  · intro out
    rw [engine]
    cases uses with
    | quiet => exact fun _ _ here _ => here
    | @changes new reply change write told id => exact absurd id (out change (by simp [told]))

/-- **Isolation.** Whenever a transaction fetches a page, in any run, it gets the page as it is on the
disk, with the transaction's own changes and no others. From then until the transaction ends, the page on
the disk stays as it is, the page in memory changes only by what the transaction is told to have
changed, and the copy that it has got stays as it is if it does not change the page. -/
theorem isolation {e : Engine} (fresh : e.Fresh) {es : List TrafficEvent}
    (h : (quiet e).run es = some s) {e' : Engine} {ref : PageRef}
    (fetched : s.engine.getPage t p permission = (e', .fetched ref)) :
    ∃ page, e'.page? ref = some page ∧
      (∀ slot, page.row? slot = Rows.after s.engine.storedRow (s.changes t) ⟨p, slot⟩) ∧
      ∀ call, s.calls.get? t = some call → call.asks? = some (p, permission) →
      ∀ es' s', s.run (.step t :: es') = some s' →
        (∀ commit faults, .complete t commit faults ∉ es') →
        ∃ new, s'.changes t = s.changes t ++ new ∧
          (∀ slot, s'.engine.storedRow ⟨p, slot⟩ = s.engine.storedRow ⟨p, slot⟩) ∧
          (∀ slot, s'.engine.currentRow ⟨p, slot⟩
            = Rows.after (fun r => page.row? r.slot) new ⟨p, slot⟩) ∧
          ((∀ c ∈ new, c.id.page ≠ p) → s'.engine.page? ref = some page) := by
  have sound := Sound.run fresh h
  obtain ⟨fetches, spec⟩ := Engine.fetches_getPage sound.engine.toCoherent fetched
  obtain ⟨-, -, held⟩ := spec ref rfl
  obtain ⟨page, here, current, id⟩ := Engine.current?_of_fetched sound.engine.toCoherent fetched
  have rows : ∀ slot, page.row? slot = e'.currentRow ⟨p, slot⟩ := by
    intro slot
    rw [Engine.currentRow, Engine.current?_of_resident current, Option.bind_some]
  have owner := (fetches.sound sound.engine).owner?_of_holds held
  rw [fetches.owner] at owner
  refine ⟨page, here, ?_, ?_⟩
  · intro slot
    rw [rows, fetches.current, sound.currentRow_eq owner]
  · intro call hc asks es' s' hr goesOn
    -- the page is guarded by the step that fetches it, and by every event after that
    obtain ⟨mid, step, rest⟩ := runEvents_cons.mp hr
    obtain rfl : s.advance t call = mid := by
      rw [next?, hc] at step
      exact Option.some.inj step
    obtain ⟨first, guards⟩ := guards_fetched sound hc asks fetched
    obtain ⟨more, later⟩ := guards_run (sound.advance hc) guards.held goesOn rest
    have whole := guards.trans later
    refine ⟨_, whole.changes, ?_, ?_, ?_⟩
    · intro slot
      rw [whole.stored]
      exact congrFun (Engine.storedRow_congr fetches.disk fetches.catalog) _
    · intro slot
      rw [whole.current]
      exact Rows.after_congr (rows slot).symm
    · intro out
      exact whole.kept out ref.frame page here id

/-- One transaction has been committed, and another one has made a change and asks for the page again. -/
def readingAgain : List TrafficEvent :=
  inserting ⟨1⟩ 7 5 ++ [.complete ⟨1⟩ true ∅] ++ inserting ⟨2⟩ 8 4
    ++ [.start ⟨2⟩ (.fetch ⟨.file ["t"], 0⟩ .readOnly)]

/-- After `readingAgain` the second transaction gets the row that has been committed and its own, and
nothing changes that while a third one tries to insert. -/
theorem isolation_readingAgain : ∃ s e' ref page s', (quiet .sample).run readingAgain = some s ∧
    s.engine.getPage ⟨2⟩ ⟨.file ["t"], 0⟩ .readOnly = (e', .fetched ref) ∧
    e'.page? ref = some page ∧ page.row? 0 = some [.int 7] ∧ page.row? 1 = some [.int 8] ∧
    s.run (.step ⟨2⟩ :: inserting ⟨3⟩ 9 4) = some s' ∧ s'.engine.page? ref = some page := by
  have ran : ((quiet .sample).run readingAgain).map (fun s =>
      ((s.engine.getPage ⟨2⟩ ⟨.file ["t"], 0⟩ .readOnly).2,
      Rows.after s.engine.storedRow (s.changes ⟨2⟩) ⟨⟨.file ["t"], 0⟩, 0⟩,
      Rows.after s.engine.storedRow (s.changes ⟨2⟩) ⟨⟨.file ["t"], 0⟩, 1⟩))
        = some (.fetched ⟨0, .readOnly⟩, some [.int 7], some [.int 8]) := by decide +kernel
  have going : ((quiet .sample).run readingAgain).map (fun s =>
      (s.calls.get? ⟨2⟩, (s.changes ⟨2⟩).length,
      (s.run (.step ⟨2⟩ :: inserting ⟨3⟩ 9 4)).map fun s => (s.changes ⟨2⟩).length))
        = some (some (.fetch ⟨.file ["t"], 0⟩ .readOnly), 1, some 1) := by decide +kernel
  obtain ⟨s, run, told⟩ := Option.map_eq_some_iff.mp ran
  rw [run, Option.map_some, Option.some.injEq] at going
  simp only [Prod.mk.injEq, Option.map_eq_some_iff] at told going
  obtain ⟨fetched, committed, own⟩ := told
  obtain ⟨call, changed, s', later, unchanged⟩ := going
  obtain ⟨page, here, rows, rest⟩ := isolation Engine.fresh_sample run (Prod.ext rfl fetched)
  obtain ⟨new, grown, -, -, kept⟩ := rest _ call rfl _ s' later (by simp [inserting])
  have nothing : new = [] := by
    rw [grown, List.length_append, changed] at unchanged
    exact List.eq_nil_of_length_eq_zero (by omega)
  exact ⟨s, _, _, page, s', run, Prod.ext rfl fetched, here, (rows 0).trans committed,
    (rows 1).trans own, later, kept (by simp [nothing])⟩

end RowStore.Traffic
