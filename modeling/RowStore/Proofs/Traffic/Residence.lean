import RowStore.Proofs.Traffic.Sound

/-! # Pages in memory
The pool marks pages that have unwritten changes and notes who has changed them, the lock table says who
may, and the disk has the pages as they were last written. Main statement: `pool_consistent`, all of this
fits together after every run. Who has unwritten changes of a page has begun and has not ended, because
changes are made by what a transaction is in the middle of, and its end leaves it none
(`Begun.next`). -/

namespace RowStore.Traffic

variable {es : List TrafficEvent} {ev : TrafficEvent} {first : Rows} {s s' : Traffic} {t : TxnId}

/-- A transaction has begun, and has not ended since. -/
def Running (es : List TrafficEvent) (t : TxnId) : Prop :=
  ∃ before call after, es = before ++ .start t call :: after ∧
    ∀ commit faults, .complete t commit faults ∉ after

/-- Who asks for something has begun. -/
theorem running_start (es : List TrafficEvent) (t : TxnId) (call : Call) :
    Running (es ++ [.start t call]) t :=
  ⟨es, call, [], rfl, fun _ _ => List.not_mem_nil⟩

/-- What is not the end of a transaction leaves it running. -/
theorem Running.snoc (h : Running es t) (goes : ∀ commit faults, ev ≠ .complete t commit faults) :
    Running (es ++ [ev]) t := by
  obtain ⟨before, call, after, rfl, open_⟩ := h
  refine ⟨before, call, after ++ [ev], by simp, fun commit faults mem => ?_⟩
  rcases List.mem_append.mp mem with old | last
  · exact open_ commit faults old
  · exact goes commit faults (List.mem_singleton.mp last).symm

/-- Whoever is in the middle of something, or has unwritten changes, is running. -/
structure Begun (es : List TrafficEvent) (s : Traffic) : Prop where
  calls : ∀ t call, s.calls.get? t = some call → Running es t
  owners : ∀ t p, s.engine.owner? p = some t → Running es t

namespace Begun

theorem quiet {e : Engine} (fresh : e.Fresh) : Begun [] (quiet e) where
  calls t call h := by simp [Traffic.quiet] at h
  owners t p h := by cases (fresh.owner?_eq_none p).symm.trans h

/-- A step is taken by who is running, and changes nothing for anybody else. -/
theorem advance (h : Begun es s) (sound : s.Sound first) {call : Call}
    (hc : s.calls.get? t = some call) : Begun (es ++ [.step t]) (s.advance t call) := by
  have goes : ∀ {u}, Running es u → Running (es ++ [.step t]) u := fun r => r.snoc (by simp)
  rcases hs : s.engine.step t call with ⟨e', progress⟩
  obtain ⟨steps, -⟩ := Engine.steps_step sound.engine (sound.calls t call hc) hs
  simp only [Traffic.advance, hs]
  refine ⟨fun u c hu => goes ?calls, fun u p mine => goes ?owners⟩
  case calls =>
    rcases get?_follow_cases hu with old | ⟨rfl, -⟩
    · exact h.calls u c old
    · exact h.calls u call hc
  case owners =>
    rw [steps.owner] at mine
    split at mine
    · exact Option.some.inj mine ▸ h.calls t call hc
    · exact h.owners u p mine

/-- The end of a transaction leaves it no unwritten changes, and the others theirs. -/
theorem finish (h : Begun es s) (sound : s.Sound first) (idle : s.calls.get? t = none) (commit : Bool)
    (faults : Faults) : Begun (es ++ [.complete t commit faults]) (s.finish t commit faults) := by
  have goes : ∀ {u}, u ≠ t → Running es u → Running (es ++ [.complete t commit faults]) u :=
    fun ne r => r.snoc fun _ _ eq => ne (TrafficEvent.complete.inj eq).1.symm
  rcases hc : s.engine.complete t commit faults with ⟨e', result⟩
  obtain ⟨written, torn?, completes, -, -⟩ := Engine.completes_complete sound.engine hc
  simp only [Traffic.finish, hc]
  refine ⟨fun u c hu => ?calls, fun u p mine => ?owners⟩
  case calls =>
    have ne : u ≠ t := by
      rintro rfl
      simp [idle] at hu
    exact goes ne (h.calls u c hu)
  case owners =>
    obtain ⟨ne, mine⟩ := completes.owner?_eq_some.mp mine
    exact goes ne (h.owners u p mine)

theorem next (h : Begun es s) (sound : s.Sound first) (hs : s.next? ev = some s') :
    Begun (es ++ [ev]) s' := by
  cases next_of_next? hs with
  | @start t call _ _ =>
    refine ⟨fun u c hu => ?_, fun u p mine => (h.owners u p mine).snoc (by simp)⟩
    rw [FinMap.get?_insert] at hu
    split at hu
    · next eq => exact eq ▸ running_start es t call
    · exact (h.calls u c hu).snoc (by simp)
  | step turn => exact h.advance sound turn
  | complete idle => exact h.finish sound idle _ _

theorem run {e : Engine} (fresh : e.Fresh) (h : (Traffic.quiet e).run es = some s) : Begun es s := by
  refine ((sound_quiet fresh).run_induction (motive := Begun) ?_ h (.quiet fresh)).2
  intro done mid last ev _ sound step begun
  exact begun.next sound step

end Begun

/-- **The pool is consistent.** After every run a resident page is clean, and then it has the bitmap and
the rows that are read from the disk; or it is dirty, and then it is so for one transaction, which is
running, holds the page's lock alone, and is the only one that is noted to have changed it. Conversely a
page that a transaction is noted to have changed is resident, and dirty for it. -/
theorem pool_consistent {e : Engine} (fresh : e.Fresh) {es : List TrafficEvent} {s : Traffic}
    (h : (quiet e).run es = some s) :
    (∀ p, s.engine.pool.isResident p = true → ∃ page, s.engine.pool.page? p = some page ∧
      ((page.dirtiedBy = none ∧ ∃ stored, s.engine.readPage p = .ok stored ∧ page.Agrees stored) ∨
        ∃ t, page.dirtiedBy = some t ∧ Running es t ∧ s.engine.locks.holds t p .exclusive = true ∧
          ∀ u, s.engine.pool.Noted u p ↔ u = t)) ∧
    ∀ t p, s.engine.pool.Noted t p →
      ∃ page, s.engine.pool.page? p = some page ∧ page.dirtiedBy = some t := by
  have engine := (Sound.run fresh h).engine
  refine ⟨fun p resident => ?resident, fun t p noted => ?noted⟩
  case resident =>
    obtain ⟨i, frame⟩ := Option.isSome_iff_exists.mp resident
    obtain ⟨page, at_i, -⟩ := engine.pool.exists_page frame
    have here : s.engine.pool.page? p = some page := Pool.page?_eq_some.mpr ⟨i, frame, at_i⟩
    refine ⟨page, here, ?_⟩
    have owner : s.engine.owner? p = page.dirtiedBy := by rw [Engine.owner?, here, Option.bind_some]
    cases dirty : page.dirtiedBy with
    | none =>
      obtain ⟨-, stored, on_disk, -⟩ := engine.resident p page here
      exact .inl ⟨rfl, stored, Engine.toOption_eq_some.mp on_disk,
        engine.clean p page stored here dirty on_disk⟩
    | some t =>
      rw [dirty] at owner
      refine .inr ⟨t, rfl, (Begun.run fresh h).owners t p owner, engine.locked t p owner, fun u => ?_⟩
      rw [engine.noted, owner, Option.some.injEq, eq_comm]
  case noted => exact Option.bind_eq_some_iff.mp ((engine.noted t p).mp noted)

/-- When one transaction has been committed its page is clean, and when another one inserts into it the
page is dirty for that one. -/
theorem pool_consistent_twoInsertions : ∃ s s' page stored page',
    (quiet .sample).run (inserting ⟨1⟩ 7 5 ++ [.complete ⟨1⟩ true ∅]) = some s ∧
    s.engine.pool.page? ⟨.file ["t"], 0⟩ = some page ∧ page.dirtiedBy = none ∧
    s.engine.readPage ⟨.file ["t"], 0⟩ = .ok stored ∧ page.Agrees stored ∧
    (quiet .sample).run
      (inserting ⟨1⟩ 7 5 ++ [.complete ⟨1⟩ true ∅] ++ inserting ⟨2⟩ 8 4) = some s' ∧
    s'.engine.pool.page? ⟨.file ["t"], 0⟩ = some page' ∧ page'.dirtiedBy = some ⟨2⟩ ∧
    s'.engine.locks.holds ⟨2⟩ ⟨.file ["t"], 0⟩ .exclusive = true := by
  have committed : ((quiet .sample).run (inserting ⟨1⟩ 7 5 ++ [.complete ⟨1⟩ true ∅])).map
      (fun s => (s.engine.pool.isResident ⟨.file ["t"], 0⟩, s.engine.owner? ⟨.file ["t"], 0⟩))
        = some (true, none) := by decide +kernel
  have inserted : ((quiet .sample).run
      (inserting ⟨1⟩ 7 5 ++ [.complete ⟨1⟩ true ∅] ++ inserting ⟨2⟩ 8 4)).map
        (fun s => (s.engine.pool.isResident ⟨.file ["t"], 0⟩, s.engine.owner? ⟨.file ["t"], 0⟩))
          = some (true, some ⟨2⟩) := by decide +kernel
  obtain ⟨s, run, told⟩ := Option.map_eq_some_iff.mp committed
  obtain ⟨s', run', told'⟩ := Option.map_eq_some_iff.mp inserted
  obtain ⟨resident, clean⟩ := Prod.mk.inj told
  obtain ⟨resident', dirty⟩ := Prod.mk.inj told'
  obtain ⟨page, here, fits⟩ := (pool_consistent Engine.fresh_sample run).1 _ resident
  obtain ⟨page', here', fits'⟩ := (pool_consistent Engine.fresh_sample run').1 _ resident'
  rw [Engine.owner?, here, Option.bind_some] at clean
  rw [Engine.owner?, here', Option.bind_some] at dirty
  rcases fits with ⟨-, stored, read, agrees⟩ | ⟨t, other, -⟩
  · rcases fits' with ⟨other, -⟩ | ⟨t, mine, -, alone, -⟩
    · exact absurd (other.symm.trans dirty) (by simp)
    · obtain rfl := Option.some.inj (mine.symm.trans dirty)
      exact ⟨s, s', page, stored, page', run, here, clean, read, agrees, run', here', dirty, alone⟩
  · exact absurd (other.symm.trans clean) (by simp)

end RowStore.Traffic
