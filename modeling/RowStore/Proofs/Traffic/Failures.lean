import RowStore.Proofs.Engine.Layouts
import RowStore.Proofs.Engine.Sparing
import RowStore.Proofs.Traffic.Sound

/-! # Calls that fail
Any number of transactions work on one engine, and beside it an account is kept of each call: what has been
asked for, and the engine before and after each step that has been taken of it (`Ledger`). A step uses the
page that it fetches before anything else happens. Between two steps anything may happen to the pages, but
that tables are registered: they are edited by whoever has fetched them, written, dropped and read again,
locks are given up, and transactions end. All this keeps the pages in memory rooted (`endures_happen`).
Main statement: `failure_spares`, that no step of a call that fails has changed a page. -/

namespace RowStore

namespace Engine

variable {e e' : Engine} {p : PageId} {page : Page} {faults : Faults} {ref : PageRef} {ev : Event}
  {ps : List PageId}

/-! ## What may happen at any time -/

/-- Whether something is done to the pages or locks at once, by whoever works with them. A record that is
put into a page has a value for each of its columns. -/
def Event.isImmediate : Event → Bool
  | .edit _ (.insert t) => t.values.length = t.schema.size
  | .edit .. | .latch _ | .flushPage _ | .flushAll | .flushPagesOf .. | .complete .. | .discard _
  | .release .. => true
  | .openTable .. | .addTable .. | .step .. | .markDirty .. => false

theorem endures_writeBack {result : Except FileError Unit} (h : e.Rooted)
    (hw : e.writeBack p faults = (e', result)) : e.Endures e' := by
  cases writesBack_of_writeBack hw with
  | clean => exact .refl h
  | dirty here resident _ _ wrote =>
    have touches := h.touches here wrote
    exact ⟨rooted_written resident here (h.stored?_of_wrote here wrote) touches h,
      .of_lengths rfl touches.lengths⟩
  | failed here _ wrote =>
    have touches := h.touches here wrote
    exact ⟨h.touched touches, .of_lengths rfl touches.lengths⟩

theorem endures_writeBackAll (h : e.Rooted) (faults : Faults) (ps : List PageId) :
    e.Endures (e.writeBackAll faults ps).1 :=
  writeBackAll_induction (motive := e.Endures) (.refl h)
    (fun endured wrote => endured.trans (endures_writeBack endured.rooted wrote)) ps

theorem endures_flush (h : e.Rooted) (ps : List PageId) (faults : Faults) :
    e.Endures (e.flush ps faults).1 :=
  flush_fst (e := e) ps faults ▸ endures_writeBackAll h faults ps

theorem endures_drop (h : e.Rooted) (p : PageId) :
    e.Endures { e with pool := e.pool.drop p } := by
  refine .of_pages h rfl rfl (h.pool.drop p) fun q new here => ?_
  rw [Pool.page?_drop, Option.ite_none_left_eq_some] at here
  exact .inr ⟨new, here.2, rfl, id⟩

theorem endures_revertPage (h : e.Rooted) (faults : Faults) (p : PageId) :
    e.Endures (e.revertPage faults p) := by
  have pool : (e.revertPage faults p).pool.Sound := (refreshes_revertPage faults e p).sound h.pool
  rw [revertPage] at pool ⊢
  split
  · exact .refl h
  · next frame resident =>
    rw [resident] at pool
    split
    · next page granted read =>
      simp only [granted, read] at pool
      refine .of_pages h rfl rfl pool fun q new here => ?_
      rw [Pool.page?_setFrame h.pool resident] at here
      split at here
      · next eq =>
        obtain rfl := Option.some.inj here
        exact .inl (eq ▸ toOption_eq_some.mpr read)
      · exact .inr ⟨new, here, rfl, id⟩
    · exact endures_drop h p

theorem endures_complete (h : e.Rooted) (t : TxnId) (commit : Bool) (faults : Faults) :
    e.Endures (e.complete t commit faults).1 := by
  obtain ⟨e', endured, done⟩ := complete_induction (motive := e.Endures) (.refl h)
    (fun endured wrote => endured.trans (endures_writeBack endured.rooted wrote))
    (fun p endured => endured.trans (endures_revertPage endured.rooted faults p)) t commit
  rw [done]
  exact endured.trans (.of_pages endured.rooted rfl rfl (endured.rooted.pool.congr rfl rfl)
    fun _ new here => .inr ⟨new, here, rfl, id⟩)

/-- To edit a page leaves it well formed, wherever it stands. -/
theorem endures_edit (h : e.Rooted) {edit : Page.Edit} (here : e.page? ref = some page)
    (complete : ∀ t, edit = .insert t → t.values.length = t.schema.size) :
    e.Endures (e.setPage ref (page.edit edit)) := by
  obtain ⟨same, layout⟩ := page.spec_of_edit edit
  refine .of_pages h rfl rfl ((refreshes_setPage here same layout).sound h.pool) fun q new hq => ?_
  obtain ⟨frame, resident, at_frame⟩ := Pool.page?_eq_some.mp hq
  rw [setPage, Pool.setFrame, Array.getElem?_setIfInBounds] at at_frame
  split at at_frame
  · next eq =>
    rw [Option.ite_none_right_eq_some] at at_frame
    obtain rfl := Option.some.inj at_frame.2
    have records : ∀ t, .insert t ∈ [edit] → t.values.length = t.schema.size :=
      fun t mem => complete t (List.mem_singleton.mp mem).symm
    exact .inr ⟨page, Pool.page?_eq_some.mpr ⟨frame, resident, eq ▸ here⟩, layout,
      fun sound => sound.edits records⟩
  · exact .inr ⟨new, Pool.page?_eq_some.mpr ⟨frame, resident, at_frame⟩, rfl, id⟩

/-- Whatever is done to the pages at once, those in memory stay rooted. -/
theorem endures_happen (h : e.Rooted) (immediate : ev.isImmediate = true) :
    e.Endures (e.happen ev) := by
  cases ev with
  | openTable | addTable | step | markDirty => exact nomatch immediate
  | edit ref edit =>
    rw [happen]
    split
    · next page here =>
      refine endures_edit h here fun t eq => ?_
      subst eq
      exact of_decide_eq_true immediate
    · exact .refl h
  | latch frames =>
    exact .of_pages h rfl rfl (h.pool.congr rfl rfl) fun _ new here => .inr ⟨new, here, rfl, id⟩
  | flushPage p => exact endures_writeBackAll h ∅ [p]
  | flushAll => exact endures_flush h _ ∅
  | flushPagesOf t faults => exact endures_flush h _ faults
  | complete t commit faults => exact endures_complete h t commit faults
  | discard p => exact endures_drop h p
  | release t p => exact .of_pages h rfl rfl h.pool fun _ new here => .inr ⟨new, here, rfl, id⟩

end Engine

/-! ## The account of calls -/

/-- A call of a transaction, with the engine before and after each step that has been taken of it. -/
structure Attempt where
  request : Call
  /-- The next step to take. -/
  now : Call
  steps : List (Engine × Engine) := []

/-- A call that is over. -/
structure Closed extends Attempt where
  txn : TxnId
  result : Except FileError Reply

/-- An engine, the calls that are made of it, and those that are over. -/
structure Ledger where
  engine : Engine
  calls : FinMap TxnId Attempt
  closed : List Closed

/-- What happens among transactions. -/
inductive LedgerEvent where
  /-- A transaction asks for something. -/
  | start (t : TxnId) (call : Call)
  /-- A step is taken of what a transaction has asked for. -/
  | step (t : TxnId)
  /-- Something else is done to the engine. -/
  | other (ev : Engine.Event)

namespace Ledger

/-- An engine of which nothing has been asked yet. -/
def quiet (engine : Engine) : Ledger := ⟨engine, ∅, []⟩

/-- Takes a step of a call, and enters it into the account. -/
def advance (s : Ledger) (t : TxnId) (a : Attempt) : Ledger :=
  let (engine, progress) := s.engine.step t a.now
  let steps := a.steps ++ [(s.engine, engine)]
  match progress with
  | .done result =>
    { engine
      calls := s.calls.erase t
      closed := s.closed ++ [{ a with steps, txn := t, result }] }
  | .goesOn now => { s with engine, calls := s.calls.insert t { a with now, steps } }
  | .waits _ => { s with engine, calls := s.calls.insert t { a with steps } }

/-- What an event leads to; none if it cannot happen now. A transaction asks for one thing at a time. -/
def next? (s : Ledger) : LedgerEvent → Option Ledger
  | .start t call =>
    if call.isRequest && !s.calls.contains t then
      some { s with calls := s.calls.insert t { request := call, now := call } }
    else none
  | .step t => (s.calls.get? t).map (s.advance t)
  | .other ev => if ev.isImmediate then some { s with engine := s.engine.happen ev } else none

/-- What a list of events leads to. -/
def run (s : Ledger) (es : List LedgerEvent) : Option Ledger :=
  runEvents next? s es

/-- What holds at any time. -/
structure Sound (s : Ledger) : Prop where
  engine : s.engine.Rooted
  calls : ∀ t a, s.calls.get? t = some a →
    a.now.Sound s.engine ∧ ∀ x ∈ a.steps, x.1.Spares x.2 t
  closed : ∀ a ∈ s.closed, ∀ err, a.result = .error err → ∀ x ∈ a.steps, x.1.Spares x.2 a.txn

variable {s s' : Ledger} {t : TxnId}

theorem sound_quiet {e : Engine} (h : e.Fresh) : (quiet e).Sound where
  engine := h.sound.toCoherent.rooted
  calls t a ha := by simp [quiet] at ha
  closed a mem := by cases mem

namespace Sound

/-- What is done to the engine keeps the calls that are made of it. -/
theorem endures (h : s.Sound) {e' : Engine} (endured : s.engine.Endures e') :
    ({ s with engine := e' } : Ledger).Sound where
  engine := endured.rooted
  calls t a ha := (h.calls t a ha).imp_left fun sound => sound.extends endured.files
  closed := h.closed

/-- A call that is made, or goes on, is in the account together with those of the others. -/
theorem insert (h : s.Sound) {a : Attempt} (sound : a.now.Sound s.engine)
    (spares : ∀ x ∈ a.steps, x.1.Spares x.2 t) :
    ({ s with calls := s.calls.insert t a } : Ledger).Sound where
  engine := h.engine
  calls u b hb := by
    rw [FinMap.get?_insert] at hb
    split at hb
    · next eq =>
      rw [eq, ← Option.some.inj hb]
      exact ⟨sound, spares⟩
    · exact h.calls u b hb
  closed := h.closed

/-- A call that is over leaves the others in the account. -/
theorem close (h : s.Sound) {a : Closed}
    (spares : ∀ err, a.result = .error err → ∀ x ∈ a.steps, x.1.Spares x.2 a.txn) :
    ({ s with calls := s.calls.erase t, closed := s.closed ++ [a] } : Ledger).Sound where
  engine := h.engine
  calls u b hb := by
    rw [FinMap.get?_erase, Option.ite_none_left_eq_some] at hb
    exact h.calls u b hb.2
  closed b mem := by
    rcases List.mem_append.mp mem with old | new
    · exact h.closed b old
    · exact List.mem_singleton.mp new ▸ spares

/-- Every step keeps the account. -/
theorem advance (h : s.Sound) {a : Attempt} (ha : s.calls.get? t = some a) :
    (s.advance t a).Sound := by
  rcases hs : s.engine.step t a.now with ⟨e', progress⟩
  obtain ⟨sound, spared⟩ := h.calls t a ha
  have proceeds := Engine.proceeds_step h.engine sound hs
  have after := h.endures proceeds.toEndures
  -- a call that is not over yet has not succeeded, so the steps before this one are spared already
  have still : (∀ reply, progress ≠ .done (.ok reply)) →
      ∀ x ∈ a.steps ++ [(s.engine, e')], x.1.Spares x.2 t := by
    intro unfinished x mem
    rcases List.mem_append.mp mem with old | new
    · exact spared x old
    · rw [List.mem_singleton.mp new]
      exact proceeds.spares unfinished
  simp only [Ledger.advance, hs]
  cases progress with
  | done result =>
    refine after.close fun err failed => still ?_
    intro reply eq
    cases (Progress.done.inj eq).symm.trans failed
  | goesOn now => exact after.insert (proceeds.next now rfl) (still nofun)
  | waits p => exact after.insert (sound.extends proceeds.files) (still nofun)

/-- Every event keeps the account. -/
theorem next (h : s.Sound) {ev : LedgerEvent} (hs : s.next? ev = some s') : s'.Sound := by
  cases ev with
  | start t call =>
    rw [next?, Option.ite_none_right_eq_some, Bool.and_eq_true] at hs
    obtain ⟨⟨request, -⟩, eq⟩ := hs
    exact Option.some.inj eq ▸ h.insert (Call.sound_of_isRequest request) nofun
  | step t =>
    obtain ⟨a, turn, rfl⟩ := Option.map_eq_some_iff.mp hs
    exact h.advance turn
  | other ev =>
    rw [next?, Option.ite_none_right_eq_some] at hs
    exact Option.some.inj hs.2 ▸ h.endures (Engine.endures_happen h.engine hs.1)

end Sound

end Ledger

end RowStore
