import RowStore.Proofs.Engine.Opening
import RowStore.Proofs.Traffic.Steps

/-! # What the record says of the engine
The record of what transactions have been told fits the engine at any time (`Traffic.Sound`): a page with
unwritten changes is the page on the disk with the changes of one transaction, and the disk is what it was
at first with the changes of the committed transactions. Steps keep this (`Sound.advance`), and so do the
ends of transactions (`Sound.finish`). -/

namespace RowStore

namespace Traffic

/-- What holds at any time, if the rows on the disk were these at first. -/
structure Sound (first : Rows) (s : Traffic) : Prop where
  engine : s.engine.Sound
  calls : ∀ t c, s.calls.get? t = some c → c.Sound s.engine
  /-- What a transaction has changed are its unwritten changes. -/
  owned : ∀ t, ∀ c ∈ s.changes t, s.engine.owner? c.id.page = some t
  /-- A changed page is the page on the disk, with the changes. -/
  rows : ∀ t p slot, s.engine.owner? p = some t → s.engine.currentRow ⟨p, slot⟩
    = Rows.after s.engine.storedRow (s.changes t) ⟨p, slot⟩
  kept : ∀ t p, s.engine.owner? p = some t ↔ (s.log t).before.contains p = true
  /-- Before it was changed for the first time, a page was as it is on the disk. -/
  before : ∀ t p rows, (s.log t).before.get? p = some rows →
    ∀ slot, rows slot = s.engine.storedRow ⟨p, slot⟩
  /-- What is on the disk has been committed. -/
  history : s.failed = [] → s.engine.storedRow = Rows.after first s.history.flatten

theorem sound_quiet {e : Engine} (h : e.Fresh) : (quiet e).Sound e.storedRow where
  engine := h.sound
  calls t c hc := by simp [quiet] at hc
  owned t c mem := absurd mem List.not_mem_nil
  rows t p slot owner := by cases (h.owner?_eq_none p).symm.trans owner
  kept t p := by
    rw [show (quiet e).engine.owner? p = none from h.owner?_eq_none p]
    simp [quiet, log, FinMap.contains]
  before t p rows hr := by simp [quiet, log] at hr
  history _ := rfl

namespace Sound

variable {first : Rows} {s s' : Traffic} {t u : TxnId} {p : PageId}

/-- A page that nobody else has changed is the page on the disk, with the transaction's changes. -/
theorem currentRow_eq (h : s.Sound first)
    (owner : s.engine.owner? p = none ∨ s.engine.owner? p = some t) (slot : Nat) :
    s.engine.currentRow ⟨p, slot⟩ = Rows.after s.engine.storedRow (s.changes t) ⟨p, slot⟩ := by
  rcases owner with nobody | mine
  · rw [h.engine.currentRow_of_owner? nobody, Rows.after_of_not_mem]
    intro c mem eq
    have mine := h.owned t c mem
    rw [eq, nobody] at mine
    cases mine
  · exact h.rows t p slot mine

/-- A call that goes on stays sound, and so do those of the others. -/
theorem calls_follow (h : s.Sound first) {e' : Engine} {progress : Progress}
    (files : s.engine.Extends e') (next_sound : ∀ next, progress = .goesOn next → next.Sound e')
    (u : TxnId) (c : Call) (hc : (follow s.calls t progress).get? u = some c) : c.Sound e' := by
  rcases get?_follow_cases hc with old | ⟨-, eq⟩
  · exact (h.calls u c old).extends files
  · exact next_sound c eq

/-- A step that has changed nothing leaves the record as it is. -/
theorem advance_of_quiet (h : s.Sound first) (steps : s.engine.Steps s'.engine t none)
    (calls : ∀ u c, s'.calls.get? u = some c → c.Sound s'.engine) (log : ∀ u, s'.log u = s.log u)
    (history : s'.history = s.history) (failed : s'.failed = s.failed) : s'.Sound first := by
  have owner : ∀ p, s'.engine.owner? p = s.engine.owner? p := by
    intro p
    simp [steps.owner]
  refine ⟨steps.sound, calls, ?owned, ?rows, ?kept, ?before, ?history⟩
  case owned =>
    intro u c mem
    rw [changes, log] at mem
    rw [owner]
    exact h.owned u c mem
  case rows =>
    intro u p slot mine
    rw [owner] at mine
    rw [steps.current, steps.stored, changes, log]
    exact h.rows u p slot mine
  case kept =>
    intro u p
    rw [owner, log]
    exact h.kept u p
  case before =>
    intro u p rows hr slot
    rw [log] at hr
    rw [steps.stored]
    exact h.before u p rows hr slot
  case history =>
    intro ok
    rw [failed] at ok
    rw [steps.stored, history]
    exact h.history ok

section Noted

variable (h : s.Sound first) {c : Change} (steps : s.engine.Steps s'.engine t (some c))
  (log : ∀ u, s'.log u = if u = t then (s.log t).note c s.engine.currentRow else s.log u)

include steps

theorem owner?_of_steps (p : PageId) :
    s'.engine.owner? p = if p = c.id.page then some t else s.engine.owner? p := by
  rw [steps.owner]
  simp [eq_comm]

include h log

theorem owned_of_noted {d : Change} (mem : d ∈ s'.changes u) :
    s'.engine.owner? d.id.page = some u := by
  rw [owner?_of_steps steps]
  rw [changes, log] at mem
  by_cases here : d.id.page = c.id.page
  · rw [if_pos here]
    split at mem
    · next eq => rw [eq]
    · -- a change that somebody else has made is on another page
      have mine := h.owned u d mem
      rw [here] at mine
      rcases steps.free c rfl with nobody | taken
      · cases nobody.symm.trans mine
      · exact taken.symm.trans mine
  · rw [if_neg here]
    split at mem
    · next eq =>
      subst eq
      rcases List.mem_append.mp mem with old | new
      · exact h.owned u d old
      · exact absurd (congrArg (·.id.page) (List.mem_singleton.mp new)) here
    · exact h.owned u d mem

theorem rows_of_noted (mine : s'.engine.owner? p = some u) (slot : Nat) :
    s'.engine.currentRow ⟨p, slot⟩
      = Rows.after s'.engine.storedRow (s'.changes u) ⟨p, slot⟩ := by
  rw [steps.current, steps.stored, Option.toList_some, changes, log]
  rw [owner?_of_steps steps] at mine
  split at mine
  · next here =>
    -- up to now the page was the page on the disk with the changes made before
    obtain rfl := Option.some.inj mine
    rw [if_pos rfl, TxnLog.note, Rows.after_append]
    exact Rows.after_congr (h.currentRow_eq (here ▸ steps.free c rfl) slot)
  · next other =>
    -- the change is on another page, so it makes no difference here, whoever has made it
    have apart : ∀ d ∈ [c], d.id ≠ ⟨p, slot⟩ := by
      intro d mem eq
      obtain rfl := List.mem_singleton.mp mem
      exact other (congrArg RecordId.page eq).symm
    rw [Rows.after_of_not_mem apart, h.rows u p slot mine]
    split
    · next eq => rw [TxnLog.note, Rows.after_append, Rows.after_of_not_mem apart, eq, changes]
    · rfl

theorem kept_of_noted : s'.engine.owner? p = some u ↔ (s'.log u).before.contains p = true := by
  rw [owner?_of_steps steps, log]
  by_cases eq : u = t
  · rw [if_pos eq, eq, TxnLog.contains_before_note, ← h.kept]
    by_cases here : p = c.id.page
    · simp [here]
    · simp [here]
  · rw [if_neg eq, ← h.kept]
    by_cases here : p = c.id.page
    · -- `u` has not changed the page: only `t` may have done so
      rw [if_pos here, here]
      rcases steps.free c rfl with nobody | taken
      · simp [nobody, Ne.symm eq]
      · simp [taken]
    · rw [if_neg here]

theorem before_of_noted {rows : Nat → Option (List Value)}
    (hr : (s'.log u).before.get? p = some rows) (slot : Nat) :
    rows slot = s'.engine.storedRow ⟨p, slot⟩ := by
  rw [steps.stored]
  rw [log] at hr
  split at hr
  · next eq =>
    subst eq
    rcases TxnLog.get?_before_note hr with old | ⟨rfl, new, rfl⟩
    · exact h.before u p rows old slot
    · -- nobody has changed the page before, so it is still as it is on the disk
      have fresh : s.engine.owner? c.id.page ≠ some u := by
        rw [Ne, h.kept, new]
        simp
      exact h.engine.currentRow_of_owner? ((steps.free c rfl).resolve_right fresh) slot
  · exact h.before u p rows hr slot

/-- A step that has changed a row is noted in the record. -/
theorem advance_of_change (calls : ∀ u c, s'.calls.get? u = some c → c.Sound s'.engine)
    (history : s'.history = s.history) (failed : s'.failed = s.failed) : s'.Sound first where
  engine := steps.sound
  calls := calls
  owned _ _ mem := h.owned_of_noted steps log mem
  rows _ _ slot mine := h.rows_of_noted steps log mine slot
  kept _ _ := h.kept_of_noted steps log
  before _ _ _ hr := h.before_of_noted steps log hr
  history ok := by
    rw [failed] at ok
    rw [steps.stored, history]
    exact h.history ok

end Noted

/-- Every step keeps the record in accordance with the engine. -/
theorem advance (h : s.Sound first) {call : Call} (hc : s.calls.get? t = some call) :
    (s.advance t call).Sound first := by
  rcases hs : s.engine.step t call with ⟨e', progress⟩
  obtain ⟨steps, next_sound⟩ := Engine.steps_step h.engine (h.calls t call hc) hs
  have calls := h.calls_follow (t := t) steps.files next_sound
  simp only [Traffic.advance, hs]
  cases told : Change.of? call progress with
  | none => exact h.advance_of_quiet (told ▸ steps) calls (fun _ => rfl) rfl rfl
  | some c =>
    exact h.advance_of_change (told ▸ steps) (fun _ => FinMap.getD_insert ..) calls rfl rfl

/-- To commit a transaction is to make its changes on the disk. -/
theorem storedRow_of_committed (h : s.Sound first) {e' : Engine} {written : List PageId}
    {faults : Faults} (completes : s.engine.Completes e' t written none faults)
    (all : ∀ p, s.engine.owner? p = some t → p ∈ written) :
    e'.storedRow = Rows.after s.engine.storedRow (s.changes t) := by
  funext r
  rw [completes.stored r nofun]
  split
  · next mem => exact h.rows t r.page r.slot (completes.own r.page mem)
  · next out =>
    -- a page that was not written is one that the transaction has not changed
    rw [Rows.after_of_not_mem]
    intro c mem eq
    exact out (all _ (eq ▸ h.owned t c mem))

/-- A transaction that is over leaves the others their changes. -/
theorem ended (h : s.Sound first) {written : List PageId} {torn? : Option PageId} {faults : Faults}
    (completes : s.engine.Completes s'.engine t written torn? faults) (calls : s'.calls = s.calls)
    (log : ∀ u, s'.log u = if u = t then {} else s.log u)
    (history : s'.failed = [] → s'.engine.storedRow = Rows.after first s'.history.flatten) :
    s'.Sound first := by
  have other : ∀ {p u}, u ≠ t → s.engine.owner? p = some u → s.engine.owner? p ≠ some t :=
    fun ne mine eq => ne (Option.some.inj (mine.symm.trans eq))
  refine ⟨completes.sound, ?calls, ?owned, ?rows, ?kept, ?before, history⟩
  case calls =>
    intro u c hc
    rw [calls] at hc
    exact (h.calls u c hc).extends (.of_lengths completes.catalog completes.lengths)
  case owned =>
    intro u c mem
    rw [changes, log] at mem
    split at mem
    · cases mem
    · next ne => exact completes.owner?_eq_some.mpr ⟨ne, h.owned u c mem⟩
  case rows =>
    -- what belongs to another transaction is the same as before, in memory and on the disk
    intro u p slot mine
    obtain ⟨ne, mine⟩ := completes.owner?_eq_some.mp mine
    have stored := completes.storedRow_of_owner?_ne (other ne mine) slot
    rw [completes.current, if_neg (other ne mine), changes, log, if_neg ne, h.rows u p slot mine]
    exact (Rows.after_congr stored).symm
  case kept =>
    intro u p
    rw [log, completes.owner?_eq_some]
    split
    · next eq => exact ⟨fun mine => absurd eq mine.1, fun none => by cases none⟩
    · next ne => rw [← h.kept, and_iff_right ne]
  case before =>
    intro u p rows hr slot
    rw [log] at hr
    split at hr
    · cases hr
    · next ne =>
      have mine : s.engine.owner? p = some u := by rw [h.kept, FinMap.contains, hr]; rfl
      rw [completes.storedRow_of_owner?_ne (other ne mine)]
      exact h.before u p rows hr slot

/-- The end of a transaction keeps the record in accordance with the engine. -/
theorem finish (h : s.Sound first) (t : TxnId) (commit : Bool) (faults : Faults) :
    (s.finish t commit faults).Sound first := by
  rcases hc : s.engine.complete t commit faults with ⟨e', result⟩
  obtain ⟨written, torn?, completes, aborted, committed, whole⟩ := Engine.completes_complete h.engine hc
  simp only [Traffic.finish, hc]
  refine h.ended completes rfl (fun _ => FinMap.getD_erase ..) ?_
  intro ok
  cases result with
  | error err => cases ok
  | ok _ =>
    -- a commit adds the changes of the transaction to the history, an abort adds nothing
    have settled := h.history ok
    obtain rfl := whole rfl
    cases commit with
    | true =>
      rw [h.storedRow_of_committed completes (committed rfl rfl), settled, ← Rows.after_append]
      simp [Except.isOk, Except.toBool]
    | false =>
      have same : e'.storedRow = s.engine.storedRow := by
        funext r
        rw [completes.stored r nofun, (aborted rfl).1, if_neg List.not_mem_nil]
      rw [same, settled]
      rfl

/-- To begin with something changes nothing yet. -/
theorem start {c : Call} (h : s.Sound first) (hc : c.Sound s.engine) (t : TxnId) :
    ({ s with calls := s.calls.insert t c } : Traffic).Sound first := by
  refine ⟨h.engine, ?_, h.owned, h.rows, h.kept, h.before, h.history⟩
  intro u d hd
  rw [FinMap.get?_insert] at hd
  split at hd
  · exact Option.some.inj hd ▸ hc
  · exact h.calls u d hd

/-- Every event keeps the record in accordance with the engine. -/
theorem next (h : s.Sound first) {ev : TrafficEvent} (hs : s.next? ev = some s') :
    s'.Sound first := by
  cases next_of_next? hs with
  | start request _ => exact h.start (Call.sound_of_isRequest request) _
  | step turn => exact h.advance turn
  | complete _ => exact h.finish _ _ _

/-- What each event of a run keeps, of the events so far and the state they lead to, is kept by the run;
that the record is in accordance with the engine may be used for it. -/
theorem run_induction (h : s.Sound first) {motive : List TrafficEvent → Traffic → Prop}
    {es : List TrafficEvent} (step : ∀ {done : List TrafficEvent} {s s' : Traffic} {ev : TrafficEvent},
      ev ∈ es → s.Sound first → s.next? ev = some s' → motive done s → motive (done ++ [ev]) s')
    (hr : s.run es = some s') (base : motive [] s) : s'.Sound first ∧ motive es s' :=
  runEvents_history_induction (motive := fun done s => s.Sound first ∧ motive done s)
    (fun mem hs both => ⟨both.1.next hs, step mem both.1 hs both.2⟩) hr ⟨h, base⟩

/-- The record is in accordance with the engine after every run. -/
theorem run {e : Engine} (fresh : e.Fresh) {es : List TrafficEvent}
    (h : (quiet e).run es = some s) : s.Sound e.storedRow :=
  runEvents_induction (fun _ hs sound => sound.next hs) h (sound_quiet fresh)

end Sound

/-- A transaction inserts a number into the table of `Engine.sample`, in so many steps. -/
def inserting (t : TxnId) (n : Int32) (steps : Nat) : List TrafficEvent :=
  .start t (.insert numbers.id (numberRecord n))
    :: List.replicate steps (.step t)

end Traffic

end RowStore
