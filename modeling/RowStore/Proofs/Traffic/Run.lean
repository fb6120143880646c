import RowStore.Engine.Call
import RowStore.Proofs.Engine.Fetch
import RowStore.Proofs.Run

/-! # Transactions at work
Any number of transactions work on one engine. Each asks for one thing at a time: a page, an insertion, a
deletion, or the next tuples of a scan. What it asks for is done in steps, between which those of the
others may come, and a step that meets a lock can be taken again at any time. A transaction with nothing
left to do may be committed or aborted, and the file system may refuse what is then asked of it. Beside
the engine a record is kept of what the transactions have been told: which rows each of them has changed,
and in which order they were committed. -/

namespace RowStore

/-- The values that are stored at each record id. -/
abbrev Rows := RecordId → Option (List Value)

/-- A record that has been inserted, or has been removed. -/
structure Change where
  id : RecordId
  /-- The values of the record; none if it has been removed. -/
  values? : Option (List Value)
  deriving DecidableEq

/-- What a step of a call has changed, according to the reply. -/
def Change.of? : Call → Progress → Option Change
  | .insertInto i, .done (.ok (.inserted id _)) => some ⟨id, some i.tuple.values⟩
  | .deleteAt id _, .done (.ok (.deleted _)) => some ⟨id, none⟩
  | _, _ => none

/-- A step that waits has changed nothing. -/
theorem Change.of?_waits (c : Call) (p : PageId) : Change.of? c (.waits p) = none := by
  cases c <;> rfl

/-- A step that goes on has changed nothing. -/
theorem Change.of?_goesOn (c next : Call) : Change.of? c (.goesOn next) = none := by
  cases c <;> rfl

/-- A call that has failed has changed nothing. -/
theorem Change.of?_error (c : Call) (err : FileError) :
    Change.of? c (.done (.error err)) = none := by
  cases c <;> rfl

/-- Rows after changes that are made one after another. -/
def Rows.after (rows : Rows) (changes : List Change) : Rows :=
  changes.foldl (fun rows c r => if r = c.id then c.values? else rows r) rows

namespace Rows

variable {rows rows' : Rows} {r : RecordId} {changes : List Change}

@[simp] theorem after_nil : rows.after [] = rows := rfl

theorem after_append (more : List Change) :
    rows.after (changes ++ more) = (rows.after changes).after more :=
  List.foldl_append

/-- A change makes a difference at its own record id. -/
theorem after_singleton (c : Change) :
    rows.after [c] r = if r = c.id then c.values? else rows r := rfl

/-- What a row is after changes depends on what this row was. -/
theorem after_congr (h : rows r = rows' r) : rows.after changes r = rows'.after changes r := by
  induction changes generalizing rows rows' with
  | nil => exact h
  | cons c changes ih =>
    apply ih
    dsimp only
    rw [h]

/-- A row that has not been changed is as before. -/
theorem after_of_not_mem (h : ∀ c ∈ changes, c.id ≠ r) : rows.after changes r = rows r := by
  induction changes generalizing rows with
  | nil => rfl
  | cons c changes ih =>
    have first : rows.after [c] r = rows r := if_neg (h c (.head _)).symm
    exact (ih fun d mem => h d (.tail _ mem)).trans first

end Rows

/-- Whether this is something that a transaction asks for. Other calls are places where these go on. A
record has a value for each of its columns. -/
def Call.isRequest : Call → Bool
  | .fetch .. | .delete _ | .advance _ => true
  | .insert _ tuple => tuple.values.length = tuple.schema.size
  | _ => false

/-- What a transaction has done so far. -/
structure TxnLog where
  /-- What it has changed, in the order in which it was told so. -/
  changes : List Change := []
  /-- The rows of each page that it has changed, as they were just before its first change. -/
  before : FinMap PageId (Nat → Option (List Value)) := ∅

/-- Notes a change of a page that has had these rows. -/
def TxnLog.note (l : TxnLog) (c : Change) (rows : Rows) : TxnLog :=
  { changes := l.changes ++ [c]
    before := if l.before.contains c.id.page then l.before
      else l.before.insert c.id.page fun slot => rows ⟨c.id.page, slot⟩ }

namespace TxnLog

variable {l : TxnLog} {c : Change} {rows : Rows} {p : PageId}

theorem contains_before_note : (l.note c rows).before.contains p = true ↔
    p = c.id.page ∨ l.before.contains p = true := by
  rw [note]
  split
  · next kept =>
    constructor
    · exact .inr
    · rintro (rfl | here)
      · exact kept
      · exact here
  · rw [FinMap.contains, FinMap.get?_insert]
    split
    · next eq => simp [eq]
    · next ne => simp [ne, FinMap.contains]

/-- The rows of a page are kept when it is changed for the first time. -/
theorem get?_before_note {old : Nat → Option (List Value)}
    (h : (l.note c rows).before.get? p = some old) : l.before.get? p = some old ∨
      p = c.id.page ∧ l.before.contains p = false ∧ old = fun slot => rows ⟨p, slot⟩ := by
  rw [note] at h
  split at h
  · exact .inl h
  · next first =>
    rw [FinMap.get?_insert] at h
    split at h
    · next eq =>
      subst eq
      exact .inr ⟨rfl, Bool.eq_false_iff.mpr first, (Option.some.inj h).symm⟩
    · exact .inl h

end TxnLog

/-- What happens among transactions. -/
inductive TrafficEvent where
  /-- A transaction asks for something. -/
  | start (t : TxnId) (call : Call)
  /-- A step is taken of what a transaction has asked for. -/
  | step (t : TxnId)
  /-- A transaction is committed or aborted. -/
  | complete (t : TxnId) (commit : Bool) (faults : Faults)

/-- An engine with the transactions that work on it. -/
structure Traffic where
  engine : Engine
  /-- What each transaction is in the middle of. -/
  calls : FinMap TxnId Call
  /-- What each transaction has done that is not over. -/
  logs : FinMap TxnId TxnLog
  /-- What the committed transactions had changed, in the order of their commits. -/
  history : List (List Change)
  /-- The transactions whose commits have failed. -/
  failed : List TxnId

namespace Traffic

/-- An engine that no transaction works on yet. -/
def quiet (engine : Engine) : Traffic := ⟨engine, ∅, ∅, [], []⟩

/-- What a transaction has done so far. -/
def log (s : Traffic) (t : TxnId) : TxnLog :=
  s.logs.getD t {}

/-- What a transaction has changed so far. -/
def changes (s : Traffic) (t : TxnId) : List Change :=
  (s.log t).changes

/-- Where a call is after a step of it. -/
def follow (calls : FinMap TxnId Call) (t : TxnId) : Progress → FinMap TxnId Call
  | .done _ => calls.erase t
  | .goesOn next => calls.insert t next
  | .waits _ => calls

/-- Takes a step of a call. -/
def advance (s : Traffic) (t : TxnId) (call : Call) : Traffic :=
  let (engine, progress) := s.engine.step t call
  { s with
    engine
    calls := follow s.calls t progress
    logs := match Change.of? call progress with
      | some c => s.logs.insert t ((s.log t).note c s.engine.currentRow)
      | none => s.logs }

theorem engine_advance (s : Traffic) (t : TxnId) (call : Call) :
    (s.advance t call).engine = (s.engine.step t call).1 := rfl

theorem calls_advance (s : Traffic) (t : TxnId) (call : Call) :
    (s.advance t call).calls = follow s.calls t (s.engine.step t call).2 := rfl

/-- What somebody is in the middle of after a step: it was so before, or the step has gone on to it. -/
theorem get?_follow_cases {calls : FinMap TxnId Call} {t u : TxnId} {progress : Progress} {c : Call}
    (h : (follow calls t progress).get? u = some c) :
    calls.get? u = some c ∨ u = t ∧ progress = .goesOn c := by
  cases progress with
  | done result =>
    rw [follow, FinMap.get?_erase, Option.ite_none_left_eq_some] at h
    exact .inl h.2
  | goesOn next =>
    rw [follow, FinMap.get?_insert] at h
    split at h
    · next eq => exact .inr ⟨eq, congrArg _ (Option.some.inj h)⟩
    · exact .inl h
  | waits p => exact .inl h

/-- What others do leaves a call where it is. -/
theorem get?_follow_of_ne {t u : TxnId} (ne : t ≠ u) (calls : FinMap TxnId Call) (progress : Progress) :
    (follow calls u progress).get? t = calls.get? t := by
  cases progress with
  | done result => exact FinMap.get?_erase_of_ne _ ne
  | goesOn next => exact FinMap.get?_insert_of_ne _ _ ne
  | waits p => rfl

/-- Ends a transaction. -/
def finish (s : Traffic) (t : TxnId) (commit : Bool) (faults : Faults) : Traffic :=
  let (engine, result) := s.engine.complete t commit faults
  { s with
    engine
    logs := s.logs.erase t
    history := if commit && result.isOk then s.history ++ [s.changes t] else s.history
    failed := if result.isOk then s.failed else t :: s.failed }

/-- What an event leads to; none if its transaction may not do this now. -/
def next? (s : Traffic) : TrafficEvent → Option Traffic
  | .start t call =>
    if call.isRequest && !s.calls.contains t then some { s with calls := s.calls.insert t call }
    else none
  | .step t => (s.calls.get? t).map (s.advance t)
  | .complete t commit faults =>
    if s.calls.contains t then none else some (s.finish t commit faults)

/-- What a list of events leads to. -/
def run (s : Traffic) (es : List TrafficEvent) : Option Traffic :=
  runEvents next? s es

/-- What events lead to, by their kinds. -/
inductive Next (s : Traffic) : TrafficEvent → Traffic → Prop
  /-- A request may be made by who is not in the middle of another. -/
  | start {t : TxnId} {call : Call} (request : call.isRequest = true)
      (idle : s.calls.get? t = none) :
    s.Next (.start t call) { s with calls := s.calls.insert t call }
  /-- A step may be taken by who is in the middle of something. -/
  | step {t : TxnId} {call : Call} (turn : s.calls.get? t = some call) :
    s.Next (.step t) (s.advance t call)
  /-- A transaction with nothing left to do may end. -/
  | complete {t : TxnId} {commit : Bool} {faults : Faults} (idle : s.calls.get? t = none) :
    s.Next (.complete t commit faults) (s.finish t commit faults)

/-- An event that can happen is one of these. -/
theorem next_of_next? {s s' : Traffic} {ev : TrafficEvent} (h : s.next? ev = some s') :
    s.Next ev s' := by
  cases ev with
  | start t call =>
    rw [next?, Option.ite_none_right_eq_some, Bool.and_eq_true] at h
    have idle : s.calls.get? t = none := by simpa [FinMap.contains] using h.1.2
    exact Option.some.inj h.2 ▸ .start h.1.1 idle
  | step t =>
    obtain ⟨call, turn, rfl⟩ := Option.map_eq_some_iff.mp h
    exact .step turn
  | complete t commit faults =>
    rw [next?, Option.ite_none_left_eq_some] at h
    have idle : s.calls.get? t = none := by simpa [FinMap.contains] using h.1
    exact Option.some.inj h.2 ▸ .complete idle

/-- What somebody is in the middle of after an event: it has been asked for, or was so before, or a step
has led to it. -/
theorem call_of_next {s s' : Traffic} {ev : TrafficEvent} {u : TxnId} {c : Call}
    (hs : s.next? ev = some s') (turn : s'.calls.get? u = some c) :
    ev = .start u c ∨ s.calls.get? u = some c ∨ ev = .step u ∧ ∃ c', s.calls.get? u = some c' ∧
      s.engine.step u c' = (s'.engine, .goesOn c) := by
  cases next_of_next? hs with
  | @start v call _ _ =>
    rw [FinMap.get?_insert] at turn
    split at turn
    · next eq =>
      rw [eq, Option.some.inj turn]
      exact .inl rfl
    · exact .inr (.inl turn)
  | @step v call at_v =>
    rcases get?_follow_cases turn with old | ⟨rfl, goes⟩
    · exact .inr (.inl old)
    · exact .inr (.inr ⟨rfl, call, at_v, Prod.ext rfl goes⟩)
  | complete => exact .inr (.inl turn)

end Traffic

end RowStore
