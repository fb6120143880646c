import RowStore.Proofs.Scan.Alias
import RowStore.Proofs.Scan.Seeking

/-! # Scans that are interrupted
A step of a scan may fail, because the page that it needs cannot be fetched, or wait. Whatever others do
meanwhile, as long as they leave the rows that the table shows, the scan stays before the rows that it has
not yielded yet (`ScanStage`). So it recounts its table (`Recounts`), and what it yields across all
failures and waits are the rows in their order (`Yields`). Main statement: `interrupted_exact`. -/

namespace RowStore

/-! ## What scans answer -/

namespace ScanAsk

/-- The rows before a scan when something that is asked of it begins. -/
def before (all rest : List PlacedRow) : ScanAsk → List PlacedRow
  | rewind => all
  | hasNext | next => rest

/-- What is answered by a scan with these rows before it, and the rows that are left then. A failure
leaves all of them. -/
inductive Answered : ScanAsk → List PlacedRow → Except Failure Outcome → List PlacedRow → Prop
  | failed {a : ScanAsk} {rest : List PlacedRow} {err : FileError} (kind : err ≠ .noSuchElement) :
    Answered a rest (.error (.file err)) rest
  | opened {rest : List PlacedRow} : Answered .rewind rest (.ok .done) rest
  | told {rest : List PlacedRow} : Answered .hasNext rest (.ok (.truth (!rest.isEmpty))) rest
  | yielded {row : PlacedRow} {rest : List PlacedRow} {tuple : Tuple} (same : tuple.row = row.told) :
    Answered .next (row :: rest) (.ok (.tuple tuple)) rest
  | nothing : Answered .next [] (.error (.file .noSuchElement)) []

end ScanAsk

/-- The answers of a scan with these rows before it, of all the rows of a table, to moves one after
another; `waiting?` is what was asked of it last, if that waits. -/
inductive Recounts (all : List PlacedRow) :
    Option ScanAsk → List PlacedRow → List ScanMove → List (Except Failure Outcome) → Prop
  | stop {waiting? : Option ScanAsk} {rest : List PlacedRow} : Recounts all waiting? rest [] []
  | answered {a : ScanAsk} {rest left : List PlacedRow} {answer : Except Failure Outcome}
      {moves : List ScanMove} {answers : List (Except Failure Outcome)}
      (answered : a.Answered (a.before all rest) answer left)
      (later : Recounts all none left moves answers) :
    Recounts all none rest (.ask a :: moves) (answer :: answers)
  | blocked {a : ScanAsk} {rest : List PlacedRow} {moves : List ScanMove}
      {answers : List (Except Failure Outcome)}
      (later : Recounts all (some a) (a.before all rest) moves answers) :
    Recounts all none rest (.ask a :: moves) (.ok .blocked :: answers)
  | refused {a b : ScanAsk} {rest : List PlacedRow} {moves : List ScanMove}
      {answers : List (Except Failure Outcome)} (later : Recounts all (some a) rest moves answers) :
    Recounts all (some a) rest (.ask b :: moves) (.error (.refused .busy) :: answers)
  | closed {rest : List PlacedRow} {moves : List ScanMove} {answers : List (Except Failure Outcome)}
      (later : Recounts all none [] moves answers) :
    Recounts all none rest (.close :: moves) (.ok .done :: answers)
  | inUse {a : ScanAsk} {rest : List PlacedRow} {moves : List ScanMove}
      {answers : List (Except Failure Outcome)} (later : Recounts all (some a) rest moves answers) :
    Recounts all (some a) rest (.close :: moves) (.error (.refused .busy) :: answers)
  | others {waiting? : Option ScanAsk} {rest : List PlacedRow} {work : Engine → Engine}
      {moves : List ScanMove} {answers : List (Except Failure Outcome)}
      (later : Recounts all waiting? rest moves answers) :
    Recounts all waiting? rest (.others work :: moves) answers
  | asleep {waiting? : Option ScanAsk} {rest : List PlacedRow} {moves : List ScanMove}
      {answers : List (Except Failure Outcome)} (later : Recounts all waiting? rest moves answers) :
    Recounts all waiting? rest (.wake :: moves) answers
  | woken {a : ScanAsk} {rest left : List PlacedRow} {answer : Except Failure Outcome}
      {moves : List ScanMove} {answers : List (Except Failure Outcome)}
      (answered : a.Answered rest answer left) (later : Recounts all none left moves answers) :
    Recounts all (some a) rest (.wake :: moves) (answer :: answers)

/-- The row that an answer yields, if it yields any. -/
def yielded? : Except Failure Outcome → Option (Option RecordId × List Value)
  | .ok (.tuple t) => some t.row
  | _ => none

/-- Whether an answer tells that no row is left. -/
def TellsEnd (answer : Except Failure Outcome) : Prop :=
  answer = .ok (.truth false) ∨ answer = .error (.file .noSuchElement)

/-- Whether a move lets a scan go on from where it is. -/
def ScanMove.GoesOn (m : ScanMove) : Prop :=
  m ≠ .ask .rewind ∧ m ≠ .close

theorem ScanMove.GoesOn.before {a : ScanAsk} (h : (ScanMove.ask a).GoesOn) (all rest : List PlacedRow) :
    a.before all rest = rest := by
  cases a with
  | rewind => exact absurd rfl h.1
  | hasNext | next => rfl

/-- What one answer yields is taken from the rows that were left, and nothing is left at the end. -/
theorem ScanAsk.Answered.yields {a : ScanAsk} {rest left : List PlacedRow}
    {answer : Except Failure Outcome} (h : a.Answered rest answer left) :
    (yielded? answer).toList ++ left.map PlacedRow.told = rest.map PlacedRow.told ∧
      (TellsEnd answer → rest = []) := by
  cases h with
  | failed kind =>
    refine ⟨rfl, ?_⟩
    rintro (eq | eq)
    · cases eq
    · cases eq
      exact absurd rfl kind
  | opened => exact ⟨rfl, by rintro (eq | eq) <;> cases eq⟩
  | @told rest =>
    refine ⟨rfl, ?_⟩
    rintro (eq | eq)
    · cases rest with
      | nil => rfl
      | cons row rest => cases eq
    · cases eq
  | yielded same =>
    refine ⟨?_, by rintro (eq | eq) <;> cases eq⟩
    rw [yielded?, same]
    rfl
  | nothing => exact ⟨rfl, fun _ => rfl⟩

/-- Whether answers yield these rows in their order, and all of them by the time that the end is told. -/
structure Yields (rest : List PlacedRow) (answers : List (Except Failure Outcome)) : Prop where
  begins : answers.filterMap yielded? <+: rest.map PlacedRow.told
  complete : (∃ answer ∈ answers, TellsEnd answer) →
    answers.filterMap yielded? = rest.map PlacedRow.told

namespace Yields

variable {rest left : List PlacedRow} {answer : Except Failure Outcome}
  {answers : List (Except Failure Outcome)}

theorem nil : Yields rest [] :=
  ⟨List.nil_prefix, by simp⟩

theorem silent (h : Yields rest answers) (row : yielded? answer = none) (more : ¬ TellsEnd answer) :
    Yields rest (answer :: answers) := by
  constructor
  · rw [List.filterMap_cons_none row]
    exact h.begins
  · rintro ⟨last, mem, ended⟩
    rw [List.filterMap_cons_none row]
    rcases List.mem_cons.mp mem with rfl | mem
    · exact absurd ended more
    · exact h.complete ⟨last, mem, ended⟩

theorem answered {a : ScanAsk} (h : Yields left answers) (told : a.Answered rest answer left) :
    Yields rest (answer :: answers) := by
  obtain ⟨first, ended⟩ := told.yields
  have all : (answer :: answers).filterMap yielded?
      = (yielded? answer).toList ++ answers.filterMap yielded? := by
    rw [List.filterMap_cons]
    cases yielded? answer <;> rfl
  constructor
  · rw [all, ← first]
    exact (List.prefix_append_right_inj _).mpr h.begins
  · rintro ⟨last, mem, tells⟩
    rcases List.mem_cons.mp mem with rfl | mem
    · -- nothing was left, so that nothing is yielded any more
      have nothing := ended tells
      subst nothing
      have none_left := List.append_eq_nil_iff.mp first
      have begins := h.begins
      rw [none_left.2, List.prefix_nil] at begins
      rw [all, none_left.1, begins]
      rfl
    · rw [all, h.complete ⟨last, mem, tells⟩, first]

end Yields

/-- Moves that let a scan go on yield the rows before it. -/
theorem Recounts.yields {all rest : List PlacedRow} {waiting? : Option ScanAsk} {moves : List ScanMove}
    {answers : List (Except Failure Outcome)} (h : Recounts all waiting? rest moves answers)
    (onwards : ∀ m ∈ moves, m.GoesOn) : Yields rest answers := by
  induction h with
  | stop => exact .nil
  | others later ih | asleep later ih => exact ih fun m mem => onwards m (.tail _ mem)
  | refused later ih =>
    exact (ih fun m mem => onwards m (.tail _ mem)).silent rfl (by rintro (eq | eq) <;> cases eq)
  | woken answered later ih => exact (ih fun m mem => onwards m (.tail _ mem)).answered answered
  | closed later ih | inUse later ih => exact absurd rfl (onwards _ (.head _)).2
  | blocked later ih =>
    rw [(onwards _ (.head _)).before] at ih
    exact (ih fun m mem => onwards m (.tail _ mem)).silent rfl (by rintro (eq | eq) <;> cases eq)
  | answered answered later ih =>
    rw [(onwards _ (.head _)).before] at answered
    exact (ih fun m mem => onwards m (.tail _ mem)).answered answered

namespace Session

variable {s : Session} {label name : String} {k : Nat} {t : TxnId} {f : HeapFile} {base : Engine}
  {waiting? : Option ScanAsk} {rest : List PlacedRow} {c : Cursor}

/-! ## What a session keeps -/

/-- Where a scan of a file stands in a session: it can be used, with these rows left, or what was asked
of it waits, with these rows before it. -/
inductive ScanStage (base : Engine) (s : Session) (label name : String) (k : Nat) (t : TxnId)
    (f : HeapFile) : Option ScanAsk → List PlacedRow → Prop
  | idle {c : Cursor} {rest : List PlacedRow} (nothing : s.waiting = [])
      (found : s.scans.get? name = some ⟨k, t, ⟨c, none⟩⟩) (file : c.file = f)
      (left : c.left base = rest.map PlacedRow.told) : ScanStage base s label name k t f none rest
  | waiting {o : TaskOwner} {call : Call} {c : Cursor} {a : ScanAsk} {toGo : Nat} {p : PageId}
      {used : OwnedScan} {rest : List PlacedRow} (own : o.label = label) (reads : o.txn = t)
      (seeks : base.Seeks f (rest.map PlacedRow.told) toGo call)
      (found : s.scans.get? name = some used) (made : used.madeAt = k)
      (queued : s.waiting = [⟨⟨o, call, .scan name ⟨k, t, ⟨c, none⟩⟩ a.aim⟩, p⟩]) :
    ScanStage base s label name k t f (some a) rest

/-- What a session keeps of a scan, across failures and waits. -/
structure Follows (base : Engine) (s : Session) (label name : String) (k : Nat) (t : TxnId)
    (f : HeapFile) (waiting? : Option ScanAsk) (rest : List PlacedRow) : Prop where
  shows : base.Shows s.engine t f
  named : ∃ u, s.labels.get? label = some u
  stage : ScanStage base s label name k t f waiting? rest

/-- The record that a cursor yields when it has looked for records. -/
theorem take_answered (file : c.file = f) (left : c.left base = rest.map PlacedRow.told)
    (ready : ∀ n, c.position? = some ⟨n, []⟩ → rest.map PlacedRow.told = []) :
    ∃ c' result after, (⟨c, none⟩ : Scan).take = (⟨c', none⟩, result) ∧
      ScanAsk.next.Answered rest ((result.map Outcome.tuple).mapError Failure.file) after ∧
      c'.file = f ∧ c'.left base = after.map PlacedRow.told := by
  subst file
  obtain ⟨file, position?⟩ := c
  match position? with
  | none =>
    obtain rfl : rest = [] := List.map_eq_nil_iff.mp left.symm
    exact ⟨_, _, [], rfl, .nothing, rfl, rfl⟩
  | some ⟨n, []⟩ =>
    obtain rfl : rest = [] := List.map_eq_nil_iff.mp (ready n rfl)
    exact ⟨_, _, [], rfl, .nothing, rfl, left⟩
  | some ⟨n, tuple :: tuples⟩ =>
    cases rest with
    | nil => exact nomatch left
    | cons row rest =>
      obtain ⟨first, others⟩ := List.cons.inj left
      exact ⟨⟨file, some ⟨n, tuples⟩⟩, _, rest, rfl, .yielded first, rfl, others⟩

/-- What a search for records ends with is answered, and the scan is put back before the rows that are
left. -/
theorem settle_stops (o : TaskOwner) (call : Call) (c : Cursor) (a : ScanAsk) {last : Call}
    {result : Except FileError Reply} {used : OwnedScan}
    (stops : base.Stops f (rest.map PlacedRow.told) (.over last result))
    (found : s.scans.get? name = some used) (made : used.madeAt = k) :
    ∃ c' answer after, s.settle ⟨o, call, .scan name ⟨k, t, ⟨c, none⟩⟩ a.aim⟩ last result
        = (s.setScan name ⟨k, t, ⟨c', none⟩⟩, .over answer) ∧ a.Answered rest answer after ∧
      c'.file = f ∧ c'.left base = after.map PlacedRow.told := by
  have back : ∀ c : Cursor, s.putBack name ⟨k, t, ⟨c, none⟩⟩
      = s.setScan name ⟨k, t, ⟨c, none⟩⟩ := by
    intro c
    rw [putBack]
    simp only [found, made, if_true]
  simp only [settle]
  cases stops with
  | @failed n err left kind =>
    refine ⟨⟨f, some ⟨n, []⟩⟩, _, rest, ?_, .failed kind, rfl, left⟩
    simp only [nextScan, back, finished]
  | @found c' _ file left ready =>
    cases a with
    | rewind =>
      refine ⟨c', _, rest, ?_, .opened, file, left⟩
      simp only [nextScan, ScanAsk.aim, useScan, back, finished]
    | hasNext =>
      refine ⟨c', _, rest, ?_, .told, file, left⟩
      simp only [nextScan, ScanAsk.aim, useScan, back, finished, List.isEmpty_map]
    | next =>
      obtain ⟨c'', result, after, taken, answered, file, left⟩ := take_answered file left ready
      refine ⟨c'', _, after, ?_, answered, file, left⟩
      simp only [nextScan, ScanAsk.aim, useScan, taken, back, finished]

/-- What is asked of a scan is answered, or waits. -/
theorem proceed_seeks {o : TaskOwner} {call : Call} {a : ScanAsk} {toGo : Nat} {used : OwnedScan}
    (shows : base.Shows s.engine t f) (reads : o.txn = t)
    (seeks : base.Seeks f (rest.map PlacedRow.told) toGo call)
    (found : s.scans.get? name = some used) (made : used.madeAt = k) :
    ∃ e, base.Shows e t f ∧
      ((∃ call' toGo' p, s.proceed ⟨o, call, .scan name ⟨k, t, ⟨c, none⟩⟩ a.aim⟩
          = ({ s with engine := e },
            .waits ⟨⟨o, call', .scan name ⟨k, t, ⟨c, none⟩⟩ a.aim⟩, p⟩) ∧
        base.Seeks f (rest.map PlacedRow.told) toGo' call') ∨
      ∃ c' answer after, s.proceed ⟨o, call, .scan name ⟨k, t, ⟨c, none⟩⟩ a.aim⟩
          = ({ s with engine := e }.setScan name ⟨k, t, ⟨c', none⟩⟩, .over answer) ∧
        a.Answered rest answer after ∧ c'.file = f ∧ c'.left base = after.map PlacedRow.told) := by
  subst reads
  obtain ⟨e, ended, ran, shows, stops⟩ := Engine.run_seeks shows seeks
  refine ⟨e, shows, ?_⟩
  rw [proceed, callBound, advance, ran]
  rcases ended with ⟨last, result⟩ | ⟨call', p⟩
  · obtain ⟨c', answer, after, settled, answered, file, left⟩ :=
      settle_stops (s := { s with engine := e }) o call c a stops found made
    refine .inr ⟨c', answer, after, ?_, answered, file, left⟩
    dsimp only
    rw [settled]
  · cases stops with
    | waits seeks => exact .inl ⟨call', _, p, rfl, seeks⟩

/-- Where nothing waits, something can be asked of the scan, and is answered or waits. -/
theorem recounts_ask (h : Follows base s label name k t f waiting? rest) (a : ScanAsk) :
    ∃ waiting' left, Follows base (s.ask label name a).2 label name k t f waiting' left ∧
      ∀ moves answers, Recounts (base.listing f) waiting' left moves answers →
        Recounts (base.listing f) waiting? rest (.ask a :: moves)
          ((s.ask label name a).1 :: answers) := by
  obtain ⟨shows, ⟨u, named⟩, stage⟩ := h
  cases stage with
  | @idle c _ nothing found file left =>
    have free : s.txn? label = .ok u := by
      simp only [txn?, isBusy, nothing, Session.named, named]
      rfl
    have offers : s.Offers label name ⟨k, t, ⟨c, none⟩⟩ := ⟨⟨u, free⟩, found, by simp [nothing]⟩
    have seeks : base.Seeks f ((a.before (base.listing f) rest).map PlacedRow.told)
        (base.toGo (a.start c)) (.advance (a.start c)) := by
      subst file
      cases a with
      | rewind => exact .advance rfl rfl
      | hasNext | next => exact .advance rfl left
    obtain ⟨e, shows, ⟨call, toGo, p, ran, seeks⟩ | ⟨c', answer, after, ran, answered, file, left⟩⟩ :=
      proceed_seeks (o := ⟨s.clock, label, t⟩) (c := a.start c) (a := a) shows rfl seeks found rfl
    · rw [ask_eq offers, ran]
      have queued : ∀ w, ({ s with engine := e }.suspend w).waiting = [w] := by
        intro w
        simp only [suspend, nothing, List.nil_append]
      refine ⟨some a, _, ⟨shows, ⟨u, named⟩, ?_⟩, fun moves answers later => .blocked later⟩
      exact .waiting rfl rfl seeks found rfl (queued _)
    · rw [ask_eq offers, ran]
      refine ⟨none, after, ⟨shows, ⟨u, named⟩, ?_⟩, fun moves answers later => .answered answered later⟩
      exact .idle nothing (FinMap.get?_insert_self ..) file left
  | @waiting o call c b toGo p used _ own reads seeks found made queued =>
    have busy : s.ask label name a = (.error (.refused .busy), s) := by
      have taken : s.txn? label = .error (.refused .busy) := by simp [txn?, isBusy, queued, own]
      rw [ask, useScanFor, run_bind, run_txn_error taken]
    rw [busy]
    exact ⟨some b, rest, ⟨shows, ⟨u, named⟩, .waiting own reads seeks found made queued⟩,
      fun moves answers later => .refused later⟩

/-- A scan that is closed has no rows left, and one that waits cannot be closed. -/
theorem recounts_close (h : Follows base s label name k t f waiting? rest) :
    ∃ waiting' left, Follows base (s.move label name .close).2 label name k t f waiting' left ∧
      ∀ moves answers, Recounts (base.listing f) waiting' left moves answers →
        Recounts (base.listing f) waiting? rest (.close :: moves)
          ((s.move label name .close).1 ++ answers) := by
  obtain ⟨shows, named, stage⟩ := h
  cases stage with
  | @idle c _ nothing found file left =>
    have closed : s.move label name .close
        = ([.ok .done], s.setScan name ⟨k, t, ⟨c.closed, none⟩⟩) := by
      rw [move, closeScan, run_bind, run_scan found (by simp [nothing])]
      rfl
    rw [closed]
    refine ⟨none, [], ⟨shows, named, ?_⟩, fun moves answers later => .closed later⟩
    exact .idle nothing (FinMap.get?_insert_self ..) file rfl
  | @waiting o call c b toGo p used _ own reads seeks found made queued =>
    have inUse : s.move label name .close = ([.error (.refused .busy)], s) := by
      rw [move, closeScan, run_bind, run_scan_busy found]
      simp [queued, WaitingTask.usesScan, made]
    rw [inUse]
    exact ⟨some b, rest, ⟨shows, named, .waiting own reads seeks found made queued⟩,
      fun moves answers later => .inUse later⟩

/-- What waits is answered when it is taken up again, or waits on. -/
theorem recounts_wake (h : Follows base s label name k t f waiting? rest) :
    ∃ waiting' left, Follows base s.wake.1 label name k t f waiting' left ∧
      ∀ moves answers, Recounts (base.listing f) waiting' left moves answers →
        Recounts (base.listing f) waiting? rest (.wake :: moves)
          (s.wake.2.map Prod.snd ++ answers) := by
  obtain ⟨shows, named, stage⟩ := h
  have shows := shows.unnotified
  rw [wake]
  cases stage with
  | idle nothing found file left =>
    rw [nothing]
    exact ⟨none, rest, ⟨shows, named, .idle rfl found file left⟩,
      fun moves answers later => .asleep later⟩
  | @waiting o call c a toGo p used _ own reads seeks found made queued =>
    rw [queued]
    simp only [List.foldl_cons, List.foldl_nil]
    split
    · obtain ⟨e, shows, ⟨call, toGo, q, ran, seeks⟩ | ⟨c', answer, after, ran, answered, file, left⟩⟩ :=
        proceed_seeks (s := { s with engine.locks.notified := [], waiting := [] }) (c := c) (a := a)
          shows reads seeks found made
      · rw [ran]
        refine ⟨some a, rest, ⟨shows, named, ?_⟩, fun moves answers later => .asleep later⟩
        exact .waiting own reads seeks found made rfl
      · rw [ran]
        refine ⟨none, after, ⟨shows, named, ?_⟩, fun moves answers later => .woken answered later⟩
        exact .idle rfl (FinMap.get?_insert_self ..) file left
    · exact ⟨some a, rest, ⟨shows, named, .waiting own reads seeks found made rfl⟩,
        fun moves answers later => .asleep later⟩

/-- Whether what others do, whenever they do it, leaves the rows as they are that a table shows. -/
def Quiet (base : Engine) (label name : String) (t : TxnId) (f : HeapFile) :
    List ScanMove → Session → Prop
  | [], _ => True
  | m :: moves, s =>
    (∀ work, m = .others work → base.Shows s.engine t f → base.Shows (work s.engine) t f) ∧
      Quiet base label name t f moves (s.move label name m).2

/-- What others do is quiet if it keeps the rows whenever it is done. -/
theorem quiet_of_keeping {moves : List ScanMove} (keeping : ∀ work, .others work ∈ moves →
    ∀ e, base.Shows e t f → base.Shows (work e) t f) (s : Session) :
    Quiet base label name t f moves s := by
  induction moves generalizing s with
  | nil => trivial
  | cons m moves ih =>
    refine ⟨fun work eq => keeping work (eq ▸ .head _) s.engine, ih (fun work mem => ?_) _⟩
    exact keeping work (.tail _ mem)

theorem recounts_move (h : Follows base s label name k t f waiting? rest) (m : ScanMove)
    (quiet : ∀ work, m = .others work → base.Shows s.engine t f → base.Shows (work s.engine) t f) :
    ∃ waiting' left, Follows base (s.move label name m).2 label name k t f waiting' left ∧
      ∀ moves answers, Recounts (base.listing f) waiting' left moves answers →
        Recounts (base.listing f) waiting? rest (m :: moves)
          ((s.move label name m).1 ++ answers) := by
  cases m with
  | ask a => exact recounts_ask h a
  | close => exact recounts_close h
  | wake => exact recounts_wake h
  | others work =>
    obtain ⟨shows, named, stage⟩ := h
    have stage : ScanStage base { s with engine := work s.engine } label name k t f waiting? rest := by
      cases stage with
      | idle nothing found file left => exact .idle nothing found file left
      | waiting own reads seeks found made queued => exact .waiting own reads seeks found made queued
    exact ⟨waiting?, rest, ⟨quiet work rfl shows, named, stage⟩, fun moves answers later => .others later⟩

/-- Whatever is done with a scan and beside it, the scan recounts its table. -/
theorem recounts_drive {moves : List ScanMove} (h : Follows base s label name k t f waiting? rest)
    (quiet : Quiet base label name t f moves s) :
    Recounts (base.listing f) waiting? rest moves (drive label name moves s).1 := by
  induction moves generalizing s waiting? rest with
  | nil => exact .stop
  | cons m moves ih =>
    obtain ⟨waiting', left, after, recounts⟩ := recounts_move h m quiet.1
    exact recounts _ _ (ih after quiet.2)

/-- **A scan that is interrupted loses nothing.** Let a scan of a file be new in a session in which no
step waits, and take the rows of the table from a base engine. Whatever is asked of the scan then, and
whatever others do in between that leaves these rows, each answer is that of the list of the rows, or a
failure or a wait that leaves the rows that were left. So if the scan is opened and then only asked for
more, the rows that it yields, before and behind all failures, are the rows of the table, each once, in
the order of the pages and slots, up to where it has come; and they are all of them when it tells that
nothing is left. -/
theorem interrupted_exact (idle : s.waiting = []) (named : ∃ u, s.labels.get? label = some u)
    (found : s.scans.get? name = some ⟨k, t, ⟨.new f, none⟩⟩) (shows : base.Shows s.engine t f) :
    ((base.listing f).Pairwise fun a b => a.1.Precedes b.1) ∧
    (∀ moves, Quiet base label name t f moves s →
      Recounts (base.listing f) none [] moves (drive label name moves s).1) ∧
    ∀ moves, Quiet base label name t f (.ask .rewind :: moves) s → (∀ m ∈ moves, m.GoesOn) →
      Yields (base.listing f) (drive label name (.ask .rewind :: moves) s).1 := by
  have new : Follows base s label name k t f none [] :=
    ⟨shows, named, .idle idle found rfl rfl⟩
  refine ⟨Engine.listing_ordered .., fun moves => recounts_drive new, fun moves quiet onwards => ?_⟩
  have recounts := recounts_drive new quiet
  generalize (drive label name (.ask .rewind :: moves) s).1 = answers at recounts ⊢
  cases recounts with
  | answered answered later => exact (later.yields onwards).answered answered
  | blocked later => exact (later.yields onwards).silent rfl (by rintro (eq | eq) <;> cases eq)

/-- Others latch these frames for writing. -/
def latching (frames : List Nat) : ScanMove :=
  .others fun e => { e with pool.latched := frames }

/-- The session of `sparse`, where the first page in memory cannot leave it. -/
def crowdedSparse : Session :=
  { sparse with engine.pool.latched := [0] }

/-- The scan is read to its end, but twice no page can leave memory. -/
def crowdedMoves : List ScanMove :=
  [.ask .rewind, latching [], .ask .next, latching [1], .ask .next, .ask .hasNext, latching [],
    .ask .next, .ask .next, .ask .next]

/-- The three rows are yielded, although the scan cannot be opened at first, and then fails twice between
two pages. -/
theorem interrupted_exact_crowded : ∃ answers,
    (drive "a" "s" crowdedMoves crowdedSparse).1 = answers ∧
    answers.take 4 = [.error (.file .poolFull),
      .ok (.tuple ⟨numbers.schema, [.int 7], some ⟨⟨numbers.id, 1⟩, 1⟩⟩),
      .error (.file .poolFull), .error (.file .poolFull)] ∧
    answers.filterMap yielded? = sparseRows.map PlacedRow.told := by
  have readable := scans_sparse.readable
  have shows : sparse.engine.Shows sparse.engine ⟨1⟩ numbers := by
    refine ⟨readable.coherent, fun g found => ?_, rfl, fun _ _ _ _ _ => rfl⟩
    exact Option.some.inj (found.symm.trans readable.registered)
  have quiet : Quiet sparse.engine "a" "s" ⟨1⟩ numbers crowdedMoves crowdedSparse := by
    refine quiet_of_keeping (fun work mem e shows => ?_) crowdedSparse
    simp only [crowdedMoves, latching, List.mem_cons, ScanMove.others.injEq, List.not_mem_nil,
      reduceCtorEq, or_false, false_or] at mem
    obtain rfl | rfl | rfl := mem
    · exact shows.latched []
    · exact shows.latched [1]
    · exact shows.latched []
  have onwards : ∀ m ∈ crowdedMoves.tail, m.GoesOn := by
    simp [crowdedMoves, latching, ScanMove.GoesOn]
  obtain ⟨-, -, yields⟩ := @interrupted_exact crowdedSparse "a" "s" 0 ⟨1⟩ numbers sparse.engine rfl
    ⟨⟨1⟩, rfl⟩ rfl (shows.latched [0])
  have rows : sparse.engine.listing numbers = sparseRows := by decide +kernel
  have all := yields crowdedMoves.tail quiet onwards
  rw [rows] at all
  refine ⟨_, rfl, rfl, all.complete ⟨.error (.file .noSuchElement), ?_, .inr rfl⟩⟩
  exact List.mem_of_getElem? (i := 6) rfl

end Session

end RowStore
