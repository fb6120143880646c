import RowStore.Proofs.Scan.Iteration

/-! # Scans under an alias
A scan that shows a table under an alias goes through it with the same cursor as a scan of its file. So
whatever is asked of both, and whatever others do meanwhile, they fetch the same pages and wait for the
same locks (`Twins`). But the alias scan checks the values of a tuple against the columns of the table
once more when the cursor has already left the tuple. Main statements: `alias_agrees`, each answer is the
same, with the columns named by the alias, if the values of the tuple fit, and an error otherwise; and
`alias_disagrees`, a file with a tuple that does not fit. -/

namespace RowStore

/-- What is done with a scan, and beside it. -/
inductive ScanMove where
  /-- Something is asked of the scan; to open it is to rewind it. -/
  | ask (a : ScanAsk)
  | close
  /-- Others work with the engine. -/
  | others (work : Engine → Engine)
  /-- What waits is taken up again, if its page has been released. -/
  | wake

/-- What a scan under an alias answers where a scan of the file answers so. -/
inductive AliasAnswer (f : HeapFile) (aliasName : String) :
    Except Failure Outcome → Except Failure Outcome → Prop
  /-- Whatever is no tuple is answered alike. -/
  | same {answer : Except Failure Outcome} (no_tuple : ∀ tuple, answer ≠ .ok (.tuple tuple)) :
    AliasAnswer f aliasName answer answer
  /-- A tuple is shown with the same values and the same record id. -/
  | tuple {tuple : Tuple} (fits : f.schema.validate tuple.values = .ok ()) :
    AliasAnswer f aliasName
      (.ok (.tuple ⟨f.schema.withAlias aliasName, tuple.values, tuple.id?⟩)) (.ok (.tuple tuple))
  /-- A tuple whose values do not fit the columns is refused. -/
  | misfit {tuple : Tuple} {err : RecordError} (misfit : f.schema.validate tuple.values = .error err) :
    AliasAnswer f aliasName (.error (.file (.record err))) (.ok (.tuple tuple))

/-- Whether values fit does not depend on the names of the columns. -/
theorem Schema.validate_withAlias (s : Schema) (aliasName : String) (values : List Value) :
    (s.withAlias aliasName).validate values = s.validate values := by
  have size : (s.withAlias aliasName).size = s.size := by simp [withAlias, Schema.size]
  rw [validate, validate, types_withAlias, size]

namespace Session

variable {s s' : Session} {label name : String} {t : TxnId} {k : Nat} {f : HeapFile} {v : View}
  {c : Cursor} {a : ScanAsk} {used : OwnedScan}

/-! ## Moves -/

/-- What a move comes to. -/
def move (s : Session) (label name : String) :
    ScanMove → List (Except Failure Outcome) × Session
  | .ask a => ([(s.ask label name a).1], (s.ask label name a).2)
  | .close =>
    match (closeScan name).run.run s with
    | (.ok (), s) => ([.ok .done], s)
    | (.error err, s) => ([.error err], s)
  | .others work => ([], { s with engine := work s.engine })
  | .wake => (s.wake.2.map Prod.snd, s.wake.1)

/-- What moves one after another come to. -/
def drive (label name : String) : List ScanMove → Session → List (Except Failure Outcome) × Session
  | [], s => ([], s)
  | m :: moves, s =>
    let (answers, s) := s.move label name m
    let (more, s) := drive label name moves s
    (answers ++ more, s)

theorem run_txn_error {err : Failure} (unnamed : s.txn? label = .error err) :
    (txn label).run.run s = (.error err, s) := by
  show (lift id (s.txn? label)).run.run s = _
  rw [unnamed]
  rfl

theorem run_scan_busy (named : s.scans.get? name = some used)
    (taken : s.waiting.any (·.usesScan used) = true) :
    (scan name).run.run s = (.error (.refused .busy), s) := by
  rw [scan, run_bind, run_get]
  simp only [named, taken]
  rfl

/-! ## Two scans of one table -/

/-- What is known of two tasks that differ in the view of their scan only. -/
inductive TwinTasks (name : String) (k : Nat) (t : TxnId) (v : View) : Task → Task → Prop
  | intro (o : TaskOwner) (call : Call) (c : Cursor) (a : ScanAsk) :
    TwinTasks name k t v ⟨o, call, .scan name ⟨k, t, ⟨c, some v⟩⟩ a.aim⟩
      ⟨o, call, .scan name ⟨k, t, ⟨c, none⟩⟩ a.aim⟩

/-- What waits in two sessions that differ in the view of a scan only. -/
inductive TwinWaits (name : String) (k : Nat) (t : TxnId) (v : View) :
    List WaitingTask → List WaitingTask → Prop
  | nothing : TwinWaits name k t v [] []
  | scan {task task' : Task} {p : PageId} (twins : TwinTasks name k t v task task') :
    TwinWaits name k t v [⟨task, p⟩] [⟨task', p⟩]

/-- What waits belongs to the same transaction, and uses the scan. -/
theorem TwinWaits.any {waiting waiting' : List WaitingTask}
    (h : TwinWaits name k t v waiting waiting') (label : String) (scan : Scan) :
    waiting'.any (·.task.label = label) = waiting.any (·.task.label = label) ∧
      (waiting = [] ∧ waiting' = [] ∨ waiting.any (·.usesScan ⟨k, t, scan⟩) = true ∧
        waiting'.any (·.usesScan ⟨k, t, scan⟩) = true) := by
  cases h with
  | nothing => exact ⟨rfl, .inl ⟨rfl, rfl⟩⟩
  | scan twins =>
    cases twins with
    | intro o call c a => simp [WaitingTask.usesScan]

/-- Two sessions that differ in the view of a scan, and in nothing else that matters for it. -/
structure Twins (name : String) (k : Nat) (t : TxnId) (v : View) (s s' : Session) : Prop where
  engine : s'.engine = s.engine
  labels : s'.labels = s.labels
  clock : s'.clock = s.clock
  scans : ∃ c, s.scans.get? name = some ⟨k, t, ⟨c, some v⟩⟩ ∧
    s'.scans.get? name = some ⟨k, t, ⟨c, none⟩⟩
  waiting : TwinWaits name k t v s.waiting s'.waiting

namespace Twins

variable (h : Twins name k t v s s')

include h

/-- The same is done with both engines. -/
theorem onEngine (e : Engine) : Twins name k t v { s with engine := e } { s' with engine := e } :=
  ⟨rfl, h.labels, h.clock, h.scans, h.waiting⟩

/-- Both scans are put back with the same cursor. -/
theorem putBack (c : Cursor) : Twins name k t v (s.putBack name ⟨k, t, ⟨c, some v⟩⟩)
    (s'.putBack name ⟨k, t, ⟨c, none⟩⟩) := by
  obtain ⟨old, named, named'⟩ := h.scans
  simp only [Session.putBack, named, named', if_true]
  exact ⟨h.engine, h.labels, h.clock, ⟨c, FinMap.get?_insert_self .., FinMap.get?_insert_self ..⟩,
    h.waiting⟩

/-- Both transactions are named, and neither waits, or both are refused alike. -/
theorem txn? (label : String) : s'.txn? label = s.txn? label := by
  obtain ⟨c, -, -⟩ := h.scans
  have busy : s'.isBusy label = s.isBusy label := (h.waiting.any label ⟨c, none⟩).1
  rw [Session.txn?, Session.txn?, busy, named, named, h.labels]

end Twins

/-- What a tuple is shown as. -/
theorem answer_present {aliasName : String} (columns : v.schema = f.schema.withAlias aliasName)
    (c : Cursor) (tuple : Tuple) : AliasAnswer f aliasName
      ((((⟨c, some v⟩ : Scan).present tuple).map Outcome.tuple).mapError Failure.file)
      (.ok (.tuple tuple)) := by
  simp only [Scan.present, Tuple.new, columns, Schema.validate_withAlias]
  cases fits : f.schema.validate tuple.values with
  | ok _ => exact .tuple fits
  | error err => exact .misfit fits

variable {aliasName : String}

/-- Both scans are closed, unless they are in use. -/
theorem close_twins (h : Twins name k t v s s') (label : String) :
    Twins name k t v (s.move label name .close).2 (s'.move label name .close).2 ∧
      List.Forall₂ (AliasAnswer f aliasName) (s.move label name .close).1
        (s'.move label name .close).1 := by
  obtain ⟨c, named, named'⟩ := h.scans
  obtain ⟨-, ⟨idle, idle'⟩ | ⟨taken, taken'⟩⟩ := h.waiting.any label ⟨c, none⟩
  · have closed : ∀ (s : Session) (used : OwnedScan), s.scans.get? name = some used →
        s.waiting = [] → s.move label name .close
          = ([.ok .done], s.setScan name { used with scan.cursor := used.scan.cursor.closed }) := by
      intro s used found idle
      rw [move, closeScan, run_bind, run_scan found (by simp [idle])]
      rfl
    rw [closed s _ named idle, closed s' _ named' idle']
    refine ⟨⟨h.engine, h.labels, h.clock, ?_, h.waiting⟩, .cons (.same nofun) .nil⟩
    exact ⟨c.closed, FinMap.get?_insert_self .., FinMap.get?_insert_self ..⟩
  · have busy : ∀ (s : Session) (used : OwnedScan), s.scans.get? name = some used →
        s.waiting.any (·.usesScan used) = true →
        s.move label name .close = ([.error (.refused .busy)], s) := by
      intro s used found taken
      rw [move, closeScan, run_bind, run_scan_busy found taken]
    rw [busy s _ named taken, busy s' _ named' taken']
    exact ⟨h, .cons (.same nofun) .nil⟩

section Answers

variable (columns : v.schema = f.schema.withAlias aliasName)

include columns

/-- The next of the tuples that both cursors hold is taken from both scans. -/
theorem take_twins (c : Cursor) : ∃ c' r r',
    (⟨c, some v⟩ : Scan).take = (⟨c', some v⟩, r) ∧ (⟨c, none⟩ : Scan).take = (⟨c', none⟩, r') ∧
    AliasAnswer f aliasName ((r.map Outcome.tuple).mapError Failure.file)
      ((r'.map Outcome.tuple).mapError Failure.file) := by
  obtain ⟨file, position?⟩ := c
  have nothing : AliasAnswer f aliasName (.error (.file .noSuchElement))
      (.error (.file .noSuchElement)) := .same nofun
  match position? with
  | none | some ⟨_, []⟩ => exact ⟨_, _, _, rfl, rfl, nothing⟩
  | some ⟨n, tuple :: rest⟩ => exact ⟨_, _, _, rfl, rfl, answer_present columns _ tuple⟩

/-- When the search for tuples is over, both scans have the same cursor, and what they answer agrees. -/
theorem settle_twins (h : Twins name k t v s s') {task task' : Task}
    (twins : TwinTasks name k t v task task') (last : Call) (result : Except FileError Reply) :
    ∃ s₁ s₂ r r', s.settle task last result = (s₁, .over r) ∧
      s'.settle task' last result = (s₂, .over r') ∧ Twins name k t v s₁ s₂ ∧
      AliasAnswer f aliasName r r' := by
  obtain ⟨o, call, c, a⟩ := twins
  simp only [settle]
  cases result with
  | error err =>
    have alike : AliasAnswer f aliasName (.error (.file err)) (.error (.file err)) := .same (by simp)
    cases last with
    | advance cursor | turn cursor n =>
      exact ⟨_, _, _, _, rfl, rfl, h.putBack cursor, alike⟩
    | lock | fetch | insert | insertInto | delete | deleteFrom | deleteAt =>
      exact ⟨_, _, _, _, rfl, rfl, h, alike⟩
  | ok reply =>
    cases reply with
    | advanced cursor more =>
      cases a with
      | rewind => exact ⟨_, _, _, _, rfl, rfl, h.putBack cursor, .same (by simp)⟩
      | hasNext => exact ⟨_, _, _, _, rfl, rfl, h.putBack cursor, .same (by simp)⟩
      | next =>
        obtain ⟨c', r, r', taken, taken', agree⟩ := take_twins columns cursor
        simp only [nextScan, ScanAsk.aim, useScan, finished, taken, taken']
        exact ⟨_, _, _, _, rfl, rfl, h.putBack c', agree⟩
    | locked | fetched | inserted | deleted => exact ⟨_, _, _, _, rfl, rfl, h, .same (by simp)⟩

/-- Both scans get as far as the other one: they wait for the same page, or what they answer agrees. -/
theorem proceed_twins (h : Twins name k t v s s') {task task' : Task}
    (twins : TwinTasks name k t v task task') :
    (∃ e p task₁ task₂, s.proceed task = ({ s with engine := e }, .waits ⟨task₁, p⟩) ∧
      s'.proceed task' = ({ s' with engine := e }, .waits ⟨task₂, p⟩) ∧
      TwinTasks name k t v task₁ task₂) ∨
    ∃ s₁ s₂ r r', s.proceed task = (s₁, .over r) ∧ s'.proceed task' = (s₂, .over r') ∧
      Twins name k t v s₁ s₂ ∧ AliasAnswer f aliasName r r' := by
  obtain ⟨o, call, c, a⟩ := twins
  simp only [proceed, callBound, advance, h.engine]
  rcases s.engine.run o.txn call with ⟨e, ⟨last, result⟩ | ⟨waiting, p⟩⟩
  · right
    obtain ⟨s₁, s₂, r, r', settled, settled', twins, agree⟩ :=
      settle_twins columns (h.onEngine e) (.intro o call c a) last result
    simp only [settled, settled']
    exact ⟨_, _, _, _, rfl, rfl, twins, agree⟩
  · left
    exact ⟨e, _, _, _, rfl, rfl, .intro ..⟩

/-! ## What moves come to -/

/-- What is asked of both scans is answered alike. -/
theorem ask_twins (h : Twins name k t v s s') (label : String) (a : ScanAsk) :
    Twins name k t v (s.ask label name a).2 (s'.ask label name a).2 ∧
      AliasAnswer f aliasName (s.ask label name a).1 (s'.ask label name a).1 := by
  obtain ⟨c, named, named'⟩ := h.scans
  have waiting := h.waiting
  cases user : s.txn? label with
  | error err =>
    have refused : ∀ s : Session, s.txn? label = .error err → s.ask label name a = (.error err, s) := by
      intro s unnamed
      rw [ask, useScanFor, run_bind, run_txn_error unnamed]
    rw [refused s user, refused s' ((h.txn? label).trans user)]
    exact ⟨h, .same (by simp)⟩
  | ok u =>
    have user' := (h.txn? label).trans user
    obtain ⟨-, ⟨idle, idle'⟩ | ⟨taken, taken'⟩⟩ := h.waiting.any label ⟨c, none⟩
    · -- nothing waits, so that both scans can be used
      have offers : s.Offers label name ⟨k, t, ⟨c, some v⟩⟩ := ⟨⟨u, user⟩, named, by simp [idle]⟩
      have offers' : s'.Offers label name ⟨k, t, ⟨c, none⟩⟩ := ⟨⟨u, user'⟩, named', by simp [idle']⟩
      rw [ask_eq offers, ask_eq offers', h.clock]
      rcases proceed_twins columns h (.intro ⟨s.clock, label, t⟩ (.advance (a.start c)) (a.start c) a) with
        ⟨e, p, task₁, task₂, run, run', twins⟩ | ⟨s₁, s₂, r, r', run, run', twins, agree⟩
      · simp only [run, run']
        refine ⟨⟨rfl, h.labels, h.clock, h.scans, ?_⟩, .same (by simp)⟩
        simp only [suspend, idle, idle', List.nil_append]
        exact .scan twins
      · simp only [run, run']
        exact ⟨twins, agree⟩
    · -- the scan is in use by a task that waits
      have busy : ∀ (s : Session) (used : OwnedScan), s.txn? label = .ok u →
          s.scans.get? name = some used → s.waiting.any (·.usesScan used) = true →
          s.ask label name a = (.error (.refused .busy), s) := by
        intro s used named found taken
        rw [ask, useScanFor, run_bind, run_txn named]
        dsimp only
        rw [run_bind, run_scan_busy found taken]
      rw [busy s _ user named taken, busy s' _ user' named' taken']
      exact ⟨h, .same (by simp)⟩

/-- What waits is taken up again alike. -/
theorem wake_twins (h : Twins name k t v s s') : Twins name k t v s.wake.1 s'.wake.1 ∧
    List.Forall₂ (AliasAnswer f aliasName) (s.wake.2.map Prod.snd) (s'.wake.2.map Prod.snd) := by
  have emptied : Twins name k t v { s with engine.locks.notified := [], waiting := [] }
      { s' with engine.locks.notified := [], waiting := [] } :=
    ⟨by rw [h.engine], h.labels, h.clock, h.scans, .nothing⟩
  have waiting := h.waiting
  generalize list : s.waiting = ws, list' : s'.waiting = ws' at waiting
  rw [wake, wake, list, list', h.engine]
  cases waiting with
  | nothing => exact ⟨h.engine ▸ emptied, .nil⟩
  | @scan task task' p twins =>
    simp only [List.foldl_cons, List.foldl_nil]
    rw [h.engine] at emptied
    split
    · -- the page has been released, so both scans go on
      rcases proceed_twins columns emptied twins with
        ⟨e, q, task₁, task₂, run, run', twins⟩ | ⟨s₁, s₂, r, r', run, run', after, agree⟩
      · simp only [run, run']
        exact ⟨⟨rfl, h.labels, h.clock, h.scans, .scan twins⟩, .nil⟩
      · simp only [run, run']
        exact ⟨after, .cons agree .nil⟩
    · exact ⟨⟨rfl, h.labels, h.clock, h.scans, .scan twins⟩, .nil⟩

/-- Every move comes to the same for both scans, as far as it can. -/
theorem move_twins (h : Twins name k t v s s') (label : String) (m : ScanMove) :
    Twins name k t v (s.move label name m).2 (s'.move label name m).2 ∧
      List.Forall₂ (AliasAnswer f aliasName) (s.move label name m).1 (s'.move label name m).1 := by
  cases m with
  | ask a =>
    obtain ⟨twins, agree⟩ := ask_twins columns h label a
    exact ⟨twins, .cons agree .nil⟩
  | close => exact close_twins h label
  | others work =>
    rw [move, move, h.engine]
    exact ⟨h.onEngine (work s.engine), .nil⟩
  | wake => exact wake_twins columns h

/-- Moves one after another come to the same for both scans, as far as they can. -/
theorem drive_twins (h : Twins name k t v s s') (label : String) (moves : List ScanMove) :
    Twins name k t v (drive label name moves s).2 (drive label name moves s').2 ∧
      List.Forall₂ (AliasAnswer f aliasName) (drive label name moves s).1
        (drive label name moves s').1 := by
  induction moves generalizing s s' with
  | nil => exact ⟨h, .nil⟩
  | cons m moves ih =>
    obtain ⟨twins, first⟩ := move_twins columns h label m
    obtain ⟨twins, rest⟩ := ih twins
    exact ⟨twins, List.rel_append first rest⟩

end Answers

/-! ## Opening both scans -/

theorem run_database (s : Session) : database.run.run s =
    if s.isOpen then (.ok s.engine, s) else (.error (.refused .noDatabase), s) := by
  show (ExceptT.run (if s.isOpen then return s.engine else refuse .noDatabase : SessionM Engine)).run s = _
  split
  · rfl
  · rfl

theorem run_lift {ε α : Type} (wrap : ε → Failure) (x : Except ε α) (s : Session) :
    (lift wrap x).run.run s = match x with
      | .ok a => (.ok a, s)
      | .error err => (.error (wrap err), s) := by
  cases x with
  | ok a => rfl
  | error err => rfl

/-- What a named scan that shows a table under an alias is like. -/
theorem openScan_eq_ok {table : TableId} {aliasName : String}
    (h : (openScan label table aliasName name).run.run s = (.ok (), s')) :
    ∃ t entry, s.txn? label = .ok t ∧ s.engine.catalog.find? table = some entry ∧
      s' = s.setScan name ⟨s.clock, t, ⟨.new entry.file,
        some ⟨table, entry.name, aliasName, entry.file.schema.withAlias aliasName⟩⟩⟩ := by
  rw [openScan, run_bind] at h
  cases user : s.txn? label with
  | error err =>
    rw [run_txn_error user] at h
    cases h
  | ok t =>
    rw [run_txn user] at h
    dsimp only at h
    rw [run_bind, run_database] at h
    cases opened : s.isOpen with
    | false =>
      rw [opened] at h
      cases h
    | true =>
      simp only [opened, if_true] at h
      rw [run_bind, run_lift, Engine.scan, CatalogState.entry] at h
      cases found : s.engine.catalog.find? table with
      | none =>
        simp only [found] at h
        cases h
      | some entry =>
        simp only [found] at h
        exact ⟨t, entry, rfl, rfl, (Prod.mk.inj h).2.symm⟩

/-- What a named scan of a table's file is like. -/
theorem openFileScan_eq_ok {table : TableId}
    (h : (openFileScan label table name).run.run s = (.ok (), s')) :
    ∃ t f, s.txn? label = .ok t ∧ s.engine.catalog.file? table = some f ∧
      s' = s.setScan name ⟨s.clock, t, ⟨.new f, none⟩⟩ := by
  rw [openFileScan, run_bind] at h
  cases user : s.txn? label with
  | error err =>
    rw [run_txn_error user] at h
    cases h
  | ok t =>
    rw [run_txn user] at h
    dsimp only at h
    rw [run_bind, run_database] at h
    cases opened : s.isOpen with
    | false =>
      rw [opened] at h
      cases h
    | true =>
      simp only [opened, if_true] at h
      cases found : s.engine.catalog.file? table with
      | none =>
        simp only [found] at h
        cases h
      | some f =>
        simp only [found] at h
        exact ⟨t, f, rfl, rfl, (Prod.mk.inj h).2.symm⟩

/-- **A scan under an alias.** In a session in which no step waits, name a scan of a table that shows it
under an alias, or a scan of its file. Whatever is then done with either, and whatever others do with the
engine in between, both leave the same engine behind, and answer alike: each tuple that the scan of the
file yields is shown with the same values and the same record id, and with its columns named by the alias,
unless its values do not fit the columns of the table, in which case the scan under the alias fails
instead. -/
theorem alias_agrees {table : TableId} {aliasName : String} {s₁ s₂ : Session} (idle : s.waiting = [])
    (shown : (openScan label table aliasName name).run.run s = (.ok (), s₁))
    (plain : (openFileScan label table name).run.run s = (.ok (), s₂)) :
    ∃ f, s.engine.catalog.file? table = some f ∧ ∀ moves,
      List.Forall₂ (AliasAnswer f aliasName) (drive label name moves s₁).1
        (drive label name moves s₂).1 ∧
      (drive label name moves s₂).2.engine = (drive label name moves s₁).2.engine := by
  obtain ⟨t, entry, user, found, rfl⟩ := openScan_eq_ok shown
  obtain ⟨t', f, user', file, rfl⟩ := openFileScan_eq_ok plain
  obtain rfl : t' = t := Except.ok.inj (user'.symm.trans user)
  obtain rfl : f = entry.file := by
    rw [CatalogState.file?, found] at file
    exact (Option.some.inj file).symm
  refine ⟨entry.file, file, fun moves => ?_⟩
  have twins : ∀ v, Twins name s.clock t' v (s.setScan name ⟨s.clock, t', ⟨.new entry.file, some v⟩⟩)
      (s.setScan name ⟨s.clock, t', ⟨.new entry.file, none⟩⟩) := by
    intro v
    refine ⟨rfl, rfl, rfl, ⟨_, FinMap.get?_insert_self .., FinMap.get?_insert_self ..⟩, ?_⟩
    simp only [setScan, idle]
    exact .nothing
  have columns : (⟨table, entry.name, aliasName, entry.file.schema.withAlias aliasName⟩ : View).schema
      = entry.file.schema.withAlias aliasName := rfl
  obtain ⟨after, agree⟩ := drive_twins columns (twins _) label moves
  exact ⟨agree, after.engine⟩

/-- A table of letters. -/
def letters : HeapFile :=
  ⟨["t"], ⟨⟨[⟨"letter", .text 1⟩]⟩, 11, by decide⟩⟩

/-- A session with a table of letters, whose file has two rows in one page. The text of the second row is
an octet that begins no character. -/
def spelling : Session :=
  { start "" with
    engine :=
      { Engine.new ((FileTree.empty "").write ["t"] [3, 1, 0, 0, 0, 0x61, 1, 0, 0, 0, 0xFF]) ⟨11, 1⟩ with
        catalog := (∅ : Catalog).add "t" letters none }
    isOpen := true
    labels := (∅ : FinMap String TxnId).insert "a" ⟨1⟩ }

/-- Both rows are asked for. -/
def spellingMoves : List ScanMove :=
  [.ask .rewind, .ask .next, .ask .next, .ask .hasNext]

/-- Under an alias, the scan of this table answers like that of its file, as far as it can. -/
theorem alias_agrees_spelling : ∃ s₁ s₂,
    (openScan "a" letters.id "x" "s").run.run spelling = (.ok (), s₁) ∧
    (openFileScan "a" letters.id "s").run.run spelling = (.ok (), s₂) ∧
    List.Forall₂ (AliasAnswer letters "x") (drive "a" "s" spellingMoves s₁).1
      (drive "a" "s" spellingMoves s₂).1 := by
  obtain ⟨s₁, shown⟩ : ∃ s₁, (openScan "a" letters.id "x" "s").run.run spelling = (.ok (), s₁) :=
    ⟨_, rfl⟩
  obtain ⟨s₂, plain⟩ : ∃ s₂, (openFileScan "a" letters.id "s").run.run spelling = (.ok (), s₂) :=
    ⟨_, rfl⟩
  obtain ⟨f, file, agree⟩ := alias_agrees rfl shown plain
  obtain rfl : letters = f := Option.some.inj file
  exact ⟨s₁, s₂, shown, plain, (agree spellingMoves).1⟩

/-- **A tuple that a scan under an alias loses.** The scan of the file yields the second row, in which a
replacement stands for the octet that begins no character. The scan under the alias fails there, because
the replacement takes three octets, and then tells that there is nothing left. -/
theorem alias_disagrees : ∃ s₁ s₂,
    (openScan "a" letters.id "x" "s").run.run spelling = (.ok (), s₁) ∧
    (openFileScan "a" letters.id "s").run.run spelling = (.ok (), s₂) ∧
    (drive "a" "s" spellingMoves s₁).1 = [.ok .done,
      .ok (.tuple ⟨⟨[⟨"x.letter", .text 1⟩]⟩, [.text "a"], some ⟨⟨letters.id, 0⟩, 0⟩⟩),
      .error (.file (.record (.typeMismatch (.text 1) (.text "\uFFFD")))), .ok (.truth false)] ∧
    (drive "a" "s" spellingMoves s₂).1 = [.ok .done,
      .ok (.tuple ⟨letters.schema, [.text "a"], some ⟨⟨letters.id, 0⟩, 0⟩⟩),
      .ok (.tuple ⟨letters.schema, [.text "\uFFFD"], some ⟨⟨letters.id, 0⟩, 1⟩⟩),
      .ok (.truth false)] := by
  refine ⟨_, _, rfl, rfl, ?_, ?_⟩
  · rfl
  · rfl

end Session

end RowStore
