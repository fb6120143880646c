import RowStore.Proofs.Database.Spelling
import RowStore.Proofs.Scan.Alias
import RowStore.Proofs.Traffic.Files
import RowStore.Proofs.Traffic.Gains

/-! # Loading is inserting
A load inserts the rows that the records of a file spell, one after another. It may have to wait between
two of them, and what others do meanwhile is arbitrary, as long as they leave the file and the columns of
the table as they are. At any time the engine is what it would be if the rows had been inserted by
themselves (`Twins`), and there are as many of them in the table as records have been read (`Stage`). Main
statement: `load_eq_insertRows`. -/

namespace RowStore

/-- What happens beside a step that may have to wait. -/
inductive Aside where
  /-- Others work with the engine. -/
  | others (work : Engine → Engine)
  /-- What waits is taken up again, if its page has been released. -/
  | wake

/-- Whether a table has its columns as before, and a file its octets. -/
structure Engine.KeepsInput (e e' : Engine) (table : TableId) (source : Location) : Prop where
  schema : e'.schema table = e.schema table
  content : e'.disk.content source = e.disk.content source

/-! ## What is answered -/

/-- The error with which a record ends a load, and the one with which its row ends an insertion of the
rows; a record that spells no row has none to end it. -/
inductive Offends (schema : Schema) (r : Csv.Record) : DatabaseError → Option DatabaseError → Prop
  | unspelt {err : DatabaseError} (unspelt : r.values schema = .error err) : Offends schema r err none
  | misfit {row : List Value} {err : RecordError} (spelt : r.values schema = .ok row)
      (misfit : Tuple.new schema row = .error err) :
    Offends schema r (.record err) (some (.record err))
  | failed {tuple : Tuple} {err : FileError} (fits : r.tuple schema = .ok tuple) :
    Offends schema r (.file err) (some (.file err))

/-- What a load of records answers where an insertion of their rows answers so. -/
inductive LoadAnswer (schema : Schema) (records : List Csv.Record) :
    Except Failure Outcome → Except Failure Outcome → Prop
  | blocked : LoadAnswer schema records (.ok .blocked) (.ok .blocked)
  /-- All records spell tuples, and all of these have been inserted. -/
  | loaded {last? : Option RecordId} (all : ∀ r ∈ records, ∃ tuple, r.tuple schema = .ok tuple) :
    LoadAnswer schema records (.ok (.loaded records.length)) (.ok (.rows records.length last? none))
  /-- The records before this one have been inserted. -/
  | stopped {k : Nat} {r : Csv.Record} {err : DatabaseError} {last? : Option RecordId}
      {stop? : Option DatabaseError} (here : records[k]? = some r)
      (before : ∀ r ∈ records.take k, ∃ tuple, r.tuple schema = .ok tuple)
      (offends : Offends schema r err stop?) :
    LoadAnswer schema records (.error (.database err)) (.ok (.rows k last? stop?))

/-! ## Stages of a load -/

/-- What is loaded, and where it goes. -/
structure LoadJob where
  /-- The engine before the load. -/
  start : Engine
  txn : TxnId
  table : TableId
  schema : Schema
  /-- The file of the records. -/
  source : Location
  bytes : Bytes
  records : List Csv.Record

namespace LoadJob

variable {j : LoadJob} {calm : Prop} {k : Nat} {e e' : Engine} {l : Load} {c : Call} {tuple : Tuple}
  {ended : Engine.RunEnd} {o : TaskOwner} {task task' : Task} {p : PageId} {last? : Option RecordId}

/-- The rows that the records spell, up to the first that spells none. -/
def rows (j : LoadJob) : List (List Value) :=
  Csv.leadingRows j.schema j.records

/-- What holds when so many records have been inserted; where it is calm, the engine is in order, and the
rows of these records are what the transaction has added. -/
structure Stage (j : LoadJob) (calm : Prop) (k : Nat) (e : Engine) : Prop where
  schema : e.schema j.table = .ok j.schema
  content : e.disk.content j.source = j.bytes
  inside : k ≤ j.rows.length
  gains : calm → ∃ placed, placed.map Prod.snd = j.rows.take k ∧ j.start.Gains e j.txn j.table placed

/-- Whether somebody has left alone what a load needs, and, where it is calm, what it has changed. -/
structure Leaves (j : LoadJob) (calm : Prop) (e e' : Engine) : Prop where
  input : e.KeepsInput e' j.table j.source
  pages : calm → e.Sound → e.Respects e' j.txn

/-- To forget which pages were released leaves everything alone. -/
theorem leaves_unnotified (j : LoadJob) (calm : Prop) (e : Engine) :
    j.Leaves calm e { e with locks.notified := [] } :=
  ⟨⟨rfl, rfl⟩, fun _ sound => sound.respects_unnotified j.txn⟩

theorem Stage.kept (h : j.Stage calm k e) (leaves : j.Leaves calm e e') : j.Stage calm k e' where
  schema := leaves.input.schema.trans h.schema
  content := leaves.input.content.trans h.content
  inside := h.inside
  gains quiet := by
    obtain ⟨placed, rows, gains⟩ := h.gains quiet
    exact ⟨placed, rows, gains.respected (leaves.pages quiet gains.sound)⟩

/-- What it leads to that the next row is inserted. -/
inductive Ran (j : LoadJob) (calm : Prop) (k : Nat) (tuple : Tuple) (e : Engine) :
    Engine.RunEnd → Prop
  | inserted {last : Call} {id : RecordId} {ref : PageRef} (stage : j.Stage calm (k + 1) e) :
    Ran j calm k tuple e (.over last (.ok (.inserted id ref)))
  | failed {last : Call} {err : FileError} (stage : j.Stage calm k e) :
    Ran j calm k tuple e (.over last (.error err))
  | waits {c : Call} {p : PageId} (stage : j.Stage calm k e)
      (insertion : c.IsInsertion j.table tuple) (sound : calm → c.Sound e) :
    Ran j calm k tuple e (.waits c p)

theorem Stage.run (apart : j.table ≠ .file j.source) (h : j.Stage calm k e)
    (insertion : c.IsInsertion j.table tuple) (sound : calm → c.Sound e)
    (row : j.rows[k]? = some tuple.values) (hr : e.run j.txn c = (e', ended)) :
    j.Ran calm k tuple e' ended := by
  obtain ⟨files, ends⟩ := Engine.run_insertion insertion hr
  have schema : e'.schema j.table = .ok j.schema := by
    rw [← h.schema, Engine.schema, Engine.schema, files.catalog]
  have content : e'.disk.content j.source = j.bytes := (files.content _ apart).trans h.content
  have gained : calm → ∃ placed, placed.map Prod.snd = j.rows.take k ∧
      Engine.RunGains j.start e' j.txn j.table tuple placed ended := by
    intro quiet
    obtain ⟨placed, rows, gains⟩ := h.gains quiet
    exact ⟨placed, rows, gains.run insertion (sound quiet) hr⟩
  cases ends with
  | inserted =>
    refine .inserted ⟨schema, content, (List.getElem?_eq_some_iff.mp row).1, fun quiet => ?_⟩
    obtain ⟨placed, rows, gains⟩ := gained quiet
    cases gains with
    | inserted gains =>
      refine ⟨_, ?_, gains⟩
      rw [List.map_append, rows, List.map_singleton, List.take_add_one, row, Option.toList_some]
  | failed =>
    refine .failed ⟨schema, content, h.inside, fun quiet => ?_⟩
    obtain ⟨placed, rows, gains⟩ := gained quiet
    cases gains with
    | failed gains => exact ⟨placed, rows, gains⟩
  | waits insertion =>
    refine .waits ⟨schema, content, h.inside, fun quiet => ?_⟩ insertion fun quiet => ?_
    · obtain ⟨placed, rows, gains⟩ := gained quiet
      cases gains with
      | waits _ gains => exact ⟨placed, rows, gains⟩
    · obtain ⟨_, -, gains⟩ := gained quiet
      cases gains with
      | waits sound => exact sound

/-- Whether a load has read so many records, all of which spell tuples. -/
structure Reaches (j : LoadJob) (k : Nat) (l : Load) : Prop where
  table : l.table = j.table
  schema : l.schema = j.schema
  source : l.source = j.source
  loaded : l.loaded = k
  inside : k ≤ j.records.length
  left : l.stream.Yields j.bytes (j.records.drop k)
  before : ∀ r ∈ j.records.take k, ∃ tuple, r.tuple j.schema = .ok tuple

/-- A load and an insertion of rows, with the same row on its way into the table. -/
inductive Twins (j : LoadJob) (calm : Prop) (k : Nat) (e : Engine) : Task → Task → Prop
  | intro {o : TaskOwner} {c : Call} {l : Load} {r : Csv.Record} {tuple : Tuple}
      (last? : Option RecordId) (txn : o.txn = j.txn) (stage : j.Stage calm k e)
      (reaches : j.Reaches (k + 1) l) (here : j.records[k]? = some r)
      (fits : r.tuple j.schema = .ok tuple) (row : j.rows[k]? = some tuple.values)
      (insertion : c.IsInsertion j.table tuple) (sound : calm → c.Sound e) :
    Twins j calm k e ⟨o, c, .load l⟩ ⟨o, c, .rows j.table (j.rows.drop (k + 1)) k last?⟩

theorem Twins.kept (h : j.Twins calm k e task task') (leaves : j.Leaves calm e e') :
    j.Twins calm k e' task task' := by
  obtain ⟨last?, txn, stage, reaches, here, fits, row, insertion, sound⟩ := h
  refine .intro last? txn (stage.kept leaves) reaches here fits row insertion fun quiet => ?_
  obtain ⟨_, -, gains⟩ := stage.gains quiet
  exact (sound quiet).extends (leaves.pages quiet gains.sound).files

/-- How far a load and an insertion of the same rows have come. -/
inductive Paused (j : LoadJob) (calm : Prop) (s s' : Session) :
    Session × Session.Pause → Session × Session.Pause → Prop
  | waits {e : Engine} {k : Nat} {task task' : Task} {p : PageId}
      (twins : j.Twins calm k e task task') :
    Paused j calm s s' ({ s with engine := e }, .waits ⟨task, p⟩)
      ({ s' with engine := e }, .waits ⟨task', p⟩)
  | ended {e : Engine} {k : Nat} {answer : Except Failure Outcome} {last? : Option RecordId}
      {stop? : Option DatabaseError} (stage : j.Stage calm k e)
      (agree : LoadAnswer j.schema j.records answer (.ok (.rows k last? stop?))) :
    Paused j calm s s' ({ s with engine := e }, .over answer)
      ({ s' with engine := e }, .over (.ok (.rows k last? stop?)))

/-- It makes no difference which engine was there before. -/
theorem Paused.since {s s' : Session} {r r' : Session × Session.Pause}
    (h : j.Paused calm { s with engine := e } { s' with engine := e' } r r') :
    j.Paused calm s s' r r' := by
  cases h with
  | waits twins => exact .waits twins
  | ended stage agree => exact .ended stage agree

/-- What a load of records and an insertion of their rows have told, and how many of these have been
inserted when it has ended. -/
structure Told (j : LoadJob) (calm : Prop) (told told' : List (Except Failure Outcome) × Session) :
    Prop where
  engine : told'.2.engine = told.2.engine
  answers : List.Forall₂ (LoadAnswer j.schema j.records) told.1 told'.1
  stage : ∀ k last? stop?, .ok (.rows k last? stop?) ∈ told'.1 → j.Stage calm k told.2.engine

end LoadJob

namespace Session

variable {j : LoadJob} {calm : Prop} {k : Nat} {e : Engine} {s s' : Session} {l : Load}
  {o : TaskOwner} {task task' : Task} {p : PageId} {last? : Option RecordId} {label : String}
  {t : TxnId}

/-! ## From row to row -/

/-- What is left of a list is its next element, and what is left behind this one. -/
theorem spec_of_drop_eq_cons {α : Type} {xs rest : List α} {x : α} (h : xs.drop k = x :: rest) :
    xs[k]? = some x ∧ xs.drop (k + 1) = rest := by
  constructor
  · rw [← List.head?_drop, h, List.head?_cons]
  · rw [← List.tail_drop, h, List.tail_cons]

/-- The next record is inserted where its row is, and ends the load where it ends the insertion of the
rows. -/
theorem next_load (s s' : Session) (txn : o.txn = j.txn) (engine : s'.engine = s.engine)
    (stage : j.Stage calm k s.engine) (reaches : j.Reaches k l) (last? : Option RecordId) :
    (∃ task task', s.nextRecord o l = (s, .goOn task) ∧
      s'.nextRow o j.table k last? (j.rows.drop k) = (s', .goOn task') ∧
      j.Twins calm k s.engine task task') ∨
    ∃ answer stop?, s.nextRecord o l = (s, .over answer) ∧
      s'.nextRow o j.table k last? (j.rows.drop k) = (s', .over (.ok (.rows k last? stop?))) ∧
      LoadAnswer j.schema j.records answer (.ok (.rows k last? stop?)) := by
  have spell : ∀ r ∈ j.records.take k, ∃ row, r.values j.schema = .ok row := by
    intro r mem
    obtain ⟨tuple, fits⟩ := reaches.before r mem
    rw [Csv.Record.tuple_eq] at fits
    obtain ⟨row, spelt, -⟩ := bind_eq_ok.mp fits
    exact ⟨row, spelt⟩
  have rows : j.rows.drop k = Csv.leadingRows j.schema (j.records.drop k) :=
    Csv.drop_leadingRows spell
  rw [nextRecord, Load.next, reaches.source, stage.content, reaches.schema]
  have yields := reaches.left
  generalize left : j.records.drop k = records at yields
  cases yields with
  | nil ends =>
    -- no record is left, and so no row
    have last : k = j.records.length := Nat.le_antisymm reaches.inside (List.drop_eq_nil_iff.mp left)
    rw [rows, left, ends, Csv.leadingRows, reaches.loaded]
    refine .inr ⟨_, none, rfl, rfl, ?_⟩
    subst last
    exact .loaded fun r mem => reaches.before r (List.take_length.symm ▸ mem)
  | @cons _ stream r records first later =>
    obtain ⟨here, behind⟩ := spec_of_drop_eq_cons left
    rw [first]
    dsimp only
    rw [Csv.Record.tuple_eq, rows, left]
    cases spelt : r.values j.schema with
    | error err =>
      rw [Csv.leadingRows_cons_of_error spelt]
      exact .inr ⟨_, none, rfl, rfl, .stopped here reaches.before (.unspelt spelt)⟩
    | ok row =>
      rw [Csv.leadingRows_cons spelt]
      have columns : s'.engine.schema j.table = .ok j.schema := engine ▸ stage.schema
      simp only [nextRow, Engine.insertCall, columns, bind, Except.bind]
      cases made : Tuple.new j.schema row with
      | error err =>
        exact .inr ⟨_, _, rfl, rfl, .stopped here reaches.before (.misfit spelt made)⟩
      | ok tuple =>
        obtain ⟨-, complete, -⟩ := Tuple.spec_of_new made
        obtain ⟨_, -, eq⟩ := bind_eq_ok.mp made
        obtain rfl := Except.ok.inj eq
        have fits : r.tuple j.schema = .ok ⟨j.schema, row, none⟩ := by
          rw [Csv.Record.tuple_eq, spelt]
          show (Tuple.new j.schema row).mapError DatabaseError.record = _
          rw [made]
          rfl
        have split : j.rows.drop k = row :: Csv.leadingRows j.schema records := by
          rw [rows, left, Csv.leadingRows_cons spelt]
        obtain ⟨head, next⟩ := spec_of_drop_eq_cons split
        refine .inl ⟨_, _, rfl, rfl, ?_⟩
        rw [← next, reaches.table]
        refine .intro last? txn stage ⟨rfl, rfl, rfl, ?_, ?_, behind.symm ▸ later, ?_⟩ here fits head
          .begins fun _ => complete
        · exact congrArg (· + 1) reaches.loaded
        · exact (List.getElem?_eq_some_iff.mp here).1
        · intro r' mem
          rw [List.take_add_one, here, Option.toList_some] at mem
          rcases List.mem_append.mp mem with old | new
          · exact reaches.before r' old
          · exact ⟨_, List.mem_singleton.mp new ▸ fits⟩

/-- Both go on to the same row, or wait for the same page, or are over. -/
theorem advance_load {bound bound' : Nat} (apart : j.table ≠ .file j.source)
    (engine : s'.engine = s.engine) (twins : j.Twins calm k s.engine task task')
    (enough : j.records.length ≤ bound + k) (enough' : j.rows.length ≤ bound' + k) :
    j.Paused calm s s' (advance bound s task) (advance bound' s' task') := by
  induction bound generalizing bound' s s' task task' k with
  | zero =>
    obtain ⟨last?, txn, stage, reaches, here, fits, row, insertion, sound⟩ := twins
    have inside := (List.getElem?_eq_some_iff.mp here).1
    omega
  | succ bound ih =>
    obtain ⟨last?, txn, stage, reaches, here, fits, row, insertion, sound⟩ := twins
    rename_i o c l r tuple
    have inside := (List.getElem?_eq_some_iff.mp row).1
    obtain ⟨bound', rfl⟩ := Nat.exists_eq_succ_of_ne_zero (show bound' ≠ 0 by omega)
    rcases ran : s.engine.run j.txn c with ⟨e, ended⟩
    have leads := stage.run apart insertion sound row ran
    rw [advance, advance, engine, txn, ran]
    cases leads with
    | waits stage insertion sound =>
      exact .waits (.intro last? txn stage reaches here fits row insertion sound)
    | failed stage =>
      refine .ended stage (.stopped here ?_ (.failed fits))
      intro r' mem
      exact reaches.before r' (List.take_subset_take_left _ (Nat.le_succ k) mem)
    | @inserted _ id _ stage =>
      rcases next_load { s with engine := e } { s' with engine := e } txn rfl stage reaches (some id)
        with ⟨task, task', next, next', twins⟩ | ⟨answer, stop?, next, next', agree⟩
      · simp only [settle, next, next']
        refine LoadJob.Paused.since (ih rfl twins ?_ ?_)
        · omega
        · omega
      · simp only [settle, next, next']
        exact .ended stage agree

/-- Neither is cut short: a record takes an octet at least. -/
theorem proceed_load (s s' : Session) (apart : j.table ≠ .file j.source) (engine : s'.engine = s.engine)
    (twins : j.Twins calm k s.engine task task') :
    j.Paused calm s s' (s.proceed task) (s'.proceed task') := by
  rw [proceed, proceed]
  refine advance_load apart engine twins ?_ ?_
  · obtain ⟨last?, txn, stage, reaches, here, fits, row, insertion, sound⟩ := twins
    rename_i o c l r tuple
    have records := Csv.length_records_le l.stream j.bytes
    rw [Csv.Stream.yields_iff.mp reaches.left, List.length_drop] at records
    simp only [callBound, Engine.loadBound, reaches.source, stage.content]
    omega
  · obtain ⟨⟩ := twins
    simp only [callBound, List.length_drop]
    omega

/-! ## What happens beside a load -/

/-- What happens beside a step, and what is told of it then. -/
def aside (s : Session) : Aside → List (Except Failure Outcome) × Session
  | .others work => ([], { s with engine := work s.engine })
  | .wake => (s.wake.2.map Prod.snd, s.wake.1)

/-- What happens beside a step, one after another. -/
def endure : List Aside → Session → List (Except Failure Outcome) × Session
  | [], s => ([], s)
  | m :: asides, s =>
    let (told, s) := s.aside m
    let (more, s) := endure asides s
    (told ++ more, s)

/-- Whether all that others do beside a step is of a kind. -/
def Meanwhile (kind : Engine → Engine → Prop) : List Aside → Session → Prop
  | [], _ => True
  | m :: asides, s => (∀ work, m = .others work → kind s.engine (work s.engine)) ∧
      Meanwhile kind asides (s.aside m).2

/-- Nothing waits, so nothing is told, and no row is added. -/
theorem endure_over {asides : List Aside} (idle : s.waiting = []) (idle' : s'.waiting = [])
    (engine : s'.engine = s.engine) (stage : j.Stage calm k s.engine)
    (leaves : Meanwhile (j.Leaves calm) asides s) :
    (endure asides s).1 = [] ∧ (endure asides s').1 = [] ∧
      (endure asides s').2.engine = (endure asides s).2.engine ∧
      j.Stage calm k (endure asides s).2.engine := by
  induction asides generalizing s s' with
  | nil => exact ⟨rfl, rfl, engine, stage⟩
  | cons m asides ih =>
    obtain ⟨here, later⟩ := leaves
    cases m with
    | others work => exact ih idle idle' (congrArg work engine) (stage.kept (here work rfl)) later
    | wake =>
      have woken : ∀ s : Session, s.waiting = [] →
          s.aside .wake = ([], { s with engine.locks.notified := [], waiting := [] }) := by
        intro s idle
        simp only [aside, wake, idle, List.foldl_nil, List.map_nil]
      simp only [endure, woken s idle, woken s' idle'] at later ⊢
      exact ih rfl rfl (by rw [engine]) (stage.kept (j.leaves_unnotified calm s.engine)) later

theorem told_over {asides : List Aside} {answer : Except Failure Outcome} {stop? : Option DatabaseError}
    (idle : s.waiting = []) (idle' : s'.waiting = []) (engine : s'.engine = s.engine)
    (stage : j.Stage calm k s.engine) (leaves : Meanwhile (j.Leaves calm) asides s)
    (agree : LoadAnswer j.schema j.records answer (.ok (.rows k last? stop?))) :
    j.Told calm (answer :: (endure asides s).1, (endure asides s).2)
      (.ok (.rows k last? stop?) :: (endure asides s').1, (endure asides s').2) := by
  obtain ⟨silent, silent', engine, stage⟩ := endure_over idle idle' engine stage leaves
  rw [silent, silent']
  refine ⟨engine, .cons agree .nil, fun k' last?' stop?' mem => ?_⟩
  cases List.mem_singleton.mp mem
  exact stage

/-- What waits in both sessions is taken up again alike. -/
theorem endure_load (s s' : Session) {asides : List Aside} (apart : j.table ≠ .file j.source)
    (waiting : s.waiting = [⟨task, p⟩]) (waiting' : s'.waiting = [⟨task', p⟩])
    (engine : s'.engine = s.engine) (twins : j.Twins calm k s.engine task task')
    (leaves : Meanwhile (j.Leaves calm) asides s) :
    j.Told calm (endure asides s) (endure asides s') := by
  induction asides generalizing s s' task task' p k with
  | nil => exact ⟨engine, .nil, nofun⟩
  | cons m asides ih =>
    obtain ⟨here, later⟩ := leaves
    cases m with
    | others work =>
      exact ih _ _ waiting waiting' (congrArg work engine) (twins.kept (here work rfl)) later
    | wake =>
      have twins := twins.kept (j.leaves_unnotified calm s.engine)
      simp only [endure, aside, wake, waiting, waiting', List.foldl_cons, List.foldl_nil, engine]
        at later ⊢
      by_cases released : p ∈ s.engine.locks.notified
      · simp only [if_pos released] at later ⊢
        have paused := proceed_load { s with engine.locks.notified := [], waiting := [] }
          { s' with engine := { s.engine with locks.notified := [] }, waiting := [] } apart rfl twins
        generalize proceed _ task = r, proceed _ task' = r' at paused later ⊢
        cases paused with
        | waits twins => exact ih _ _ rfl rfl rfl twins later
        | ended stage agree => exact told_over rfl rfl rfl stage later agree
      · simp only [if_neg released] at later ⊢
        exact ih _ _ rfl rfl rfl twins later

/-! ## The whole of a load -/

/-- A step with what happens beside it: what is told, and the session then. -/
def perform (step : SessionM Outcome) (asides : List Aside) (s : Session) :
    List (Except Failure Outcome) × Session :=
  let (first, s) := step.run.run s
  let (later, s) := endure asides s
  (first :: later, s)

/-- What a step answers at first, and the session then. -/
def answered : Session × Pause → Except Failure Outcome × Session
  | (s, .waits w) => (.ok .blocked, s.suspend w)
  | (s, .over result) => (result, s)

theorem run_take (first : Session → TaskOwner → Session × Follow) :
    (take label t first).run.run s = answered (carryOn (first s ⟨s.clock, label, t⟩)) := by
  show (ExceptT.run (match carryOn (first s ⟨s.clock, label, t⟩) with
    | (s, .waits w) => do
      set (s.suspend w)
      return .blocked
    | (s, .over result) => do
      set s
      lift id result : SessionM Outcome)).run s = _
  rcases carryOn (first s ⟨s.clock, label, t⟩) with ⟨s', pause⟩
  match pause with
  | .waits w => rfl
  | .over (.ok outcome) | .over (.error err) => rfl

/-- What a load begins with. -/
theorem startLoad_eq_ok {table : TableId} {path : Path} {delimiter : UInt8}
    (h : e.startLoad table path delimiter = .ok l) :
    e.schema table = .ok l.schema ∧ l = ⟨table, l.schema, l.source, { delimiter }, 0⟩ := by
  obtain ⟨schema, columns, h⟩ := bind_eq_ok.mp h
  split at h
  · obtain rfl := Except.ok.inj h
    exact ⟨columns, rfl⟩
  · cases h

section Begun

variable (named : s.txn? label = .ok t) (opened : s.isOpen = true)

include named opened

/-- A load that cannot begin, because there is no such table or no such file, changes nothing. -/
theorem run_load (table : TableId) (text : String) (delimiter : UInt8) :
    (load label table text delimiter).run.run s =
      match s.engine.startLoad table (s.path text) delimiter with
      | .ok l => (take label t fun s o => s.nextRecord o l).run.run s
      | .error err => (.error (.database err), s) := by
  rw [load, run_bind, run_txn named]
  dsimp only
  rw [run_bind, run_database, opened, if_pos rfl]
  dsimp only
  rw [run_bind, run_get]
  dsimp only
  rw [run_bind, run_lift]
  cases s.engine.startLoad table (s.path text) delimiter with
  | ok l => rfl
  | error err => rfl

theorem run_insertRows (table : TableId) (rows : List (List Value)) :
    (insertRows label table rows).run.run s
      = (take label t fun s o => s.nextRow o table 0 none rows).run.run s := by
  rw [insertRows, run_bind, run_txn named]
  dsimp only
  rw [run_bind, run_database, opened]
  rfl

end Begun

/-- Both steps begin alike, and what happens beside them is told alike. -/
theorem told_perform {step step' : SessionM Outcome} {asides : List Aside} {r r' : Session × Pause}
    (apart : j.table ≠ .file j.source) (idle : s.waiting = []) (paused : j.Paused calm s s r r')
    (first : step.run.run s = answered r) (first' : step'.run.run s = answered r')
    (leaves : Meanwhile (j.Leaves calm) asides (step.run.run s).2) :
    j.Told calm (perform step asides s) (perform step' asides s) := by
  rw [first] at leaves
  rw [perform, perform, first, first']
  cases paused with
  | ended stage agree => exact told_over idle idle rfl stage leaves agree
  | waits twins =>
    rename_i e k task task' p
    have alone : ∀ w, ({ s with engine := e }.suspend w).waiting = [w] := by
      intro w
      simp only [suspend, idle, List.nil_append]
    obtain ⟨engine, answers, stage⟩ := endure_load ({ s with engine := e }.suspend ⟨task, p⟩)
      ({ s with engine := e }.suspend ⟨task', p⟩) apart (alone _) (alone _) rfl twins leaves
    refine ⟨engine, .cons .blocked answers, fun k last? stop? mem => stage k last? stop? ?_⟩
    rcases List.mem_cons.mp mem with eq | later
    · cases eq
    · exact later

/-- What others leave in all respects. -/
theorem Meanwhile.leaves {asides : List Aside}
    (input : Meanwhile (·.KeepsInput · j.table j.source) asides s)
    (pages : calm → Meanwhile (fun e e' => e.Sound → e.Respects e' j.txn) asides s) :
    Meanwhile (j.Leaves calm) asides s := by
  induction asides generalizing s with
  | nil => trivial
  | cons m asides ih =>
    obtain ⟨here, later⟩ := input
    exact ⟨fun work eq => ⟨here work eq, fun quiet => (pages quiet).1 work eq⟩,
      ih later fun quiet => (pages quiet).2⟩

/-- **A load is a fold of insertions.** In a session in which no step waits, load the records of a file
that is not the table's own, or insert the rows that they spell, one after another; a row has the leading
fields of its record, each read as its column's type tells. Whatever others do meanwhile that leaves the
file and the columns as they are, both leave the same engine behind. The load counts all records if each
of them spells a tuple that is inserted; otherwise it fails with the error of the first one that does not,
and the records before this one, and no others, have been inserted. If the engine is in order, and others
leave the pages alone that the transaction has changed, then it has added the rows of these records to the
table, and nothing else; and after an abort none of them is left. -/
theorem load_eq_insertRows {table : TableId} {text : String} {delimiter : UInt8} {asides : List Aside}
    {records : List Csv.Record} {told told' : List (Except Failure Outcome) × Session}
    (idle : s.waiting = []) (named : s.txn? label = .ok t) (opened : s.isOpen = true)
    (starts : s.engine.startLoad table (s.path text) delimiter = .ok l) (apart : table ≠ .file l.source)
    (read : Csv.read delimiter (s.engine.disk.content l.source) = records)
    (input : Meanwhile (·.KeepsInput · table l.source) asides
      ((load label table text delimiter).run.run s).2)
    (loading : perform (load label table text delimiter) asides s = told)
    (inserting : perform (insertRows label table (Csv.leadingRows l.schema records)) asides s = told') :
    told'.2.engine = told.2.engine ∧ List.Forall₂ (LoadAnswer l.schema records) told.1 told'.1 ∧
    (∀ (i : Nat) (row : List Value), (Csv.leadingRows l.schema records)[i]? = some row →
      ∃ (r : Csv.Record) (texts : List String), records[i]? = some r ∧ r.texts? = some texts ∧
        List.Forall₂ (fun field v => Csv.Spells field.1 field.2 v) (texts.zip l.schema.types) row) ∧
    (s.engine.Sound → Meanwhile (fun e e' => e.Sound → e.Respects e' t) asides
        ((load label table text delimiter).run.run s).2 →
      ∀ k last? stop?, .ok (.rows k last? stop?) ∈ told'.1 → ∃ placed, placed.length = k ∧
        placed.map Prod.snd = (Csv.leadingRows l.schema records).take k ∧
        s.engine.Gains told.2.engine t table placed ∧
        ∃ aborted, told.2.engine.complete t false = (aborted, .ok ()) ∧ ∀ row ∈ placed,
          aborted.currentRow row.1 =
            if s.engine.owner? row.1.page = some t then s.engine.storedRow row.1 else none) := by
  obtain ⟨columns, begun⟩ := startLoad_eq_ok starts
  let j : LoadJob := ⟨s.engine, t, table, l.schema, l.source, s.engine.disk.content l.source, records⟩
  let calm := s.engine.Sound ∧ Meanwhile (fun e e' => e.Sound → e.Respects e' t) asides
    ((load label table text delimiter).run.run s).2
  have stage : j.Stage calm 0 s.engine := by
    refine ⟨columns, rfl, Nat.zero_le _, fun quiet => ⟨[], rfl, quiet.1.gains t table⟩⟩
  have reaches : j.Reaches 0 l := by
    have left : l.stream.Yields (s.engine.disk.content l.source) records := by
      rw [begun]
      exact Csv.Stream.yields_iff.mpr ((Csv.Stream.records_new ..).trans read)
    refine ⟨?_, rfl, rfl, ?_, Nat.zero_le _, left, fun r mem => absurd mem List.not_mem_nil⟩
    · rw [begun]
    · rw [begun]
  have paused : j.Paused calm s s (carryOn (s.nextRecord ⟨s.clock, label, t⟩ l))
      (carryOn (s.nextRow ⟨s.clock, label, t⟩ table 0 none (Csv.leadingRows l.schema records))) := by
    rcases next_load s s (o := ⟨s.clock, label, t⟩) rfl rfl stage reaches none with
      ⟨task, task', next, next', twins⟩ | ⟨answer, stop?, next, next', agree⟩
    · have both := proceed_load s s apart rfl twins
      rw [next]
      exact (congrArg carryOn next') ▸ both
    · rw [next]
      exact (congrArg carryOn next') ▸ .ended stage agree
  have first : (load label table text delimiter).run.run s
      = answered (carryOn (s.nextRecord ⟨s.clock, label, t⟩ l)) := by
    rw [run_load named opened, starts]
    exact run_take _
  have first' := (run_insertRows named opened table (Csv.leadingRows l.schema records)).trans (run_take _)
  have spared : Meanwhile (j.Leaves calm) asides ((load label table text delimiter).run.run s).2 :=
    input.leaves fun quiet => quiet.2
  have all := told_perform (j := j) apart idle paused first first' spared
  rw [loading, inserting] at all
  obtain ⟨engine, answers, stages⟩ := all
  refine ⟨engine, answers, fun i row => Csv.exists_spelling, fun sound pages k last? stop? mem => ?_⟩
  have stage := stages k last? stop? mem
  obtain ⟨placed, rows, gains⟩ := stage.gains ⟨sound, pages⟩
  refine ⟨placed, ?_, rows, gains, gains.aborted⟩
  rw [← List.length_map (f := Prod.snd), rows, List.length_take]
  exact Nat.min_eq_left stage.inside

/-- An abort changes no table and no file. -/
theorem keepsInput_abort (e : Engine) (t : TxnId) (table : TableId) (source : Location) :
    e.KeepsInput (e.complete t false).1 table source := by
  have read : ∀ (ps : List PageId) (e : Engine),
      (ps.foldl (Engine.revertPage ∅) e).catalog = e.catalog ∧
      (ps.foldl (Engine.revertPage ∅) e).disk = e.disk := by
    intro ps
    induction ps with
    | nil => exact fun _ => ⟨rfl, rfl⟩
    | cons p ps ih =>
      intro e
      rw [List.foldl_cons, Engine.revertPage_eq]
      exact ih _
  obtain ⟨catalog, disk⟩ := read (e.pool.dirtiedBy t) e
  have catalog : (e.complete t false).1.catalog = e.catalog := catalog
  have disk : (e.complete t false).1.disk = e.disk := disk
  exact ⟨by rw [Engine.schema, Engine.schema, catalog], by rw [disk]⟩

/-- A file of four records. The second one has a field too many, and the third one spells no number. -/
def scrawl : Bytes :=
  [0x31, 0x0A, 0x20, 0x32, 0x20, 0x2C, 0x78, 0x0A, 0x7A, 0x0A, 0x34]

/-- An engine with this file, and a table of one page without rows. -/
def blank : Engine :=
  { Engine.sample with
    disk := ((FileTree.empty "").write ["t"] [0, 0, 0, 0, 0, 0, 0, 0, 0]).write ["c"] scrawl }

/-- A session with this engine, where somebody else has locked the page. -/
def guarded : Session :=
  { start "" with
    engine := (blank.getPage ⟨2⟩ ⟨numbers.id, 0⟩ .readWrite).1
    isOpen := true
    labels := (∅ : FinMap String TxnId).insert "a" ⟨1⟩ }

/-- The one who has locked the page goes. -/
def unguarding : List Aside :=
  [.others fun e => (e.complete ⟨2⟩ false).1, .wake]

/-- Whether a step waits, or else how many rows it has inserted, if nothing has stopped it. -/
def inserted? : Except Failure Outcome → Option (Option Nat)
  | .ok .blocked => some none
  | .ok (.rows count _ none) => some (some count)
  | _ => none

/-- What is answered where an insertion of rows has waited, and then inserted all of them. -/
theorem exists_of_inserted? {schema : Schema} {records : List Csv.Record} {n : Nat}
    {told told' : List (Except Failure Outcome)}
    (answers : List.Forall₂ (LoadAnswer schema records) told told')
    (inserted : told'.map inserted? = [some none, some (some n)]) :
    ∃ answer last?, told = [.ok .blocked, answer] ∧
      told' = [.ok .blocked, .ok (.rows n last? none)] ∧
      LoadAnswer schema records answer (.ok (.rows n last? none)) := by
  cases answers with
  | nil => cases inserted
  | cons first later =>
    obtain ⟨waits, others⟩ := List.cons.inj inserted
    cases first with
    | loaded => cases waits
    | stopped _ _ offends => cases offends with | _ => cases waits
    | blocked =>
      cases later with
      | nil => cases others
      | cons second later =>
        obtain ⟨all, nothing⟩ := List.cons.inj others
        obtain rfl := List.map_eq_nil_iff.mp nothing
        cases later
        cases second with
        | blocked => cases all
        | loaded fits =>
          cases all
          exact ⟨_, _, rfl, rfl, .loaded fits⟩
        | stopped here before offends =>
          cases offends with
          | misfit | failed => cases all
          | unspelt unspelt =>
            cases all
            exact ⟨_, _, rfl, rfl, .stopped here before (.unspelt unspelt)⟩

/-- The load has to wait first, then inserts two rows, and fails at the third record; after an abort
neither row is left. -/
theorem load_eq_insertRows_guarded : ∃ told placed,
    perform (load "a" numbers.id "c" 0x2C) unguarding guarded = told ∧
    told.1 = [.ok .blocked, .error (.database (.field 3 "z" .int))] ∧
    placed.map Prod.snd = [[.int 1], [.int 2]] ∧
    guarded.engine.Gains told.2.engine ⟨1⟩ numbers.id placed ∧
    ∃ aborted, told.2.engine.complete ⟨1⟩ false = (aborted, .ok ()) ∧
      ∀ row ∈ placed, aborted.currentRow row.1 = none := by
  have fresh : blank.Fresh :=
    ⟨Engine.fresh_sample.storable, Engine.fresh_sample.pool, Engine.fresh_sample.locks⟩
  have fetches : blank.Fetches guarded.engine ⟨2⟩ :=
    (Engine.fetches_getPage fresh.sound.toCoherent
      (rfl : blank.getPage ⟨2⟩ ⟨numbers.id, 0⟩ .readWrite = (guarded.engine, _))).1
  have sound : guarded.engine.Sound := fetches.sound fresh.sound
  have unchanged : ∀ p, guarded.engine.owner? p = none := fun p =>
    (congrFun fetches.owner p).trans (fresh.owner?_eq_none p)
  have rows : Csv.leadingRows numbers.schema (Csv.read 0x2C scrawl) = [[.int 1], [.int 2]] := by
    decide +kernel
  have starts : guarded.engine.startLoad numbers.id (guarded.path "c") 0x2C
      = .ok ⟨numbers.id, numbers.schema, ["c"], { delimiter := 0x2C }, 0⟩ := rfl
  have input : Meanwhile (·.KeepsInput · numbers.id ["c"]) unguarding
      ((load "a" numbers.id "c" 0x2C).run.run guarded).2 := by
    refine ⟨fun work eq => ?_, nofun, trivial⟩
    obtain rfl := Aside.others.inj eq
    exact keepsInput_abort ..
  obtain ⟨-, answers, -, gains⟩ :=
    load_eq_insertRows (t := ⟨1⟩) rfl rfl rfl starts (by decide)
      (rfl : Csv.read 0x2C (guarded.engine.disk.content ["c"]) = Csv.read 0x2C scrawl) input rfl rfl
  have pages : Meanwhile (fun e e' => e.Sound → e.Respects e' ⟨1⟩) unguarding
      ((load "a" numbers.id "c" 0x2C).run.run guarded).2 := by
    refine ⟨fun work eq sound => ?_, nofun, trivial⟩
    obtain rfl := Aside.others.inj eq
    exact sound.respects_complete (by decide) false ∅
  have inserted : (perform (insertRows "a" numbers.id (Csv.leadingRows numbers.schema (Csv.read 0x2C scrawl)))
      unguarding guarded).1.map inserted? = [some none, some (some 2)] := by
    decide +kernel
  obtain ⟨answer, last?, loading, inserting, agree⟩ := exists_of_inserted? answers inserted
  obtain ⟨placed, -, values, gained, aborted, ended, left⟩ :=
    gains sound pages 2 last? none (by simp [inserting])
  refine ⟨_, placed, rfl, ?_, ?_, gained, aborted, ended, fun row mem => ?_⟩
  · rw [loading]
    cases agree with
    | stopped here _ offends =>
      cases offends with
      | unspelt unspelt =>
        have third : (Csv.read 0x2C scrawl)[2]? = some ⟨3, [[0x7A]]⟩ := rfl
        have wrong : Csv.Record.values ⟨3, [[0x7A]]⟩ numbers.schema = .error (.field 3 "z" .int) := by
          decide +kernel
        obtain rfl := Option.some.inj (here.symm.trans third)
        cases unspelt.symm.trans wrong
        rfl
  · exact values.trans (congrArg (List.take 2) rows)
  · rw [left row mem, unchanged, if_neg nofun]

end Session

end RowStore
