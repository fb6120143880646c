import RowStore.Proofs.Engine.Opening
import RowStore.Proofs.Scan.Advance
import RowStore.Session.Rows

/-! # Scans of a table
A session that is asked to use a scan searches for records first, and then does what is wanted
(`ask_eq`). An open scan stands before the rows that are left (`Stands`): to go back, to look ahead and
to take a record each come to what they would be on this list (`ask_rewind`, `ask_hasNext`, `ask_next`).
So a scan answers like the list of the rows of its table, however often it is asked for what, and
whoever fetches pages in between (`scan_exact`). -/

namespace RowStore

/-- What is asked of an open scan. -/
inductive ScanAsk where
  /-- To go back before the first record. -/
  | rewind
  /-- Whether there is a record left. -/
  | hasNext
  /-- The next record. -/
  | next

namespace ScanAsk

/-- What a step of a session wants of the scan. -/
def aim : ScanAsk → ScanAim
  | rewind => .start
  | hasNext => .hasNext
  | next => .next

/-- Where the cursor goes on from. -/
def start (c : Cursor) : ScanAsk → Cursor
  | rewind => c.opened
  | hasNext | next => c

/-- The answer of a scan whose cursor has looked for records, and the scan then. -/
def answer (scan : Scan) (more : Bool) : ScanAsk → Except Failure Outcome × Scan
  | rewind => (.ok .done, scan)
  | hasNext => (.ok (.truth more), scan)
  | next => ((scan.take.2.map Outcome.tuple).mapError Failure.file, scan.take.1)

end ScanAsk

namespace Session

variable {s s' : Session} {label name : String} {t : TxnId} {used : OwnedScan} {a : ScanAsk}
  {f : HeapFile}

/-! ## Steps of a session -/

theorem run_txn (named : s.txn? label = .ok t) : (txn label).run.run s = (.ok t, s) := by
  show (lift id (s.txn? label)).run.run s = _
  rw [named]
  rfl

theorem run_scan (named : s.scans.get? name = some used)
    (free : s.waiting.any (·.usesScan used) = false) : (scan name).run.run s = (.ok used, s) := by
  rw [scan, run_bind, run_get]
  simp only [named, free]
  rfl

theorem run_call (c : Call) (goal : Goal) : (call label t c goal).run.run s =
    match s.proceed ⟨⟨s.clock, label, t⟩, c, goal⟩ with
    | (s, .waits w) => (.ok .blocked, s.suspend w)
    | (s, .over result) => (result, s) := by
  show (ExceptT.run (match s.proceed ⟨⟨s.clock, label, t⟩, c, goal⟩ with
    | (s, .waits w) => do
      set (s.suspend w)
      return .blocked
    | (s, .over result) => do
      set s
      lift id result : SessionM Outcome)).run s = _
  rcases s.proceed ⟨⟨s.clock, label, t⟩, c, goal⟩ with ⟨s', pause⟩
  match pause with
  | .waits w => rfl
  | .over (.ok outcome) | .over (.error err) => rfl

/-- What a session answers when something is asked of a scan, and what it is like then. -/
def ask (s : Session) (label name : String) (a : ScanAsk) : Except Failure Outcome × Session :=
  (useScanFor label name a.aim).run.run s

/-- Whether a scan can be used under a name. -/
structure Offers (s : Session) (label name : String) (used : OwnedScan) : Prop where
  txn : ∃ t, s.txn? label = .ok t
  scan : s.scans.get? name = some used
  free : s.waiting.any (·.usesScan used) = false

/-- A scan is used by a search for records, and then by what is wanted of it. -/
theorem ask_eq (h : s.Offers label name used) : s.ask label name a =
    match s.proceed ⟨⟨s.clock, label, used.owner⟩, .advance (a.start used.scan.cursor),
      .scan name { used with scan.cursor := a.start used.scan.cursor } a.aim⟩ with
    | (s, .waits w) => (.ok .blocked, s.suspend w)
    | (s, .over result) => (result, s) := by
  obtain ⟨t, named⟩ := h.txn
  rw [ask, useScanFor, run_bind, run_txn named]
  dsimp only
  rw [run_bind, run_scan h.scan h.free]
  cases a with
  | rewind | hasNext | next => exact run_call ..

/-- The answer when the search for records is over. -/
theorem ask_of_run (h : s.Offers label name used) {e : Engine} {last : Call} {c : Cursor}
    {more : Bool} (ran : s.engine.run used.owner (.advance (a.start used.scan.cursor))
      = (e, .over last (.ok (.advanced c more)))) :
    s.ask label name a = ((a.answer { used.scan with cursor := c } more).1,
      { s with engine := e }.setScan name
        { used with scan := (a.answer { used.scan with cursor := c } more).2 }) := by
  have back : ∀ scan, { s with engine := e }.putBack name { used with scan }
      = { s with engine := e }.setScan name { used with scan } := by
    intro scan
    rw [putBack]
    simp only [h.scan, if_true]
  rw [ask_eq h, proceed, callBound, advance]
  simp only [ran, settle, nextScan]
  cases a with
  | rewind | hasNext | next => simp only [ScanAsk.aim, useScan, finished, back, ScanAsk.answer]

/-- A scan can be used again when it has been used. -/
theorem Offers.setScan (h : s.Offers label name used) (e : Engine) (scan : Scan) :
    ({ s with engine := e }.setScan name { used with scan }).Offers label name
      { used with scan } where
  txn := h.txn
  scan := FinMap.get?_insert_self ..
  free := h.free

/-! ## What is asked of a scan -/

/-- Whether a scan of a file, for a transaction, can be used under a name, and its cursor is here. -/
structure Scans (s : Session) (label name : String) (t : TxnId) (c : Cursor) : Prop where
  offers : ∃ used, s.Offers label name used ∧ used.owner = t ∧ used.scan = ⟨c, none⟩
  readable : s.engine.Readable t c.file

/-- Whether the cursor is open, with these rows left. -/
def Stands (s : Session) (label name : String) (t : TxnId) (f : HeapFile)
    (rest : List (Option RecordId × List Value)) : Prop :=
  ∃ place, s.Scans label name t ⟨f, some place⟩ ∧ place.left s.engine f = rest

variable {rest : List (Option RecordId × List Value)} {row : Option RecordId × List Value}

/-- What is common to all that is asked of a scan: the cursor looks for records first. -/
theorem ask_of_scans {c : Cursor} {place : CursorPosition} (h : s.Scans label name t c)
    (file : c.file = f) (begins : a.start c = ⟨f, some place⟩) :
    ∃ (reached : CursorPosition) (scan : Scan), (s.ask label name a).1
        = (a.answer ⟨⟨f, some reached⟩, none⟩ (!(place.left s.engine f).isEmpty)).1 ∧
      scan = (a.answer ⟨⟨f, some reached⟩, none⟩ (!(place.left s.engine f).isEmpty)).2 ∧
      s.engine.Calm (s.ask label name a).2.engine t f ∧
      reached.left (s.ask label name a).2.engine f = place.left s.engine f ∧
      (reached.buffered = [] → place.left s.engine f = []) ∧
      ∀ c, scan = ⟨c, none⟩ → c.file = f → (s.ask label name a).2.Scans label name t c := by
  subst file
  obtain ⟨⟨used, offers, rfl, scan⟩, readable⟩ := h
  obtain ⟨e, reached, last, ran, calm, left, ready⟩ := Engine.run_advance readable place
  rw [← begins] at ran
  have asked := ask_of_run (a := a) offers (by rw [scan]; exact ran)
  rw [scan] at asked
  rw [asked]
  refine ⟨reached, _, rfl, rfl, calm, left, ready, ?_⟩
  intro c' plain file
  exact ⟨⟨_, offers.setScan e _, rfl, plain⟩, file ▸ calm.readable⟩

/-- A scan that is rewound stands before the first row. -/
theorem ask_rewind {c : Cursor} (h : s.Scans label name t c) (file : c.file = f) :
    (s.ask label name .rewind).1 = .ok .done ∧
      s.engine.Calm (s.ask label name .rewind).2.engine t f ∧
      (s.ask label name .rewind).2.Stands label name t f
        ((s.engine.listing f).map PlacedRow.told) := by
  have begins : ScanAsk.rewind.start c = ⟨f, some ⟨0, []⟩⟩ := by
    rw [ScanAsk.start, Cursor.opened, file]
  obtain ⟨reached, scan, answer, rfl, calm, left, -, scans⟩ := ask_of_scans h file begins
  exact ⟨answer, calm, reached, scans _ rfl rfl, left⟩

/-- Whether there is a record left is whether there is a row left. -/
theorem ask_hasNext (h : s.Stands label name t f rest) :
    (s.ask label name .hasNext).1 = .ok (.truth (!rest.isEmpty)) ∧
      s.engine.Calm (s.ask label name .hasNext).2.engine t f ∧
      (s.ask label name .hasNext).2.Stands label name t f rest := by
  obtain ⟨place, scans, rfl⟩ := h
  obtain ⟨reached, scan, answer, rfl, calm, left, -, scans⟩ :=
    ask_of_scans (a := .hasNext) scans rfl rfl
  exact ⟨answer, calm, reached, scans _ rfl rfl, left⟩

/-- The next record is that of the first row that is left. -/
theorem ask_next (h : s.Stands label name t f (row :: rest)) :
    (∃ tuple, (s.ask label name .next).1 = .ok (.tuple tuple) ∧ tuple.row = row) ∧
      s.engine.Calm (s.ask label name .next).2.engine t f ∧
      (s.ask label name .next).2.Stands label name t f rest := by
  obtain ⟨place, scans, rows⟩ := h
  obtain ⟨reached, scan, answer, stays, calm, left, ready, scans⟩ :=
    ask_of_scans (a := .next) scans rfl rfl
  rw [rows] at left ready
  obtain ⟨tuple, after, taken, first, others⟩ :=
    Scan.take_of_left (s := ⟨⟨f, some reached⟩, none⟩) rfl rfl left
      (fun nothing => nomatch ready nothing)
  rw [ScanAsk.answer, taken] at answer stays
  exact ⟨⟨tuple, answer, first⟩, calm, after, scans _ stays rfl, others⟩

/-- Behind the last row there is no next record. -/
theorem ask_next_of_nil (h : s.Stands label name t f []) :
    (s.ask label name .next).1 = .error (.file .noSuchElement) ∧
      s.engine.Calm (s.ask label name .next).2.engine t f ∧
      (s.ask label name .next).2.Stands label name t f [] := by
  obtain ⟨place, scans, rows⟩ := h
  obtain ⟨reached, scan, answer, stays, calm, left, -, scans⟩ :=
    ask_of_scans (a := .next) scans rfl rfl
  rw [rows] at left
  have taken := Scan.take_of_left_eq_nil (s := ⟨⟨f, some reached⟩, none⟩) rfl left
  rw [ScanAsk.answer, taken] at answer stays
  exact ⟨answer, calm, reached, scans _ stays rfl, left⟩

/-! ## Runs -/

/-- What others may do while a scan is open: nobody else uses it, and the table is left alone. -/
structure Undisturbed (s s' : Session) (label name : String) (t : TxnId) (f : HeapFile) : Prop where
  txn : ∃ u, s'.txn? label = .ok u
  scan : s'.scans.get? name = s.scans.get? name
  free : ∀ used, s'.scans.get? name = some used → s'.waiting.any (·.usesScan used) = false
  calm : s.engine.Calm s'.engine t f

/-- What is asked of a scan, and answered, while others may be at work in between. -/
inductive Scanning (label name : String) (t : TxnId) (f : HeapFile) :
    Session → List ScanAsk → List (Except Failure Outcome) → Prop
  | stop {s : Session} : Scanning label name t f s [] []
  | ask {s : Session} {a : ScanAsk} {asks : List ScanAsk} {answers : List (Except Failure Outcome)}
      (later : Scanning label name t f (s.ask label name a).2 asks answers) :
    Scanning label name t f s (a :: asks) ((s.ask label name a).1 :: answers)
  | others {s s' : Session} {asks : List ScanAsk} {answers : List (Except Failure Outcome)}
      (quiet : s.Undisturbed s' label name t f) (later : Scanning label name t f s' asks answers) :
    Scanning label name t f s asks answers

end Session

/-- The answers of a list of rows of which these are left. -/
inductive Answers (all : List PlacedRow) :
    List PlacedRow → List ScanAsk → List (Except Failure Outcome) → Prop
  | stop {rest : List PlacedRow} : Answers all rest [] []
  | rewind {rest : List PlacedRow} {asks : List ScanAsk} {answers : List (Except Failure Outcome)}
      (later : Answers all all asks answers) :
    Answers all rest (.rewind :: asks) (.ok .done :: answers)
  | hasNext {rest : List PlacedRow} {asks : List ScanAsk} {answers : List (Except Failure Outcome)}
      (later : Answers all rest asks answers) :
    Answers all rest (.hasNext :: asks) (.ok (.truth (!rest.isEmpty)) :: answers)
  | next {r : RecordId} {values : List Value} {rest : List PlacedRow} {tuple : Tuple}
      {asks : List ScanAsk} {answers : List (Except Failure Outcome)} (id : tuple.id? = some r)
      (same : tuple.values = values) (later : Answers all rest asks answers) :
    Answers all ((r, values) :: rest) (.next :: asks) (.ok (.tuple tuple) :: answers)
  | nothing {asks : List ScanAsk} {answers : List (Except Failure Outcome)}
      (later : Answers all [] asks answers) :
    Answers all [] (.next :: asks) (.error (.file .noSuchElement) :: answers)

namespace Session

variable {s s' : Session} {label name : String} {t : TxnId} {f : HeapFile} {c : Cursor}
  {asks : List ScanAsk} {answers : List (Except Failure Outcome)}

/-- What others do leaves an open scan where it is. -/
theorem Undisturbed.stands {rest : List (Option RecordId × List Value)}
    (h : s.Undisturbed s' label name t f) (stands : s.Stands label name t f rest) :
    s'.Stands label name t f rest := by
  obtain ⟨place, ⟨⟨used, offers, owner, scan⟩, -⟩, rfl⟩ := stands
  have still := h.scan.trans offers.scan
  exact ⟨place, ⟨⟨used, ⟨h.txn, still, h.free used still⟩, owner, scan⟩, h.calm.readable⟩,
    h.calm.left place⟩

/-- Whoever fetches a page to read it does not disturb a scan. -/
theorem Scans.undisturbed_fetch (h : s.Scans label name t c) (u : TxnId) (p : PageId) :
    s.Undisturbed { s with engine := (s.engine.getPage u p .readOnly).1 } label name t c.file := by
  obtain ⟨⟨used, offers, -⟩, readable⟩ := h
  refine ⟨offers.txn, rfl, ?_, Engine.calm_getPage readable rfl⟩
  intro used' here
  obtain rfl := Option.some.inj (offers.scan.symm.trans here)
  exact offers.free

/-- Whatever is asked of a scan, there are answers. -/
theorem exists_scanning (s : Session) (label name : String) (t : TxnId) (f : HeapFile)
    (asks : List ScanAsk) : ∃ answers, Scanning label name t f s asks answers := by
  induction asks generalizing s with
  | nil => exact ⟨[], .stop⟩
  | cons a asks ih =>
    obtain ⟨answers, later⟩ := ih (s.ask label name a).2
    exact ⟨_, .ask later⟩

/-- An open scan answers like the list of the rows that are left. -/
theorem answers_of_scanning (h : Scanning label name t f s asks answers) {all rest : List PlacedRow}
    (listing : s.engine.listing f = all)
    (stands : s.Stands label name t f (rest.map PlacedRow.told)) : Answers all rest asks answers := by
  induction h generalizing rest with
  | stop => exact .stop
  | others quiet later ih =>
    exact ih (quiet.calm.listing.trans listing) (quiet.stands stands)
  | @ask s a asks answers later ih =>
    cases a with
    | rewind =>
      obtain ⟨place, scans, -⟩ := stands
      obtain ⟨answer, calm, stands⟩ := ask_rewind scans rfl
      rw [answer]
      exact .rewind (ih (calm.listing.trans listing) (listing ▸ stands))
    | hasNext =>
      obtain ⟨answer, calm, stands⟩ := ask_hasNext stands
      rw [answer, List.isEmpty_map]
      exact .hasNext (ih (calm.listing.trans listing) stands)
    | next =>
      cases rest with
      | nil =>
        obtain ⟨answer, calm, stands⟩ := ask_next_of_nil stands
        rw [answer]
        exact .nothing (ih (calm.listing.trans listing) stands)
      | cons row rest =>
        obtain ⟨⟨tuple, answer, same⟩, calm, stands⟩ := ask_next stands
        obtain ⟨id, values⟩ := Prod.mk.inj same
        rw [answer]
        exact .next id values (ih (calm.listing.trans listing) stands)

/-- **A scan yields the rows of its table.** Let a transaction be able to fetch every page of a table,
whatever is in memory and whatever the pages hold. When a scan of it is opened, and asked for records in
any order, it answers like the list of all rows that are fetched from the table, one for each used slot,
in the order of the pages and slots; also when others are at work in between, as long as they do not
change these rows. -/
theorem scan_exact (h : s.Scans label name t c)
    (run : Scanning label name t c.file (s.ask label name .rewind).2 asks answers) :
    (s.ask label name .rewind).1 = .ok .done ∧
    Answers (s.engine.listing c.file) (s.engine.listing c.file) asks answers ∧
    ((s.engine.listing c.file).Pairwise fun a b => a.1.Precedes b.1) ∧
    (∀ r values, (r, values) ∈ s.engine.listing c.file ↔ r.page.table = c.file.id ∧
      r.page.number < s.engine.numPages c.file ∧ s.engine.currentRow r = some values) ∧
    ∀ n < s.engine.numPages c.file, ∃ page, s.engine.current? ⟨c.file.id, n⟩ = some page ∧
      ∀ slot, page.isUsed slot = true ↔
        ∃ values, (⟨⟨c.file.id, n⟩, slot⟩, values) ∈ s.engine.listing c.file := by
  obtain ⟨answer, calm, stands⟩ := ask_rewind h rfl
  refine ⟨answer, answers_of_scanning run calm.listing stands, Engine.listing_ordered .., ?rows, ?used⟩
  case rows =>
    intro r values
    exact h.readable.coherent.mem_listing h.readable.registered
  case used =>
    intro n inside
    exact h.readable.isUsed_iff_listed inside

/-- A file of four pages. The first and the last page are empty, the second one has a row in its second
slot, and the third one is full. -/
def sparseDisk : FileTree :=
  (FileTree.empty "").write ["t"] ([0, 0, 0, 0, 0, 0, 0, 0, 0] ++ [2, 0, 0, 0, 0, 7, 0, 0, 0]
    ++ [3, 8, 0, 0, 0, 9, 0, 0, 0] ++ [0, 0, 0, 0, 0, 0, 0, 0, 0])

/-- A session with a scan of this file; one page of it fits memory. -/
def sparse : Session :=
  { start "" with
    engine := { Engine.sample with disk := sparseDisk }
    isOpen := true
    labels := (∅ : FinMap String TxnId).insert "a" ⟨1⟩
    scans := (∅ : FinMap String OwnedScan).insert "s" ⟨0, ⟨1⟩, ⟨.new numbers, none⟩⟩ }

/-- The scan can be used, and its transaction can read the table. -/
theorem scans_sparse : sparse.Scans "a" "s" ⟨1⟩ (.new numbers) where
  offers := ⟨⟨0, ⟨1⟩, ⟨.new numbers, none⟩⟩, ⟨⟨⟨1⟩, rfl⟩, rfl, rfl⟩, rfl, rfl⟩
  readable := by
    have fresh : sparse.engine.Fresh :=
      ⟨Engine.fresh_sample.storable, Engine.fresh_sample.pool, Engine.fresh_sample.locks⟩
    have count : sparse.engine.numPages numbers = 4 := by decide +kernel
    have found : ∀ n < 4, (sparse.engine.getPage ⟨1⟩ ⟨numbers.id, n⟩ .readOnly).2
        = .fetched ⟨0, .readOnly⟩ := by decide +kernel
    refine ⟨fresh.sound.toCoherent, rfl, ?_, fun _ mem => (List.not_mem_nil mem).elim⟩
    intro n inside
    exact ⟨_, _, Prod.ext rfl (found n (count ▸ inside))⟩

/-- What is listed of it. -/
def sparseRows : List PlacedRow :=
  [(⟨⟨numbers.id, 1⟩, 1⟩, [.int 7]), (⟨⟨numbers.id, 2⟩, 0⟩, [.int 8]),
    (⟨⟨numbers.id, 2⟩, 1⟩, [.int 9])]

/-- The scan is left in the middle of the table, and then read to its end. -/
def sparseAsks : List ScanAsk :=
  [.next, .hasNext, .rewind, .next, .next, .next, .hasNext, .next]

/-- The three rows are yielded, although pages come and go behind the scan. -/
theorem scan_exact_sparse : ∃ answers,
    Scanning "a" "s" ⟨1⟩ numbers (sparse.ask "a" "s" .rewind).2 sparseAsks answers ∧
    Answers sparseRows sparseRows sparseAsks answers := by
  have rows : sparse.engine.listing (Cursor.new numbers).file = sparseRows := by decide +kernel
  obtain ⟨-, -, stands⟩ := ask_rewind scans_sparse rfl
  rw [rows] at stands
  obtain ⟨-, -, place, scans, -⟩ := ask_next stands
  -- behind the first record somebody else fetches the last page, and this one takes the place in memory
  have quiet := scans.undisturbed_fetch ⟨2⟩ ⟨numbers.id, 3⟩
  obtain ⟨answers, later⟩ := exists_scanning _ "a" "s" ⟨1⟩ numbers sparseAsks.tail
  have run := Scanning.ask (.others quiet later)
  have exact := (scan_exact scans_sparse run).2.1
  rw [rows] at exact
  exact ⟨_, run, exact⟩

end Session

end RowStore
