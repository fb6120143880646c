import RowStore.Session.State

/-! # Progress
How a task goes on when its call is over, and how waiting tasks are woken. After every step the waiting
tasks whose pages were released make their requests again, in the order of the steps; each goes on as far
as it can, and may wait again. -/

namespace RowStore.Session

/-- What follows a call that is over. -/
inductive Follow where
  /-- The step is over. -/
  | over (result : Except Failure Outcome)
  /-- The step goes on with another call. -/
  | goOn (task : Task)

/-- Ends a step. -/
def finished (s : Session) (result : Except Failure Outcome) : Session × Follow :=
  (s, .over result)

/-- Goes on with the rows that a step still has to insert. -/
def nextRow (s : Session) (o : TaskOwner) (table : TableId) (count : Nat) (last? : Option RecordId) :
    List (List Value) → Session × Follow
  | [] => s.finished (.ok (.rows count last? none))
  | values :: rest =>
    match s.engine.insertCall table values with
    | .ok call => (s, .goOn ⟨o, call, .rows table rest count last?⟩)
    | .error e => s.finished (.ok (.rows count last? (some e)))

/-- Goes on with a load. -/
def nextRecord (s : Session) (o : TaskOwner) (l : Load) : Session × Follow :=
  match l.next s.engine.disk with
  | .insert call rest => (s, .goOn ⟨o, call, .load rest⟩)
  | .over (.ok count) => s.finished (.ok (.loaded count))
  | .over (.error e) => s.finished (.error (.database e))

/-- Keeps a fetched page under a name, if there is one. -/
def keepHandle (s : Session) (handle? : Option String) (ref : PageRef) : Session :=
  match handle? with
  | some name => { s with handles := s.handles.insert name ref }
  | none => s

/-- Gives a name to a scan. -/
def setScan (s : Session) (name : String) (scan : OwnedScan) : Session :=
  { s with scans := s.scans.insert name scan }

/-- Puts a scan that has been used back under its name, unless the name has gone to another scan. -/
def putBack (s : Session) (name : String) (scan : OwnedScan) : Session :=
  match s.scans.get? name with
  | some current => if current.madeAt = scan.madeAt then s.setScan name scan else s
  | none => s

/-- Makes what a step wants of a scan from tuples that the scan holds, or from its end. -/
def useScan (s : Session) (o : TaskOwner) (name : String) (used : OwnedScan) (more : Bool) :
    ScanAim → Session × Follow
  | .start => (s.putBack name used).finished (.ok .done)
  | .hasNext => (s.putBack name used).finished (.ok (.truth more))
  | .next =>
    let (scan, result) := used.scan.take
    (s.putBack name { used with scan }).finished
      ((result.map Outcome.tuple).mapError Failure.file)
  | .collect taken =>
    if more then
      match used.scan.takeAll with
      | (scan, .ok shown) =>
        (s, .goOn ⟨o, .advance scan.cursor,
          .scan name { used with scan } (.collect (taken ++ shown))⟩)
      | (scan, .error e) => (s.putBack name { used with scan }).finished (.error (.file e))
    else (s.putBack name used).finished (.ok (.tuples taken))

/-- Goes on with a scan; its cursor is where the call has left it, also when the call has failed. -/
def nextScan (s : Session) (o : TaskOwner) (name : String) (used : OwnedScan) (aim : ScanAim)
    (last : Call) (result : Except FileError Reply) : Session × Follow :=
  match result, last with
  | .ok (.advanced cursor more), _ =>
    s.useScan o name { used with scan.cursor := cursor } more aim
  | .error e, .advance cursor | .error e, .turn cursor _ =>
    (s.putBack name { used with scan.cursor := cursor }).finished (.error (.file e))
  | .error e, _ => s.finished (.error (.file e))
  | .ok _, _ => s.finished (.ok .done)

/-- Makes of the reply to a call what the task wants; `last` is the place where the call has ended. -/
def settle (s : Session) (task : Task) (last : Call) (result : Except FileError Reply) :
    Session × Follow :=
  match task.goal, result with
  | .lock, .error (.lock e) => s.finished (.error (.lock e))
  | .lock, .error e => s.finished (.error (.file e))
  | .fetch page handle?, .ok (.fetched ref) =>
    (s.keepHandle handle? ref).finished (.ok (.fetched page ref.permission))
  | .fetch .., .error e => s.finished (.error (.file e))
  | .insert .file, .ok (.inserted id _) => s.finished (.ok (.placed id [id.page]))
  | .insert _, .ok (.inserted id _) => s.finished (.ok (.inserted id))
  | .insert layer, .error e | .delete layer, .error e => s.finished (.error (layer.failure e))
  | .delete .file, .ok (.deleted ref) =>
    s.finished (.ok (.removed ((s.engine.page? ref).map Page.id).toList))
  | .rows table rest count _, .ok (.inserted id _) =>
    s.nextRow task.toTaskOwner table (count + 1) (some id) rest
  | .rows _ _ count last?, .error e => s.finished (.ok (.rows count last? (some (.file e))))
  | .load rest, .ok _ => s.nextRecord task.toTaskOwner rest
  | .load _, .error e => s.finished (.error (.database (.file e)))
  | .scan name used aim, result => s.nextScan task.toTaskOwner name used aim last result
  | _, .ok _ => s.finished (.ok .done)

/-- More calls than a task can still make. -/
def callBound (s : Session) (task : Task) : Nat :=
  match task.goal with
  | .rows _ rest _ _ => rest.length + 1
  | .load rest => s.engine.loadBound rest
  | .scan _ used _ => s.engine.numPages used.scan.cursor.file + 3
  | _ => 1

/-- How far a task has come. -/
inductive Pause where
  | over (result : Except Failure Outcome)
  | waits (w : WaitingTask)

/-- Takes at most so many calls of a task. -/
def advance : Nat → Session → Task → Session × Pause
  | 0, s, _ => (s, .over (.error (.file .noSuchElement)))
  | bound + 1, s, task =>
    match s.engine.run task.txn task.call with
    | (engine, .waits call page) =>
      ({ s with engine }, .waits ⟨{ task with call, goal := task.goal.afterWait }, page⟩)
    | (engine, .over last result) =>
      match { s with engine }.settle task last result with
      | (s, .over result) => (s, .over result)
      | (s, .goOn task) => advance bound s task

/-- Takes a task as far as it goes. -/
def proceed (s : Session) (task : Task) : Session × Pause :=
  advance (s.callBound task) s task

/-- Takes what follows as far as it goes. -/
def carryOn : Session × Follow → Session × Pause
  | (s, .over result) => (s, .over result)
  | (s, .goOn task) => s.proceed task

/-- Puts a task behind the waiting ones. -/
def suspend (s : Session) (w : WaitingTask) : Session :=
  { s with waiting := s.waiting ++ [w] }

/-- Lets the waiting tasks whose pages were released make their requests again, and tells which of them
are over. -/
def wake (s : Session) : Session × List (Nat × Except Failure Outcome) :=
  let notified := s.engine.locks.notified
  s.waiting.foldl (fun (s, woken) w =>
    if w.page ∈ notified then
      match s.proceed w.task with
      | (s, .waits w) => (s.suspend w, woken)
      | (s, .over result) => (s, woken ++ [(w.task.step, result)])
    else (s.suspend w, woken)) ({ s with engine.locks.notified := [], waiting := [] }, [])

/-- Ends the current step, and tells which waiting steps it has woken. -/
def endStep (s : Session) : Session × List (Nat × Except Failure Outcome) :=
  let (s, woken) := s.wake
  ({ s with clock := s.clock + 1 }, woken)

/-- Takes a step of a transaction as far as it goes. -/
def take (label : String) (txn : TxnId) (first : Session → TaskOwner → Session × Follow) :
    SessionM Outcome := do
  let s ← get
  match carryOn (first s ⟨s.clock, label, txn⟩) with
  | (s, .waits w) =>
    set (s.suspend w)
    return .blocked
  | (s, .over result) =>
    set s
    lift id result

/-- Takes a step that begins with a call. -/
def call (label : String) (txn : TxnId) (c : Call) (goal : Goal) : SessionM Outcome :=
  take label txn fun s o => (s, .goOn ⟨o, c, goal⟩)

end RowStore.Session
