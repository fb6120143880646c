import RowStore.Engine
import RowStore.Scan

/-! # Calls
What a transaction asks of the engine, as data. A call goes on in steps; each step asks for at most one
lock, and a step whose lock is held by others leaves the call as it is, to be taken again after a
release. A call's place between two steps is part of the call, so a waiting call is a value. -/

namespace RowStore

/-- Where an insertion stands. -/
inductive InsertStage where
  /-- Nothing is done yet. -/
  | check
  /-- Page `page` is the next to look into; the file had `numPages` pages when the insertion began. -/
  | probe (page numPages : Nat)
  /-- Page `page` has a free slot, and is the next to write to. -/
  | fill (page numPages : Nat)
  /-- No page had a free slot. -/
  | grow
  /-- Page `page` has been appended, and is the next to write to. -/
  | settle (page : Nat)
  deriving DecidableEq

/-- A tuple on its way into a file. -/
structure Insertion where
  file : HeapFile
  tuple : Tuple
  /-- Whether the pool takes note of the changed page. -/
  noted : Bool
  stage : InsertStage
  deriving DecidableEq

/-- What a transaction asks of the engine. -/
inductive Call where
  /-- A page's lock. -/
  | lock (page : PageId) (mode : LockMode)
  /-- A page. -/
  | fetch (page : PageId) (permission : Permission)
  /-- A new tuple in a registered table. -/
  | insert (table : TableId) (tuple : Tuple)
  /-- A new tuple in a file. -/
  | insertInto (insertion : Insertion)
  /-- The removal of a tuple that is stored at a record id, from its registered table. -/
  | delete (id? : Option RecordId)
  /-- The removal of such a tuple from a file; `noted` tells whether the pool takes note. -/
  | deleteFrom (file : HeapFile) (id? : Option RecordId) (noted : Bool)
  /-- The removal of the tuple at a record id whose page is known to be in the file. -/
  | deleteAt (id : RecordId) (noted : Bool)
  /-- The next tuples of a table. -/
  | advance (cursor : Cursor)
  /-- The tuples of a page, which is known to be in the file, for a cursor that holds none. -/
  | turn (cursor : Cursor) (page : Nat)
  deriving DecidableEq

/-- What a call yields. -/
inductive Reply where
  | locked
  | fetched (ref : PageRef)
  | inserted (id : RecordId) (ref : PageRef)
  | deleted (ref : PageRef)
  /-- The cursor holds tuples if `more`, and otherwise has come to the end. -/
  | advanced (cursor : Cursor) (more : Bool)
  deriving DecidableEq

/-- What becomes of a call in one step. -/
inductive Progress where
  | done (result : Except FileError Reply)
  | goesOn (next : Call)
  /-- The lock of a page is held by others. -/
  | waits (page : PageId)

namespace Engine

/-- Fetches a page as one step of a call, and goes on with it. -/
def withPage (e : Engine) (t : TxnId) (p : PageId) (permission : Permission)
    (use : Engine → PageRef → Page → Engine × Progress) : Engine × Progress :=
  match e.getPage t p permission with
  | (e, .waiting) => (e, .waits p)
  | (e, .failed err) => (e, .done (.error err))
  | (e, .fetched ref) =>
    match e.page? ref with
    | some page => use e ref page
    | none => (e, .done (.error (.invalidPage p 0)))

/-- Ends a call that has changed a page; the pool takes note if `noted`. -/
def endChange (e : Engine) (t : TxnId) (ref : PageRef) (noted : Bool) (reply : Reply) :
    Engine × Progress :=
  if noted then
    match e.markDirty t ref with
    | (e, .ok ()) => (e, .done (.ok reply))
    | (e, .error err) => (e, .done (.error err))
  else (e, .done (.ok reply))

/-- Puts the tuple of an insertion into a page that has a free slot. -/
def place (e : Engine) (t : TxnId) (i : Insertion) (ref : PageRef) (page : Page) :
    Engine × Progress :=
  match page.insert i.tuple with
  | .error err => (e, .done (.error (.record err)))
  | .ok (id, page) =>
    (e.setPage ref (page.mark (some t))).endChange t ref i.noted (.inserted id ref)

/-- One step of an insertion. The pages of the file are looked into one after another, and a page with a
free slot is then fetched for writing; if it has been filled meanwhile, the search goes on behind it. If
no page has a free slot, one is appended. -/
def stepInsert (e : Engine) (t : TxnId) (i : Insertion) : Engine × Progress :=
  let goOn (e : Engine) (stage : InsertStage) : Engine × Progress :=
    (e, .goesOn (.insertInto { i with stage }))
  match i.stage with
  | .check =>
    if i.tuple.schema.compatible i.file.schema then goOn e (.probe 0 (e.numPages i.file))
    else (e, .done (.error (.record (.schemaMismatch (.table i.tuple.schema i.file.schema)))))
  | .probe n numPages =>
    if n < numPages then
      e.withPage t ⟨i.file.id, n⟩ .readOnly fun e _ page =>
        goOn e (if page.isFull then .probe (n + 1) numPages else .fill n numPages)
    else goOn e .grow
  | .fill n numPages =>
    e.withPage t ⟨i.file.id, n⟩ .readWrite fun e ref page =>
      if page.isFull then goOn e (.probe (n + 1) numPages) else e.place t i ref page
  | .grow =>
    let (e, p) := e.allocate i.file
    goOn e (.settle p.number)
  | .settle n =>
    e.withPage t ⟨i.file.id, n⟩ .readWrite fun e ref page =>
      if page.isFull then goOn e .grow else e.place t i ref page

/-- Whether a deletion can go on: its record id must name a page of the file. -/
def checkDelete (e : Engine) (f : HeapFile) (id? : Option RecordId) (noted : Bool) : Progress :=
  match id? with
  | none => .done (.error .missingRecordId)
  | some id =>
    if id.page.table = f.id ∧ id.page.number < e.numPages f then .goesOn (.deleteAt id noted)
    else .done (.error (.invalidRecordId id))

/-- The deletion itself. -/
def stepDelete (e : Engine) (t : TxnId) (id : RecordId) (noted : Bool) : Engine × Progress :=
  e.withPage t id.page .readWrite fun e ref page =>
    match page.delete id with
    | .error err => (e, .done (.error (.record err)))
    | .ok page =>
      (e.setPage ref (page.mark (some t))).endChange t ref noted (.deleted ref)

/-- What a cursor does next: it needs a page if it holds no tuples. -/
def checkCursor (e : Engine) (c : Cursor) : Progress :=
  match c.position? with
  | none => .done (.ok (.advanced c false))
  | some ⟨_, _ :: _⟩ => .done (.ok (.advanced c true))
  | some ⟨n, []⟩ =>
    -- the file may have grown since the cursor was here last
    if n < e.numPages c.file then .goesOn (.turn c n) else .done (.ok (.advanced c false))

/-- Fetches a page for a cursor. -/
def stepCursor (e : Engine) (t : TxnId) (c : Cursor) (n : Nat) : Engine × Progress :=
  e.withPage t ⟨c.file.id, n⟩ .readOnly fun e _ page =>
    (e, .goesOn (.advance { c with position? := some ⟨n + 1, page.tuples⟩ }))

/-- One step of a call. -/
def step (e : Engine) (t : TxnId) : Call → Engine × Progress
  | .lock p mode =>
    let (locks, reply) := e.locks.acquire t p mode
    let e := { e with locks }
    match reply with
    | .granted => (e, .done (.ok .locked))
    | .waiting => (e, .waits p)
    | .deadlock => (e, .done (.error (.lock ⟨t, p⟩)))
  | .fetch p permission => e.withPage t p permission fun e ref _ => (e, .done (.ok (.fetched ref)))
  | .insert table tuple =>
    match e.file table with
    | .ok file => (e, .goesOn (.insertInto ⟨file, tuple, true, .check⟩))
    | .error err => (e, .done (.error err))
  | .insertInto i => e.stepInsert t i
  | .delete id? =>
    match id? with
    | none => (e, .done (.error .missingRecordId))
    | some id =>
      match e.file id.page.table with
      | .ok file => (e, .goesOn (.deleteFrom file (some id) true))
      | .error err => (e, .done (.error err))
  | .deleteFrom f id? noted => (e, e.checkDelete f id? noted)
  | .deleteAt id noted => e.stepDelete t id noted
  | .advance c => (e, e.checkCursor c)
  | .turn c n => e.stepCursor t c n

/-! ## Runs of steps -/

/-- More steps than a call can take before it ends or waits: it visits every page of its file at most
twice, and appends at most one page more than there are resident pages. -/
def stepBound (e : Engine) : Call → Nat
  | .insert table _ => 2 * (pages table + e.pool.resident.length) + 8
  | .insertInto i => 2 * (stagePages i.stage + e.numPages i.file + e.pool.resident.length) + 8
  | .advance c | .turn c _ => 2 * e.numPages c.file + 4
  | _ => 4
where
  /-- The number of pages of a registered table. -/
  pages (table : TableId) : Nat :=
    match e.catalog.file? table with
    | some f => e.numPages f
    | none => 0
  /-- The number of pages that the file had when its pages were last counted. -/
  stagePages : InsertStage → Nat
    | .probe _ n | .fill _ n => n
    | _ => 0

/-- How a run of steps ends. -/
inductive RunEnd where
  /-- The call is over; `last` is its last place. -/
  | over (last : Call) (result : Except FileError Reply)
  /-- The call waits for the lock of a page. -/
  | waits (call : Call) (page : PageId)

/-- Takes at most so many steps of a call. -/
def runSteps (t : TxnId) : Nat → Engine → Call → Engine × RunEnd
  | 0, e, c => (e, .over c (.error .noSuchElement))
  | fuel + 1, e, c =>
    match e.step t c with
    | (e, .done result) => (e, .over c result)
    | (e, .goesOn next) => runSteps t fuel e next
    | (e, .waits p) => (e, .waits c p)

/-- Takes steps of a call until it is over or waits. -/
def run (e : Engine) (t : TxnId) (c : Call) : Engine × RunEnd :=
  runSteps t (e.stepBound c) e c

/-- Runs a call of a transaction that is alone: waiting would never end. -/
def call (e : Engine) (t : TxnId) (c : Call) : Engine × Except FileError Reply :=
  match e.run t c with
  | (e, .over _ result) => (e, result)
  | (e, .waits _ p) => (e, .error (.lock ⟨t, p⟩))

end Engine

end RowStore
