import RowStore.Catalog
import RowStore.Config
import RowStore.Lock.Table
import RowStore.Pool

/-! # The engine
Tables on disk, the pages of them that are in memory, and the locks on pages. A page is fetched under a
lock that its transaction keeps to its end. A commit writes the pages that the transaction has changed;
an abort, or a commit that fails, reads them again. -/

namespace RowStore

/-- The state that all transactions share. -/
structure Engine where
  config : Config
  disk : FileTree
  catalog : Catalog
  locks : LockTable
  pool : Pool

/-- What comes of fetching a page. -/
inductive Fetch where
  | fetched (ref : PageRef)
  | failed (e : FileError)
  /-- The page's lock is held by others. -/
  | waiting
  deriving DecidableEq

/-- A write that the file system does not finish. -/
structure WriteFault where
  /-- The kind that the error is told under; nothing depends on it. -/
  error : IoError
  /-- How many octets have been written by then. -/
  octets : Nat := 0
  deriving DecidableEq

/-- What the file system refuses to do with the pages of a transaction that ends, and why. A write may be
refused as a whole or stop anywhere. -/
structure Faults where
  write? : PageId → Option WriteFault := fun _ => none
  read? : PageId → Option IoError := fun _ => none
  /-- Why files that were written to do not get on the disk for good. -/
  sync? : Option IoError := none

/-- Nothing is refused. -/
instance : EmptyCollection Faults := ⟨{}⟩

namespace Engine

/-- An engine over a disk, without tables. -/
def new (disk : FileTree) (config : Config) : Engine :=
  ⟨config, disk, ∅, ∅, Pool.new config.poolPages⟩

/-! ## Files -/

/-- The file of a registered table. -/
def file (e : Engine) (table : TableId) : Except FileError HeapFile :=
  match e.catalog.file? table with
  | some f => .ok f
  | none => .error (.tableNotFound table)

/-- The number of pages of a file. -/
def numPages (e : Engine) (f : HeapFile) : Nat :=
  f.numPages (e.disk.content f.location)

/-- Reads a page of a file from the disk. -/
def readFrom (e : Engine) (f : HeapFile) (p : PageId) : Except FileError Page :=
  f.readPage (e.disk.content f.location) p

/-- Reads a page from the disk. -/
def readPage (e : Engine) (p : PageId) : Except FileError Page := do
  e.readFrom (← e.file p.table) p

/-- Writes a page of a file to the disk. -/
def writeTo (e : Engine) (f : HeapFile) (p : Page) : Except FileError Engine := do
  let content ← f.writePage (e.disk.content f.location) p
  return { e with disk := e.disk.write f.location content }

/-- Appends an empty page to a file. -/
def allocate (e : Engine) (f : HeapFile) : Engine × PageId :=
  let (p, content) := f.allocate (e.disk.content f.location)
  ({ e with disk := e.disk.write f.location content }, p)

/-! ## Pages -/

/-- The page in a frame. -/
def page? (e : Engine) (ref : PageRef) : Option Page :=
  e.pool.frames[ref.frame]?

/-- The frame of a page, which is brought into memory if it is not there. -/
def bring (e : Engine) (p : PageId) : Except FileError (Engine × Nat) :=
  match e.pool.frame? p with
  | some frame => .ok ({ e with pool := e.pool.promote p frame }, frame)
  | none => do
    let page ← e.readPage p
    let (pool, frame) ← e.pool.load page
    return ({ e with pool }, frame)

/-- Fetches a page for a transaction: its lock first, then the page. -/
def getPage (e : Engine) (t : TxnId) (p : PageId) (permission : Permission) : Engine × Fetch :=
  let (locks, reply) := e.locks.acquire t p permission.mode
  let e := { e with locks }
  match reply with
  | .waiting => (e, .waiting)
  | .deadlock => (e, .failed (.lock ⟨t, p⟩))
  | .granted =>
    -- the lock is kept even if the page cannot be read
    match e.bring p with
    | .ok (e, frame) => (e, .fetched ⟨frame, permission⟩)
    | .error err => (e, .failed err)

/-- Replaces the page in a frame. -/
def setPage (e : Engine) (ref : PageRef) (page : Page) : Engine :=
  { e with pool := e.pool.setFrame ref.frame page }

/-- Marks a fetched page as changed by a transaction. -/
def markDirty (e : Engine) (t : TxnId) (ref : PageRef) : Engine × Except FileError Unit :=
  let (pool, result) := e.pool.markDirty t ref
  ({ e with pool }, result)

/-! ## Writing back -/

/-- The disk after a page has been written to its file, and what came of it. Of a write that does not
finish, the first octets are on the disk. -/
def writing (e : Engine) (p : PageId) (page : Page) (faults : Faults) :
    FileTree × Except FileError Unit :=
  match e.file p.table with
  | .error err => (e.disk, .error err)
  | .ok f =>
    let fault? := faults.write? p
    match f.writePage (e.disk.content f.location) page (fault?.map WriteFault.octets) with
    | .error err => (e.disk, .error err)
    | .ok content =>
      (e.disk.write f.location content, fault?.elim (.ok ()) fun fault => .error (.io fault.error))

/-- Writes a resident page, if it has unwritten changes. If the write fails, they stay unwritten. -/
def writeBack (e : Engine) (p : PageId) (faults : Faults) : Engine × Except FileError Unit :=
  match e.pool.frame? p, e.pool.page? p with
  | some frame, some page =>
    match page.dirtiedBy with
    | none => (e, .ok ())
    | some t =>
      match e.writing p page faults with
      | (disk, .ok ()) =>
        ({ e with disk, pool := (e.pool.setFrame frame (page.mark none)).noteWritten t p }, .ok ())
      | (disk, .error err) => ({ e with disk }, .error err)
  | _, _ => (e, .ok ())

/-- Writes resident pages one after another, up to the first that cannot be written. -/
def writeBackAll (faults : Faults) : Engine → List PageId → Engine × Except FileError Unit
  | e, [] => (e, .ok ())
  | e, p :: rest =>
    match e.writeBack p faults with
    | (e, .ok ()) => writeBackAll faults e rest
    | failed => failed

/-- Whether a page is resident and has unwritten changes. -/
def isUnwritten (e : Engine) (p : PageId) : Bool :=
  (e.pool.page? p).any (·.dirtiedBy.isSome)

/-- Writes resident pages, and waits until their files are on the disk for good. -/
def flush (e : Engine) (ps : List PageId) (faults : Faults) : Engine × Except FileError Unit :=
  match e.writeBackAll faults ps, faults.sync? with
  | (flushed, .ok ()), some err =>
    -- only the files that were written to are waited for
    if ps.any e.isUnwritten then (flushed, .error (.io err)) else (flushed, .ok ())
  | result, _ => result

/-- Writes one page. -/
def flushPage (e : Engine) (p : PageId) : Engine × Except FileError Unit :=
  e.writeBackAll ∅ [p]

/-- Writes all resident pages. -/
def flushAll (e : Engine) : Engine × Except FileError Unit :=
  e.flush (e.pool.resident.map Prod.fst) ∅

/-- Writes the pages that a transaction has changed. -/
def flushPagesOf (e : Engine) (t : TxnId) (faults : Faults := ∅) :
    Engine × Except FileError Unit :=
  e.flush (e.pool.dirtiedBy t) faults

/-! ## Ending a transaction -/

/-- Reads a resident page again, in place; one that cannot be read is dropped. -/
def revertPage (faults : Faults) (e : Engine) (p : PageId) : Engine :=
  match e.pool.frame? p with
  | none => e
  | some frame =>
    match faults.read? p, e.readPage p with
    | none, .ok page => { e with pool := e.pool.setFrame frame page }
    | _, _ => { e with pool := e.pool.drop p }

/-- Reads the pages that a transaction has changed again. -/
def revert (e : Engine) (t : TxnId) (faults : Faults) : Engine :=
  (e.pool.dirtiedBy t).foldl (revertPage faults) e

/-- Forgets what a transaction has changed, and takes its locks away. -/
def finish (e : Engine) (t : TxnId) : Engine :=
  { e with
    pool := { e.pool with dirtied := e.pool.dirtied.erase t }
    locks := e.locks.releaseAll t }

/-- Ends a transaction. A commit that cannot write all pages is an abort. -/
def complete (e : Engine) (t : TxnId) (commit : Bool) (faults : Faults := ∅) :
    Engine × Except FileError Unit :=
  if commit then
    match e.flushPagesOf t faults with
    | (e, .ok ()) => (e.finish t, .ok ())
    | (e, .error err) => ((e.revert t faults).finish t, .error err)
  else ((e.revert t faults).finish t, .ok ())

end Engine

end RowStore
