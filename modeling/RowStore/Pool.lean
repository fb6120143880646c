import RowStore.FinMap
import RowStore.Lock.Entry
import RowStore.Page
import RowStore.Storage.FileError

/-! # The buffer pool
Pages in memory. A page stands in a frame; at most `capacity` pages are resident, that is, found under
their ids, and the resident pages are kept in the order of their last use. When a page must enter a full
pool, the clean page whose last use is the oldest leaves it; a page with unwritten changes never does. A
frame outlives its residence, because whoever fetched it may still hold it. -/

namespace RowStore

/-- What a fetched page may be used for. -/
inductive Permission where
  | readOnly
  | readWrite
  deriving DecidableEq, Repr, Inhabited

/-- The lock that a permission needs. -/
def Permission.mode : Permission → LockMode
  | readOnly => .shared
  | readWrite => .exclusive

/-- A fetched page: the frame it stands in, and what it may be used for. -/
structure PageRef where
  frame : Nat
  permission : Permission
  deriving DecidableEq, Repr, Inhabited

/-- Pages in memory. -/
structure Pool where
  capacity : Nat
  /-- Every page that was ever brought into memory. -/
  frames : Array Page
  /-- The frames of the resident pages, the most recently used first. -/
  resident : List (PageId × Nat)
  /-- The pages that each transaction has changed and not written yet. -/
  dirtied : FinMap TxnId (List PageId)
  /-- Frames that somebody is writing to. -/
  latched : List Nat

namespace Pool

/-- A pool without pages, with room for one at least. -/
def new (capacity : Nat) : Pool :=
  ⟨max capacity 1, #[], [], ∅, []⟩

/-- The frame of a resident page. -/
def frame? (p : Pool) (id : PageId) : Option Nat :=
  (p.resident.find? (·.1 = id)).map Prod.snd

/-- Whether a page is resident. -/
def isResident (p : Pool) (id : PageId) : Bool :=
  (p.frame? id).isSome

/-- A resident page. -/
def page? (p : Pool) (id : PageId) : Option Page := do
  p.frames[← p.frame? id]?

/-- Whether the page in a frame has unwritten changes. -/
def isDirty (p : Pool) (frame : Nat) : Bool :=
  p.frames[frame]?.any (·.dirtiedBy.isSome)

/-- The number of resident pages with unwritten changes. -/
def dirtyCount (p : Pool) : Nat :=
  p.resident.countP fun (_, frame) => p.isDirty frame

/-- Drops a page; its frame stays. -/
def drop (p : Pool) (id : PageId) : Pool :=
  { p with resident := p.resident.filter (·.1 ≠ id) }

/-- Makes the page in a frame resident, as the one used last. -/
def promote (p : Pool) (id : PageId) (frame : Nat) : Pool :=
  { p with resident := (id, frame) :: (p.drop id).resident }

/-- The page that leaves a full pool: of those that are clean and not being written to, the one whose
last use is the oldest. -/
def victim? (p : Pool) : Option PageId :=
  (p.resident.reverse.find? fun (_, frame) => !p.isDirty frame && frame ∉ p.latched).map Prod.fst

/-- Makes room for one more page, if the pool is full. -/
def makeRoom (p : Pool) : Except FileError Pool :=
  if p.resident.length < p.capacity then .ok p
  else match p.victim? with
    | some id => .ok (p.drop id)
    | none => .error .poolFull

/-- Brings a page that is not resident into memory. -/
def load (p : Pool) (page : Page) : Except FileError (Pool × Nat) := do
  let p ← p.makeRoom
  let frame := p.frames.size
  return ({ p with frames := p.frames.push page }.promote page.id frame, frame)

/-- Replaces the page in a frame. -/
def setFrame (p : Pool) (frame : Nat) (page : Page) : Pool :=
  { p with frames := p.frames.setIfInBounds frame page }

/-- The pages that a transaction has changed, in the order of their ids. -/
def dirtiedBy (p : Pool) (t : TxnId) : List PageId :=
  (p.dirtied.getD t []).mergeSort fun a b => (compare a b).isLE

/-- Notes that a transaction has changed a page. -/
def noteDirtied (p : Pool) (t : TxnId) (id : PageId) : Pool :=
  let pages := p.dirtied.getD t []
  if id ∈ pages then p else { p with dirtied := p.dirtied.insert t (pages ++ [id]) }

/-- Notes that a page that a transaction had changed is written. -/
def noteWritten (p : Pool) (t : TxnId) (id : PageId) : Pool :=
  match p.dirtied.get? t with
  | some pages => { p with dirtied := p.dirtied.insert t (pages.filter (· ≠ id)) }
  | none => p

/-- Marks the page in a frame as changed by a transaction, and makes it resident again if it has left
the pool or another copy has taken its place. The marks stay even if there is no room. -/
def markDirty (p : Pool) (t : TxnId) (ref : PageRef) : Pool × Except FileError Unit :=
  match p.frames[ref.frame]? with
  | none => (p, .ok ())
  | some page =>
    match ref.permission with
    | .readOnly => (p, .error (.readOnlyPage page.id))
    | .readWrite =>
      let p := (p.setFrame ref.frame (page.mark (some t))).noteDirtied t page.id
      if p.frame? page.id = some ref.frame then (p, .ok ())
      else if p.isResident page.id then (p.promote page.id ref.frame, .ok ())
      else match p.makeRoom with
        | .ok p => (p.promote page.id ref.frame, .ok ())
        | .error e => (p, .error e)

end Pool

end RowStore
