import RowStore.Database

/-! # Outcomes
What a step of a session comes to: a result, a failure of one of the layers below, or a refusal because
what the step names is missing or in use. -/

namespace RowStore

/-- Why a step is not taken at all. -/
inductive Refusal where
  /-- A waiting step uses the transaction or the scan, or the database as a whole. -/
  | busy
  | noDatabase
  | noTransaction
  | noFile
  | noHandle
  | noScan
  deriving DecidableEq, Repr

/-- Why a step fails. -/
inductive Failure where
  | refused (r : Refusal)
  | io (e : IoError)
  | record (e : RecordError)
  | lock (e : Deadlock)
  | file (e : FileError)
  | catalog (e : CatalogError)
  | database (e : DatabaseError)
  deriving DecidableEq

/-- What a step that works with pages comes to. -/
inductive Outcome where
  /-- The step waits for a lock. -/
  | blocked
  | done
  /-- A page is fetched. -/
  | fetched (page : PageId) (permission : Permission)
  /-- A tuple is inserted. -/
  | inserted (id : RecordId)
  /-- A tuple is inserted, and these pages have changed. -/
  | placed (id : RecordId) (changed : List PageId)
  /-- A tuple is deleted, and these pages have changed. -/
  | removed (changed : List PageId)
  /-- So many tuples are inserted, the last of them here; an error may have stopped it. -/
  | rows (count : Nat) (last? : Option RecordId) (stop? : Option DatabaseError)
  /-- So many records are loaded. -/
  | loaded (count : Nat)
  | truth (b : Bool)
  | tuple (t : Tuple)
  | tuples (ts : List Tuple)
  /-- What the steps under a write latch have come to. -/
  | latched (results : List (Except Failure Outcome))

end RowStore
