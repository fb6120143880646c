import RowStore.RecordError
import RowStore.Storage.FileTree

/-! # File errors
What can go wrong between a transaction and the pages of a table. -/

namespace RowStore

/-- Waiting for a lock would never end: a transaction asked for a page whose holders wait for it. -/
structure Deadlock where
  txn : TxnId
  page : PageId
  deriving DecidableEq, Repr

/-- Says which wait would never end. -/
def Deadlock.message (d : Deadlock) : String :=
  "Transaction " ++ d.txn.text ++ " aborted: waiting for page " ++ d.page.text
    ++ " would deadlock"

/-- What can go wrong between a transaction and the pages of a table. -/
inductive FileError where
  | io (e : IoError)
  /-- A new file would replace one that is there. -/
  | alreadyExists (path : String)
  /-- The file ends inside the page. -/
  | shortRead (page : PageId) (read : Nat)
  /-- The page belongs to another table, or lies past the end of the file. -/
  | invalidPage (page : PageId) (numPages : Nat)
  /-- The tuple is stored nowhere. -/
  | missingRecordId
  /-- The record belongs to another table, or lies past the end of the file. -/
  | invalidRecordId (record : RecordId)
  /-- A scan has no tuple left. -/
  | noSuchElement
  /-- The page was fetched for reading only. -/
  | readOnlyPage (page : PageId)
  /-- No page in memory can make room. -/
  | poolFull
  /-- No table of this name is registered. -/
  | tableNotFound (table : TableId)
  | record (e : RecordError)
  | lock (e : Deadlock)
  deriving DecidableEq

namespace FileError

/-- Says what went wrong. -/
def message : FileError → String
  | io e => "IO error: " ++ e.message
  | alreadyExists path => "File already exists: " ++ path
  | shortRead page read =>
    "Short read of page " ++ page.text ++ ": got " ++ toString read ++ " bytes"
  | invalidPage page numPages =>
    "Invalid page " ++ page.text ++ ": file has " ++ toString numPages ++ " pages"
  | missingRecordId => "Tuple has no record id"
  | invalidRecordId id => "Record id " ++ id.text ++ " does not belong to this file"
  | noSuchElement => "No more tuples"
  | readOnlyPage page => "Page " ++ page.text ++ " was fetched read-only"
  | poolFull => "Buffer pool is full"
  | tableNotFound table => "Table not found: " ++ table.text
  | record e => e.message
  | lock e => e.message

/-- Whether the error means that the transaction can only be aborted. -/
def isAborted : FileError → Bool
  | lock _ => true
  | _ => false

end FileError

/-- A record error of a step that works on files. -/
def liftRecord {α : Type} : Except RecordError α → Except FileError α
  | .ok a => .ok a
  | .error e => .error (.record e)

end RowStore
