import RowStore.Page.Codec
import RowStore.Storage.FileError

/-! # Heap files
A table is a file of pages, one after another; page `i` is the octets from `i * pageSize` on. A file may
end inside its last page. The operations here work on the octets of the file; pages are only ever
appended. -/

namespace RowStore

/-- A table's file: where it is, and how its pages are divided. -/
structure HeapFile where
  location : Location
  layout : Layout
  deriving DecidableEq

namespace HeapFile

/-- The table that the file stores. -/
def id (f : HeapFile) : TableId :=
  .file f.location

/-- The columns of the table. -/
def schema (f : HeapFile) : Schema :=
  f.layout.schema

/-- The number of octets of a page. -/
def pageSize (f : HeapFile) : Nat :=
  f.layout.pageSize

/-- The number of pages that octets hold; octets that fill no page count as one more. -/
def numPages (f : HeapFile) (content : Bytes) : Nat :=
  (content.length + f.pageSize - 1) / f.pageSize

/-- The octet at which a page starts. -/
def offset (f : HeapFile) (page : Nat) : Nat :=
  page * f.pageSize

/-- Reads a page. -/
def readPage (f : HeapFile) (content : Bytes) (p : PageId) : Except FileError Page :=
  let numPages := f.numPages content
  if p.table = f.id ∧ p.number < numPages then
    let octets := (content.drop (f.offset p.number)).take f.pageSize
    if octets.length = f.pageSize then liftRecord (Page.decode p f.layout octets)
    else .error (.shortRead p octets.length)
  else .error (.invalidPage p numPages)

/-- The octets of the file after a page has been written, which may be the one past the last. A write that
stops after `count?` octets of the page leaves the file with these. -/
def writePage (f : HeapFile) (content : Bytes) (p : Page) (count? : Option Nat := none) :
    Except FileError Bytes := do
  let octets ← liftRecord p.encode
  let numPages := f.numPages content
  if p.id.table = f.id ∧ p.id.number ≤ numPages then
    return FileTree.splice content (f.offset p.id.number) (count?.elim octets octets.take)
  else throw (.invalidPage p.id numPages)

/-- Appends a page without records. -/
def allocate (f : HeapFile) (content : Bytes) : PageId × Bytes :=
  let n := f.numPages content
  -- a last page that is cut off is filled up with zeros
  (⟨f.id, n⟩, FileTree.splice content (f.offset n) f.layout.emptyPage)

/-- Opens a table's file, and makes it, empty, if it is missing. A record must fit a page. -/
def openAt (t : FileTree) (p : Path) (schema : Schema) (pageSize : Nat) :
    FileTree × Except FileError HeapFile :=
  match Layout.new schema pageSize with
  | .error e => (t, .error (.record e))
  | .ok layout =>
    match t.openWithDirectories p with
    | (t, .ok location) => (t, .ok ⟨location, layout⟩)
    | (t, .error e) => (t, .error (.io e))

/-- Makes a table's file, which must not be there yet. -/
def createAt (t : FileTree) (p : Path) (schema : Schema) (pageSize : Nat) :
    FileTree × Except FileError HeapFile :=
  if t.exists? p then (t, .error (.alreadyExists p.text)) else openAt t p schema pageSize

/-- A column type as it is shown in full. -/
def describeType : ColumnType → String
  | .int => "Int"
  | .text width => "Char(" ++ toString width ++ ")"

/-- A column as it is shown in full. -/
def describeColumn (c : Column) : String :=
  "ColumnDef \x7b name: " ++ Quoted.text c.name ++ ", data_type: " ++ describeType c.type
    ++ " \x7d"

/-- A table's file as it is shown in full; `path` is its full path. -/
def describe (f : HeapFile) (path : String) : String :=
  "HeapFile \x7b path: " ++ Quoted.text path ++ ", table_id: " ++ f.id.text
    ++ ", desc: TupleDesc \x7b columns: ["
    ++ ", ".intercalate (f.schema.columns.map describeColumn)
    ++ "], record_size: " ++ toString f.schema.recordSize ++ " \x7d \x7d"

end HeapFile

end RowStore
