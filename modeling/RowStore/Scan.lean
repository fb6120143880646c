import RowStore.Storage.HeapFile

/-! # Scans
A cursor goes through the tuples of a table page by page, and holds the tuples of one page at a time. A
scan is a cursor, and perhaps a view that shows the tuples under an alias. -/

namespace RowStore

/-- Where an open cursor stands: the next page to fetch, and the tuples before it. -/
structure CursorPosition where
  nextPage : Nat
  buffered : List Tuple
  deriving DecidableEq

/-- A cursor over a table; it is closed while it has no position. -/
structure Cursor where
  file : HeapFile
  position? : Option CursorPosition
  deriving DecidableEq

namespace Cursor

/-- A closed cursor over a table. -/
def new (file : HeapFile) : Cursor := ⟨file, none⟩

/-- The cursor before the first tuple. -/
def opened (c : Cursor) : Cursor := { c with position? := some ⟨0, []⟩ }

/-- The closed cursor. -/
def closed (c : Cursor) : Cursor := { c with position? := none }

end Cursor

/-- How a scan shows the table it goes through. -/
structure View where
  table : TableId
  name : String
  aliasName : String
  schema : Schema
  deriving DecidableEq

/-- A scan of a table. -/
structure Scan where
  cursor : Cursor
  view? : Option View
  deriving DecidableEq

namespace Scan

/-- The columns of the tuples that a scan yields. -/
def schema (s : Scan) : Schema :=
  match s.view? with
  | some v => v.schema
  | none => s.cursor.file.schema

/-- A stored tuple as the scan shows it. -/
def present (s : Scan) (t : Tuple) : Except FileError Tuple :=
  match s.view? with
  | none => .ok t
  | some v => (fun shown => { shown with id? := t.id? }) <$> liftRecord (Tuple.new v.schema t.values)

/-- The scan with its cursor elsewhere. -/
def moveTo (s : Scan) (p : CursorPosition) : Scan :=
  { s with cursor := { s.cursor with position? := some p } }

/-- The next of the tuples that the cursor holds, and the scan after it. -/
def take (s : Scan) : Scan × Except FileError Tuple :=
  match s.cursor.position? with
  | some ⟨nextPage, t :: rest⟩ => (s.moveTo ⟨nextPage, rest⟩, s.present t)
  | _ => (s, .error .noSuchElement)

/-- Takes tuples one after another, up to the first that cannot be shown; what is left stays with the
cursor. -/
def takeFrom (s : Scan) (nextPage : Nat) : List Tuple → Scan × Except FileError (List Tuple)
  | [] => (s.moveTo ⟨nextPage, []⟩, .ok [])
  | t :: rest =>
    match s.present t with
    | .error e => (s.moveTo ⟨nextPage, rest⟩, .error e)
    | .ok shown =>
      let (s, more) := takeFrom s nextPage rest
      (s, (shown :: ·) <$> more)

/-- Takes all tuples that the cursor holds. -/
def takeAll (s : Scan) : Scan × Except FileError (List Tuple) :=
  match s.cursor.position? with
  | some ⟨nextPage, buffered⟩ => s.takeFrom nextPage buffered
  | none => (s, .ok [])

end Scan

end RowStore
