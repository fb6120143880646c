import RowStore.Csv.Stream
import RowStore.Database.Error
import RowStore.Engine.Call
import RowStore.Text.Blank
import RowStore.Value.TypeName

/-! # Loading records
The records of a file become tuples of a table: each field is read as its column's type tells, fields
past the last column are left out, and the tuples are inserted one after another. A load that may wait
between two insertions reads the file as it goes; one that never waits reads all of it first. -/

namespace RowStore

/-- The integer that a text spells: digits, perhaps after a sign. -/
def int32? (s : String) : Option Int32 :=
  let (negative, digits) := match s.toList with
    | '-' :: rest => (true, rest)
    | '+' :: rest => (false, rest)
    | cs => (false, cs)
  if digits.isEmpty || !digits.all Char.isDigit then none
  else
    let magnitude : Int := ColumnType.digitsValue digits
    let n := if negative then -magnitude else magnitude
    if Int32.minValue.toInt ≤ n ∧ n ≤ Int32.maxValue.toInt then some (Int32.ofInt n) else none

namespace Csv

/-- The value of a field. Blanks around an integer are left out. -/
def fieldValue (line : Nat) (text : String) : ColumnType → Except DatabaseError Value
  | .int =>
    let trimmed := trimBlanks text
    match int32? trimmed with
    | some n => .ok (.int n)
    | none => .error (.field line trimmed .int)
  | .text _ => .ok (.text text)

/-- The values of fields, as far as there are both fields and types. -/
def fieldValues (line : Nat) : List String → List ColumnType → Except DatabaseError (List Value)
  | text :: texts, t :: ts => do
    return (← fieldValue line text t) :: (← fieldValues line texts ts)
  | _, _ => .ok []

/-- The tuple that a record spells. -/
def Record.tuple (r : Record) (schema : Schema) : Except DatabaseError Tuple :=
  match r.texts? with
  | none => .error .csv
  | some texts => do
    let values ← fieldValues r.line texts schema.types
    match Tuple.new schema values with
    | .ok t => return t
    | .error e => throw (.record e)

end Csv

/-- A load between two insertions. -/
structure Load where
  table : TableId
  schema : Schema
  /-- The file of the records. -/
  source : Location
  /-- The records that are left. -/
  stream : Csv.Stream
  /-- How many tuples have been inserted. -/
  loaded : Nat

/-- What a load does next. -/
inductive LoadStep where
  /-- It inserts a tuple; after that it goes on as `rest`. -/
  | insert (call : Call) (rest : Load)
  /-- It is over. -/
  | over (result : Except DatabaseError Nat)

/-- What a load does next, with the disk as it is. -/
def Load.next (disk : FileTree) (l : Load) : LoadStep :=
  match l.stream.next (disk.content l.source) with
  | (_, none) => .over (.ok l.loaded)
  | (stream, some r) =>
    match r.tuple l.schema with
    | .ok t => .insert (.insert l.table t) { l with stream, loaded := l.loaded + 1 }
    | .error e => .over (.error e)

namespace Engine

/-- The columns of a registered table. -/
def schema (e : Engine) (table : TableId) : Except DatabaseError Schema :=
  match e.catalog.schema table with
  | .ok s => .ok s
  | .error err => .error (.catalog err)

/-- The load of a file's records into a table. -/
def startLoad (e : Engine) (table : TableId) (p : Path) (delimiter : UInt8) :
    Except DatabaseError Load := do
  let schema ← e.schema table
  match e.disk.find p with
  | .ok (source, .file _) => return ⟨table, schema, source, { delimiter }, 0⟩
  | _ => throw .csv

/-- More records than a load can insert before it ends or waits. A record takes one octet at least; the
file may be that of the table itself, and then grows by at most one page more than fit into memory. -/
def loadBound (e : Engine) (l : Load) : Nat :=
  let pageSize := ((e.catalog.file? l.table).map HeapFile.pageSize).getD 0
  l.stream.taken.length + (e.disk.content l.source).length + (e.pool.capacity + 2) * pageSize + 2

/-- Inserts records one after another for a transaction that is alone, up to the first that fails. -/
def loadRecords (t : TxnId) (table : TableId) (schema : Schema) :
    Engine → List Csv.Record → Engine × Except DatabaseError Nat
  | e, [] => (e, .ok 0)
  | e, r :: rest =>
    match r.tuple schema with
    | .error err => (e, .error err)
    | .ok tuple =>
      match e.call t (.insert table tuple) with
      | (e, .error err) => (e, .error (.file err))
      | (e, .ok _) =>
        let (e, count) := loadRecords t table schema e rest
        (e, (· + 1) <$> count)

/-- Loads a file's records into a table for a transaction that is alone, and counts them. -/
def load (e : Engine) (t : TxnId) (table : TableId) (p : Path) (delimiter : UInt8) :
    Engine × Except DatabaseError Nat :=
  match e.schema table, e.disk.read p with
  | .error err, _ => (e, .error err)
  | .ok _, .error _ => (e, .error .csv)
  | .ok schema, .ok bytes => loadRecords t table schema e (Csv.read delimiter bytes)

end Engine

end RowStore
