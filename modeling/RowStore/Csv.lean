import RowStore.Text.Utf8

/-! # Comma-separated records
Reading the records of a text whose fields a delimiter sets apart. A field that starts with a double
quote goes on to the next double quote, over delimiters and line ends; inside it two double quotes stand
for one, and what follows its end up to the delimiter belongs to it. A carriage return or a line feed
ends a record, records without any character are left out, and records need not have equally many
fields. The reader is a machine over octets; what it reads is valid for any octets. -/

namespace RowStore.Csv

/-- A record, with the line on which the record before it has ended. -/
structure Record where
  line : Nat
  fields : List Bytes
  deriving DecidableEq, Repr

/-- Where the reader stands. -/
inductive Mode where
  /-- Before a record. -/
  | startRecord
  /-- Before a record, after a carriage return that may be one half of a line end. -/
  | afterReturn
  /-- Before a field. -/
  | startField
  | inField
  | inQuotes
  /-- After a double quote that ends the quotes, unless another one follows. -/
  | afterQuote
  deriving DecidableEq, Repr

/-- What the reader has read of a record. -/
structure Reader where
  mode : Mode := .startRecord
  /-- The octets of the open field, the last first. -/
  field : Bytes := []
  /-- The closed fields of the record, the last first. -/
  fields : List Bytes := []
  /-- The line of the next octet. -/
  line : Nat := 1
  /-- The line on which the record before has ended. -/
  recordLine : Nat := 1

namespace Reader

/-- Takes an octet into the open field. -/
def push (r : Reader) (b : UInt8) (mode : Mode) : Reader :=
  { r with field := b :: r.field, mode }

/-- Closes the open field, before another one. -/
def closeField (r : Reader) : Reader :=
  { r with field := [], fields := r.field.reverse :: r.fields, mode := .startField }

/-- The record that ends with the open field. -/
def record (r : Reader) : Record :=
  ⟨r.recordLine, r.closeField.fields.reverse⟩

/-- Whether an octet ends records. -/
def endsLine (b : UInt8) : Bool :=
  b == 0x0D || b == 0x0A

/-- Ends the record with the octet that ends its line. -/
def closeRecord (r : Reader) (b : UInt8) : Reader × Option Record :=
  ({ mode := if b = 0x0D then .afterReturn else .startRecord
     line := r.line
     recordLine := r.line }, some r.record)

/-- Reads an octet that is not quoted, in a field or before one. -/
def unquoted (r : Reader) (delimiter b : UInt8) : Reader × Option Record :=
  if b = delimiter then (r.closeField, none)
  else if endsLine b then r.closeRecord b
  else (r.push b .inField, none)

/-- Reads the first octet of a field. -/
def first (r : Reader) (delimiter b : UInt8) : Reader × Option Record :=
  if b = 0x22 then ({ r with mode := .inQuotes }, none) else r.unquoted delimiter b

/-- Reads an octet, and tells the record that it ends. -/
def next (r : Reader) (delimiter b : UInt8) : Reader × Option Record :=
  let r := if b = 0x0A then { r with line := r.line + 1 } else r
  match r.mode with
  | .afterReturn | .startRecord =>
    if endsLine b then ({ r with mode := .startRecord }, none) else r.first delimiter b
  | .startField => r.first delimiter b
  | .inField => r.unquoted delimiter b
  | .inQuotes => if b = 0x22 then ({ r with mode := .afterQuote }, none) else (r.push b .inQuotes, none)
  | .afterQuote => if b = 0x22 then (r.push b .inQuotes, none) else r.unquoted delimiter b

/-- The record that the end of the text ends. -/
def last? (r : Reader) : Option Record :=
  match r.mode with
  | .startRecord | .afterReturn => none
  | _ => some r.record

/-- The reader after the end of the text. -/
def finished (r : Reader) : Reader :=
  { line := r.line, recordLine := r.line }

/-- Reads octets up to the end of a record, and tells the octets after it and the record. -/
def run (delimiter : UInt8) : Reader → Bytes → Reader × Bytes × Option Record
  | r, [] => (r, [], none)
  | r, b :: rest =>
    match r.next delimiter b with
    | (r, some record) => (r, rest, some record)
    | (r, none) => run delimiter r rest

end Reader

/-- The records that a reader still reads. -/
def readFrom (delimiter : UInt8) : Reader → Bytes → List Record
  | r, [] => r.last?.toList
  | r, b :: rest =>
    let (r, record?) := r.next delimiter b
    record?.toList ++ readFrom delimiter r rest

theorem readFrom_of_run_some {delimiter : UInt8} {r r' : Reader} {bytes rest : Bytes}
    {record : Record} (h : r.run delimiter bytes = (r', rest, some record)) (more : Bytes) :
    readFrom delimiter r (bytes ++ more) = record :: readFrom delimiter r' (rest ++ more) := by
  fun_induction Reader.run delimiter r bytes with
  | case1 => simp at h
  | case2 r b tail s record' hs =>
    simp only [Prod.mk.injEq, Option.some.injEq] at h
    obtain ⟨rfl, rfl, rfl⟩ := h
    simp [readFrom, hs]
  | case3 r b tail s hs ih => simp [readFrom, hs, ih h]

theorem readFrom_of_run_none {delimiter : UInt8} {r r' : Reader} {bytes rest : Bytes}
    (h : r.run delimiter bytes = (r', rest, none)) (more : Bytes) :
    readFrom delimiter r (bytes ++ more) = readFrom delimiter r' more := by
  fun_induction Reader.run delimiter r bytes with
  | case1 =>
    simp only [Prod.mk.injEq] at h
    obtain ⟨rfl, -⟩ := h
    rfl
  | case2 => simp at h
  | case3 r b tail s hs ih => simp [readFrom, hs, ih h]

/-- The octets after a byte order mark. -/
def withoutMark : Bytes → Bytes
  | 0xEF :: 0xBB :: 0xBF :: rest => rest
  | bytes => bytes

/-- The records of a text. -/
def read (delimiter : UInt8) (bytes : Bytes) : List Record :=
  readFrom delimiter {} (withoutMark bytes)

/-- The fields of a record as texts, if all are. -/
def Record.texts? (r : Record) : Option (List String) :=
  r.fields.mapM Utf8.decode?

end RowStore.Csv
