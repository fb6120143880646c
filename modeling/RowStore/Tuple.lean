import RowStore.Value.Codec
import RowStore.Schema.Check

/-! # Tuples
A tuple is a record with its schema and, once it is stored, the place where it is. A stored record is
the concatenation of its stored values. -/

namespace RowStore

/-- A record with its columns. -/
structure Tuple where
  schema : Schema
  values : List Value
  /-- Where the record is stored, if it is. -/
  id? : Option RecordId
  deriving DecidableEq, Inhabited

/-- The octets of values in columns of the given types, one after another. -/
def encodeFields : List ColumnType → List Value → Except RecordError Bytes
  | t :: ts, v :: vs => do return (← v.encode t) ++ (← encodeFields ts vs)
  | _, _ => .ok []

/-- The values that octets store in columns of the given types. -/
def readFields : List ColumnType → Bytes → List Value
  | [], _ => []
  | t :: ts, bytes => Value.read t (bytes.take t.size) :: readFields ts (bytes.drop t.size)

@[simp] theorem length_readFields (types : List ColumnType) (bytes : Bytes) :
    (readFields types bytes).length = types.length := by
  induction types generalizing bytes with
  | nil => rfl
  | cons t ts ih => simp [readFields, ih]

namespace Tuple

/-- A record of valid values that is not stored anywhere yet. -/
def new (schema : Schema) (values : List Value) : Except RecordError Tuple := do
  schema.validate values
  return ⟨schema, values, none⟩

/-- Replaces one value by another that fits its column. -/
def set (t : Tuple) (i : Nat) (v : Value) : Except RecordError Tuple := do
  let type ← t.schema.fieldType i
  if v.fits type then return { t with values := t.values.set i v }
  else throw (.typeMismatch type v)

/-- The octets of a stored record. -/
def encode (t : Tuple) : Except RecordError Bytes :=
  encodeFields t.schema.types t.values

/-- The record that octets store. -/
def read (schema : Schema) (bytes : Bytes) : Tuple :=
  ⟨schema, readFields schema.types bytes, none⟩

/-- Reads a record from exactly as many octets as its schema takes. -/
def decode (schema : Schema) (bytes : Bytes) : Except RecordError Tuple :=
  if bytes.length = schema.recordSize then .ok (read schema bytes)
  else .error (.corruptPage schema.recordSize bytes.length)

/-- The tuple as a line: its values, set apart by tabs. -/
def render (t : Tuple) : String :=
  "\t".intercalate (t.values.map Value.render)

end Tuple

end RowStore
