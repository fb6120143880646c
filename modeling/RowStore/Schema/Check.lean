import RowStore.RecordError

/-! # Checks against a schema
Looking up columns and checking records, with an error that names what is wrong. -/

namespace RowStore.Schema

/-- The column at a position. -/
def column (s : Schema) (i : Nat) : Except RecordError Column :=
  match s.columns[i]? with
  | some c => .ok c
  | none => .error (.fieldIndex i s.size)

/-- The name of the column at a position. -/
def fieldName (s : Schema) (i : Nat) : Except RecordError String :=
  Column.name <$> s.column i

/-- The type of the column at a position. -/
def fieldType (s : Schema) (i : Nat) : Except RecordError ColumnType :=
  Column.type <$> s.column i

/-- The position of the first column of a name. -/
def fieldIndex (s : Schema) (name : String) : Except RecordError Nat :=
  match s.find? name with
  | some i => .ok i
  | none => .error (.fieldNotFound name)

/-- Checks values against column types one by one; the first that does not fit is the error. -/
def checkFields : List ColumnType → List Value → Except RecordError Unit
  | t :: ts, v :: vs => if v.fits t then checkFields ts vs else .error (.typeMismatch t v)
  | _, _ => .ok ()

/-- Checks that a record has one value for each column, each of which fits. -/
def validate (s : Schema) (values : List Value) : Except RecordError Unit :=
  if values.length = s.size then checkFields s.types values
  else .error (.schemaMismatch (.columnCount s.size values.length))

end RowStore.Schema
