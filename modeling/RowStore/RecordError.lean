import RowStore.Schema
import RowStore.Ident

/-! # Record errors
What can be wrong with a value, a record or a page, and how a message says it. -/

namespace RowStore

/-- How columns and what they describe disagree. -/
inductive SchemaMismatch where
  /-- A record has another number of values than there are columns. -/
  | columnCount (expected actual : Nat)
  /-- A record cannot be stored in any page of this size. -/
  | recordSize (size room : Nat)
  /-- A tuple has other types than the page it should go to. -/
  | page (given expected : Schema)
  /-- A tuple has other types than the table it should go to. -/
  | table (given expected : Schema)
  deriving DecidableEq, Repr

/-- Says how columns and what they describe disagree. -/
def SchemaMismatch.message : SchemaMismatch → String
  | columnCount expected actual =>
    "Expected " ++ toString expected ++ " columns, got " ++ toString actual
  | recordSize size room =>
    "Record size " ++ toString size ++ " does not fit a " ++ toString room ++ " byte page"
  | page given expected =>
    "Tuple (" ++ given.render ++ ") does not match page layout (" ++ expected.render ++ ")"
  | table given expected =>
    "Tuple (" ++ given.render ++ ") does not match table (" ++ expected.render ++ ")"

/-- What can be wrong with a value, a record or a page. -/
inductive RecordError where
  /-- Octets have another length than what they should store. -/
  | corruptPage (expected actual : Nat)
  /-- No slot of the page is free. -/
  | pageFull (page : PageId)
  /-- The page holds no such record. -/
  | tupleNotFound (record : RecordId)
  | schemaMismatch (mismatch : SchemaMismatch)
  /-- A value does not fit the type of its column. -/
  | typeMismatch (expected : ColumnType) (actual : Value)
  /-- There is no column at this position. -/
  | fieldIndex (index size : Nat)
  /-- There is no column of this name. -/
  | fieldNotFound (name : String)
  /-- A text has more octets than its column stores. -/
  | textTooLong (length max : Nat)
  /-- A text names no type. -/
  | invalidType (text : String)
  deriving DecidableEq

/-- Says what is wrong. -/
def RecordError.message : RecordError → String
  | corruptPage expected actual =>
    "Corrupt page: expected " ++ toString expected ++ " bytes, got " ++ toString actual
  | pageFull page => "Page full: " ++ page.text
  | tupleNotFound record => "Tuple not found: " ++ record.text
  | schemaMismatch mismatch => "Schema mismatch: " ++ mismatch.message
  | typeMismatch expected actual =>
    "Type mismatch: expected " ++ expected.name ++ ", got " ++ actual.describe
  | fieldIndex index size =>
    "Field index " ++ toString index ++ " out of range for " ++ toString size ++ " fields"
  | fieldNotFound name => "Field not found: " ++ name
  | textTooLong length max =>
    "String of " ++ toString length ++ " bytes exceeds max length " ++ toString max
  | invalidType text => "Invalid type: " ++ text

end RowStore
