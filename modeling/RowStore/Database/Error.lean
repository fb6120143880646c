import RowStore.Catalog
import RowStore.Config

/-! # Database errors
What a database answers when something goes wrong. -/

namespace RowStore

/-- What can go wrong with a database. -/
inductive DatabaseError where
  | config (e : ConfigError)
  | io (e : IoError)
  | catalog (e : CatalogError)
  | record (e : RecordError)
  | file (e : FileError)
  /-- A file of records cannot be read, or holds no text. -/
  | csv
  /-- A field of a record is no value of its column's type. -/
  | field (line : Nat) (text : String) (expected : ColumnType)
  deriving DecidableEq

namespace DatabaseError

/-- Says what went wrong. -/
def message : DatabaseError → String
  | config e => "Invalid configuration: " ++ e.message
  | io e => "Cannot read/write file: " ++ e.message
  | catalog e => "Catalog error: " ++ e.message
  | record e => "Record error: " ++ e.message
  | file e => "File error: " ++ e.message
  | csv => "CSV error: the records cannot be read"
  | field line text expected =>
    "Line " ++ toString line ++ ": cannot parse " ++ Quoted.text text ++ " as " ++ expected.name

/-- Whether the error means that the transaction can only be aborted. -/
def isAborted : DatabaseError → Bool
  | file e | catalog (.file e) => e.isAborted
  | _ => false

end DatabaseError

end RowStore
