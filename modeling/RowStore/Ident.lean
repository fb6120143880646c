import RowStore.Text.Utf8

/-! # Identifiers
Names of tables, pages, records and transactions. A table is named by the place of the file that stores
it; a bare number names a table that no file stores. -/

namespace RowStore

/-- The place of a file or directory: the names on the way from the root. -/
abbrev Location := List String

/-- A location as text, relative to the root. -/
def Location.text (l : Location) : String :=
  "/".intercalate l

/-- Names a table. -/
inductive TableId where
  /-- A number that belongs to no file. -/
  | number (n : Nat)
  /-- The table that the file at a location stores. -/
  | file (location : Location)
  deriving DecidableEq, Repr, Inhabited, Ord, Hashable

/-- A table's name as messages show it. -/
def TableId.text : TableId → String
  | .number n => toString n
  | .file l => "<" ++ l.text ++ ">"

/-- Names a page of a table by its position. -/
structure PageId where
  table : TableId
  number : Nat
  deriving DecidableEq, Repr, Inhabited, Ord, Hashable

namespace PageId

/-- A page's name as messages show it. -/
def text (p : PageId) : String :=
  p.table.text ++ ":" ++ toString p.number

/-- A page of a numbered table as two words, if both numbers are words. -/
def toWords? (p : PageId) : Option (UInt64 × UInt64) :=
  match p.table with
  | .number n =>
    if n < UInt64.size ∧ p.number < UInt64.size then some (.ofNat n, .ofNat p.number) else none
  | .file _ => none

/-- The page that two words name. -/
def ofWords (words : UInt64 × UInt64) : PageId :=
  ⟨.number words.1.toNat, words.2.toNat⟩

theorem toWords?_ofWords (words : UInt64 × UInt64) : (ofWords words).toWords? = some words := by
  simp [ofWords, toWords?, words.1.toNat_lt, words.2.toNat_lt]

end PageId

/-- Names a record by its page and slot. -/
structure RecordId where
  page : PageId
  slot : Nat
  deriving DecidableEq, Repr, Inhabited, Ord, Hashable

/-- A record's name as messages show it. -/
def RecordId.text (r : RecordId) : String :=
  r.page.text ++ "#" ++ toString r.slot

/-- Names a transaction; later transactions have greater numbers. -/
structure TxnId where
  number : Nat
  deriving DecidableEq, Repr, Inhabited, Ord, Hashable

/-- A transaction's name as messages show it. -/
def TxnId.text (t : TxnId) : String :=
  "tx" ++ toString t.number

end RowStore
