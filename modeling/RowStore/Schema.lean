import RowStore.Value

/-! # Schemas
A schema is the list of columns of a record. Names need not be distinct or non-empty; the first column
of a name is the one that is found. -/

namespace RowStore

/-- A named column. -/
structure Column where
  name : String
  type : ColumnType
  deriving DecidableEq, Repr, Inhabited

/-- The columns of a record, in the order in which they are stored. -/
structure Schema where
  columns : List Column
  deriving DecidableEq, Repr, Inhabited

namespace Schema

/-- A schema of unnamed columns. -/
def ofTypes (types : List ColumnType) : Schema :=
  ⟨types.map (Column.mk "")⟩

/-- The types of the columns. -/
def types (s : Schema) : List ColumnType :=
  s.columns.map Column.type

@[simp] theorem types_ofTypes (types : List ColumnType) : (ofTypes types).types = types := by
  simp [ofTypes, Schema.types, Function.comp_def]

/-- The number of columns. -/
def size (s : Schema) : Nat :=
  s.columns.length

/-- The number of octets of a stored record. -/
def recordSize (s : Schema) : Nat :=
  ColumnType.totalSize s.types

/-- The columns of one schema, then those of another. -/
def append (s t : Schema) : Schema :=
  ⟨s.columns ++ t.columns⟩

instance : Append Schema := ⟨append⟩

@[simp] theorem columns_append (s t : Schema) : (s ++ t).columns = s.columns ++ t.columns := rfl

@[simp] theorem recordSize_append (s t : Schema) :
    (s ++ t).recordSize = s.recordSize + t.recordSize := by
  simp [recordSize, types]

/-- The schema under an alias: every column `c` becomes `alias.c`. -/
def withAlias (s : Schema) (aliasName : String) : Schema :=
  ⟨s.columns.map fun c => ⟨aliasName ++ "." ++ c.name, c.type⟩⟩

@[simp] theorem types_withAlias (s : Schema) (aliasName : String) :
    (s.withAlias aliasName).types = s.types := by
  simp [withAlias, types, Function.comp_def]

/-- Two schemas are compatible when they have the same types in the same order. -/
def compatible (s t : Schema) : Bool :=
  s.types == t.types

@[simp] theorem compatible_iff {s t : Schema} : s.compatible t = true ↔ s.types = t.types := by
  simp [compatible]

/-- The position of the first column of a name. -/
def find? (s : Schema) (name : String) : Option Nat :=
  s.columns.findIdx? (·.name == name)

/-- The octet of a record at which a column starts; none for a column after the end, which is one past
the last. -/
def offset? (s : Schema) (i : Nat) : Option Nat :=
  if i ≤ s.size then some (ColumnType.totalSize (s.types.take i)) else none

/-- The schema as text: the type of each column, and its name in parentheses. -/
def render (s : Schema) : String :=
  ", ".intercalate (s.columns.map fun c => c.type.name ++ "(" ++ c.name ++ ")")

end Schema

end RowStore
