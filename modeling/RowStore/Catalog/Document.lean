import RowStore.Catalog.Tables
import RowStore.Config
import RowStore.Value.TypeName

/-! # Schema documents
A database is described by a JSON document: its configuration, if it has one, and its tables, each with
a file, columns with the names of their types, and perhaps a primary key. -/

namespace RowStore

/-- A declared column. -/
structure ColumnDecl where
  name : String
  typeName : String
  deriving DecidableEq, Repr

/-- A declared table. -/
structure TableDecl where
  name : String
  file : String
  columns : List ColumnDecl
  primaryKey : Option String
  deriving DecidableEq, Repr

/-- A description of a database. -/
structure SchemaDocument where
  config : Option Config
  tables : List TableDecl
  deriving DecidableEq, Repr

namespace ColumnDecl

/-- A column as a JSON record. -/
def ofJson? (j : Json) : Option ColumnDecl := do
  match ← j.record? ["name", "type"] with
  | [some name, some typeName] => return ⟨← name.string?, ← typeName.string?⟩
  | _ => none

/-- The declared column. -/
def column (d : ColumnDecl) : Except RecordError Column :=
  Column.mk d.name <$> ColumnType.parse d.typeName

end ColumnDecl

namespace TableDecl

/-- A table as a JSON record. -/
def ofJson? (j : Json) : Option TableDecl := do
  match ← j.record? ["name", "file", "columns", "primary_key"] with
  | [some name, some file, some columns, primaryKey] =>
    return {
      name := ← name.string?
      file := ← file.string?
      columns := ← (← columns.list?).mapM ColumnDecl.ofJson?
      primaryKey := ← Json.optional? Json.string? primaryKey }
  | _ => none

/-- The declared columns. -/
def schema (d : TableDecl) : Except RecordError Schema :=
  Schema.mk <$> d.columns.mapM ColumnDecl.column

end TableDecl

namespace SchemaDocument

/-- A description as a JSON record. -/
def ofJson? (j : Json) : Option SchemaDocument := do
  match ← j.record? ["config", "tables"] with
  | [config, some tables] =>
    return {
      config := ← Json.optional? Config.ofJson? config
      tables := ← (← tables.list?).mapM TableDecl.ofJson? }
  | _ => none

/-- Reads a description from a file. -/
def load (t : FileTree) (p : Path) : Except CatalogError SchemaDocument :=
  match t.readText p with
  | .error e => .error (.io e)
  | .ok s =>
    match (Json.parse? s).bind ofJson? with
    | some d => .ok d
    | none => .error .json

end SchemaDocument

namespace Tables

/-- Registers a declared table; `base` is the directory that its file is named from. -/
def declare (s : Tables) (base : Path) (pageSize : Nat) (d : TableDecl) :
    Tables × Except CatalogError TableId :=
  match d.schema with
  | .error e => (s, .error (.record e))
  | .ok schema =>
    let path := base.join (.parse s.disk.root d.file)
    let (s, result) := s.openTable path d.name schema d.primaryKey pageSize
    (s, result.mapError OpenError.toCatalogError)

/-- Registers declared tables one after another, up to the first that cannot be; `seen` are the names
of those before. -/
def declareAll (base : Path) (pageSize : Nat) :
    Tables → List String → List TableDecl → Tables × Except CatalogError (List TableId)
  | s, _, [] => (s, .ok [])
  | s, seen, d :: rest =>
    if d.name ∈ seen then (s, .error (.duplicateTable d.name))
    else
      match s.declare base pageSize d with
      | (s, .error e) => (s, .error e)
      | (s, .ok id) =>
        let (s, ids) := declareAll base pageSize s (d.name :: seen) rest
        (s, (id :: ·) <$> ids)

/-- Registers the tables of a description. -/
def register (s : Tables) (d : SchemaDocument) (base : Path) (pageSize : Nat) :
    Tables × Except CatalogError (List TableId) :=
  declareAll base pageSize s [] d.tables

/-- Registers the tables of a description in a file; their files are named from its directory. -/
def loadSchema (s : Tables) (p : Path) (pageSize : Nat) :
    Tables × Except CatalogError (List TableId) :=
  match SchemaDocument.load s.disk p with
  | .error e => (s, .error e)
  | .ok d => s.register d p.parent pageSize

end Tables

end RowStore
