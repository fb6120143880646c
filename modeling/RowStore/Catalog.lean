import RowStore.Catalog.State

/-! # The catalog
The tables that a database knows, each with a name, its file, and perhaps a primary key. No two tables
have the same name, and no two have the same file: the maps of the catalog stay consistent with whatever
is registered. -/

namespace RowStore

/-- The registered tables, in maps that agree with each other. -/
structure Catalog extends CatalogState where
  consistent : toCatalogState.Consistent
  deriving DecidableEq

namespace Catalog

/-- The catalog without tables. -/
def empty : Catalog := ⟨∅, CatalogState.consistent_empty⟩

instance : EmptyCollection Catalog := ⟨empty⟩

instance : Inhabited Catalog := ⟨∅⟩

/-- Registers a table, in place of those that have its name or its file. -/
def add (c : Catalog) (name : String) (file : HeapFile) (primaryKey : Option String) : Catalog :=
  ⟨c.toCatalogState.add name file primaryKey, c.consistent.add name file primaryKey⟩

/-- Forgets all tables. -/
def clear (c : Catalog) : Catalog :=
  ⟨c.toCatalogState.clear, CatalogState.consistent_empty⟩

@[simp] theorem find?_add_self (c : Catalog) (name : String) (file : HeapFile)
    (primaryKey : Option String) :
    (c.add name file primaryKey).find? file.id = some ⟨name, file, primaryKey⟩ :=
  c.toCatalogState.find?_add_self name file primaryKey

end Catalog

end RowStore
