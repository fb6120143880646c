import RowStore.Json
import RowStore.Text.Quoted

/-! # Configuration
The size of pages, and how many of them are kept in memory. -/

namespace RowStore

/-- What can be wrong with a configuration. -/
inductive ConfigError where
  | zeroPageSize
  | zeroPoolPages
  /-- A character that is no single octet cannot set fields apart. -/
  | wideDelimiter (c : Char)
  deriving DecidableEq, Repr

/-- Says what is wrong. -/
def ConfigError.message : ConfigError → String
  | zeroPageSize => "page_size must be positive"
  | zeroPoolPages => "buffer_pool_pages must be positive"
  | wideDelimiter c => "delimiter " ++ Quoted.char c ++ " is not ASCII"

/-- The sizes that a database works with. -/
structure Config where
  /-- The number of octets of a page. -/
  pageSize : Nat := 4096
  /-- The number of pages kept in memory. -/
  poolPages : Nat := 50
  deriving DecidableEq, Repr, Inhabited

namespace Config

/-- The sizes of a database that is not told any. -/
def standard : Config := {}

/-- Replaces the sizes that are given. -/
def override (c : Config) (pageSize? poolPages? : Option Nat) : Config :=
  ⟨pageSize?.getD c.pageSize, poolPages?.getD c.poolPages⟩

/-- What is wrong with a configuration, if anything; the page size comes first. -/
def fault? (c : Config) : Option ConfigError :=
  if c.pageSize = 0 then some .zeroPageSize
  else if c.poolPages = 0 then some .zeroPoolPages
  else none

theorem fault?_eq_none {c : Config} : c.fault? = none ↔ 0 < c.pageSize ∧ 0 < c.poolPages := by
  unfold fault?
  split
  · simp; omega
  · split <;> simp <;> omega

/-- A configuration as a JSON document; what it leaves out has its default. -/
def ofJson? (j : Json) : Option Config := do
  match ← j.record? ["page_size", "buffer_pool_pages"] with
  | [pageSize, poolPages] =>
    return ⟨← Json.wordOr? standard.pageSize pageSize, ← Json.wordOr? standard.poolPages poolPages⟩
  | _ => none

end Config

end RowStore
