import RowStore.RecordError

/-! # Page layouts
A page is a bitmap with one bit for each slot, then the slots, then zeros. Records have a fixed size, so
the number of slots is the greatest for which bitmap and slots fit. Main statement: they do fit
(`header_add_slots_le`). -/

namespace RowStore

/-- The number of records of `record` octets that fit a page of `page` octets, each with one bit. -/
def slotCapacity (record page : Nat) : Nat :=
  if record = 0 ∨ page < record then 0 else page * 8 / (record * 8 + 1)

/-- How a table's pages are divided into slots; a page has at least one. -/
structure Layout where
  schema : Schema
  pageSize : Nat
  slotCapacity_pos : 0 < slotCapacity schema.recordSize pageSize
  deriving DecidableEq

namespace Layout

/-- The layout of pages of a size, if a record fits such a page. -/
def new (schema : Schema) (pageSize : Nat) : Except RecordError Layout :=
  if h : 0 < slotCapacity schema.recordSize pageSize then .ok ⟨schema, pageSize, h⟩
  else .error (.schemaMismatch (.recordSize schema.recordSize pageSize))

/-- The number of octets of a stored record. -/
def recordSize (l : Layout) : Nat :=
  l.schema.recordSize

/-- The number of slots of a page. -/
def slotCount (l : Layout) : Nat :=
  slotCapacity l.recordSize l.pageSize

/-- The number of octets of the bitmap. -/
def headerSize (l : Layout) : Nat :=
  (l.slotCount + 7) / 8

/-- The octets of a page without records. -/
def emptyPage (l : Layout) : Bytes :=
  List.replicate l.pageSize 0

@[simp] theorem length_emptyPage (l : Layout) : l.emptyPage.length = l.pageSize := by
  simp [emptyPage]

theorem slotCount_pos (l : Layout) : 0 < l.slotCount :=
  l.slotCapacity_pos

theorem slotCount_le_bits (l : Layout) : l.slotCount ≤ 8 * l.headerSize := by
  simp only [headerSize]
  omega

/-- Bitmap and slots fit the page. -/
theorem header_add_slots_le (l : Layout) :
    l.headerSize + l.slotCount * l.recordSize ≤ l.pageSize := by
  have pos := l.slotCount_pos
  have bound : l.slotCount * (l.recordSize * 8 + 1) ≤ l.pageSize * 8 := by
    simp only [slotCount, slotCapacity] at pos ⊢
    split
    · simp
    · exact Nat.div_mul_le_self ..
  rw [Nat.mul_add, Nat.mul_one, ← Nat.mul_assoc] at bound
  simp only [headerSize]
  omega

theorem headerSize_le (l : Layout) : l.headerSize ≤ l.pageSize :=
  Nat.le_trans (Nat.le_add_right ..) l.header_add_slots_le

end Layout

end RowStore
