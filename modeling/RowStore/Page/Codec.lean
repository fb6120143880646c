import RowStore.Page

/-! # Stored pages
A page is stored as its bitmap, its slots one after another, and zeros up to the page size; a free slot
is stored as zeros. Reading ignores what free slots hold. -/

namespace RowStore.Page

/-- The contents of the slots whose bits are given, the first of which is `slot`. -/
def readSlots (id : PageId) (schema : Schema) : Nat → List Bool → Bytes → List (Option Tuple)
  | _, [], _ => []
  | slot, used :: bits, bytes =>
    let content :=
      if used then
        some { Tuple.read schema (bytes.take schema.recordSize) with id? := some ⟨id, slot⟩ }
      else none
    content :: readSlots id schema (slot + 1) bits (bytes.drop schema.recordSize)

@[simp] theorem length_readSlots (id : PageId) (schema : Schema) (slot : Nat) (bits : List Bool)
    (bytes : Bytes) : (readSlots id schema slot bits bytes).length = bits.length := by
  induction bits generalizing slot bytes with
  | nil => rfl
  | cons used bits ih => simp [readSlots, ih]

/-- The clean page that exactly a page's number of octets store. -/
def decode (id : PageId) (layout : Layout) (bytes : Bytes) : Except RecordError Page :=
  if h : bytes.length = layout.pageSize then
    let bits := Bitmap.unpack (bytes.take layout.headerSize)
    have length_bits : bits.length = 8 * layout.headerSize := by
      have := layout.headerSize_le
      simp [bits, h, Nat.min_eq_left this]
    .ok {
      id, layout, bits, length_bits
      slots := readSlots id layout.schema 0 (bits.take layout.slotCount)
        (bytes.drop layout.headerSize)
      dirtiedBy := none
      length_slots := by
        have := layout.slotCount_le_bits
        simp [length_bits, Nat.min_eq_left this] }
  else .error (.corruptPage layout.pageSize bytes.length)

/-- The octets of slots with their bits. -/
def encodeSlots (recordSize : Nat) : List (Bool × Option Tuple) → Except RecordError Bytes
  | [] => .ok []
  | (true, some t) :: rest => do return (← t.encode) ++ (← encodeSlots recordSize rest)
  | _ :: rest => do return List.replicate recordSize 0 ++ (← encodeSlots recordSize rest)

/-- The octets of a page. -/
def encode (p : Page) : Except RecordError Bytes := do
  let slots ← encodeSlots p.layout.recordSize (p.bits.zip p.slots)
  let used := Bitmap.pack p.bits ++ slots
  return used ++ List.replicate (p.layout.pageSize - used.length) 0

/-- A page without records. -/
def empty (id : PageId) (layout : Layout) : Except RecordError Page :=
  decode id layout layout.emptyPage

end RowStore.Page
