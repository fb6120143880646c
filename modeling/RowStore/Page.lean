import RowStore.Page.Bitmap
import RowStore.Page.Layout
import RowStore.Tuple

/-! # Pages in memory
A page is a bitmap and a row of slots. A slot is used when its bit is set; the bits past the last slot
mean nothing and are kept as they are. A page also remembers which transaction has changed it since it
was last read or written. -/

namespace RowStore

/-- A page of a table, in memory. -/
structure Page where
  id : PageId
  layout : Layout
  /-- One bit for each slot, up to whole octets. -/
  bits : List Bool
  /-- What each slot holds. -/
  slots : List (Option Tuple)
  /-- The transaction whose changes are not written yet. -/
  dirtiedBy : Option TxnId
  length_bits : bits.length = 8 * layout.headerSize
  length_slots : slots.length = layout.slotCount

namespace Page

/-- The number of slots. -/
def slotCount (p : Page) : Nat :=
  p.layout.slotCount

/-- Whether a slot is used; there is none past the last. -/
def isUsed (p : Page) (slot : Nat) : Bool :=
  slot < p.slotCount && p.bits.getD slot false

/-- The lowest slot that is not used. -/
def freeSlot? (p : Page) : Option Nat :=
  (p.bits.take p.slotCount).findIdx? (!·)

/-- The number of slots that are not used. -/
def freeCount (p : Page) : Nat :=
  (p.bits.take p.slotCount).count false

/-- Whether all slots are used. -/
def isFull (p : Page) : Bool :=
  p.freeSlot?.isNone

/-- The record in a slot, if the slot is used. -/
def tuple? (p : Page) (slot : Nat) : Option Tuple :=
  if p.isUsed slot then p.slots.getD slot none else none

/-- The records of the page with their slots, in the order of the slots. -/
def entries (p : Page) : List (Nat × Tuple) :=
  (p.bits.zip p.slots).zipIdx.filterMap fun ((used, content), slot) =>
    if used then content.map (slot, ·) else none

/-- The records of the page, in the order of their slots. -/
def tuples (p : Page) : List Tuple :=
  p.entries.map Prod.snd

/-- Puts a record into the lowest free slot, and tells its id. -/
def insert (p : Page) (t : Tuple) : Except RecordError (RecordId × Page) :=
  if t.schema.compatible p.layout.schema then
    match p.freeSlot? with
    | some slot =>
      let id : RecordId := ⟨p.id, slot⟩
      .ok (id, { p with
        bits := p.bits.set slot true
        slots := p.slots.set slot (some { t with id? := some id })
        length_bits := by simp [p.length_bits]
        length_slots := by simp [p.length_slots] })
    | none => .error (.pageFull p.id)
  else .error (.schemaMismatch (.page t.schema p.layout.schema))

/-- Frees the slot of a record of this page. -/
def delete (p : Page) (r : RecordId) : Except RecordError Page :=
  if r.page = p.id ∧ p.isUsed r.slot then
    .ok { p with
      bits := p.bits.set r.slot false
      slots := p.slots.set r.slot none
      length_bits := by simp [p.length_bits]
      length_slots := by simp [p.length_slots] }
  else .error (.tupleNotFound r)

/-- Sets or clears the mark of a transaction. -/
def mark (p : Page) (dirtiedBy : Option TxnId) : Page :=
  { p with dirtiedBy }

/-- Whether two pages store the same: their names, layouts, bits and records agree. -/
def same (p q : Page) : Bool :=
  p.id == q.id && p.layout == q.layout && p.bits == q.bits && p.tuples == q.tuples

@[simp] theorem same_self (p : Page) : p.same p = true := by
  simp [same]

@[simp] theorem same_mark (p : Page) (t : Option TxnId) : (p.mark t).same p = true := by
  simp [same, mark, tuples, entries]

end Page

end RowStore
