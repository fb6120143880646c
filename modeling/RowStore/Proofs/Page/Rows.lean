import Mathlib.Data.List.Basic
import RowStore.Page.Codec
import RowStore.Proofs.Page.Fields

/-! # The rows of a page
What a page stores is the values in each of its slots (`row?`). An insertion and a deletion change one
row (`row?_of_insert`, `row?_of_delete`), and a page that is written and read again has the same bitmap
and the same rows (`decode_of_encode`), if each used slot holds a complete record (`Sound`). -/

namespace RowStore

/-- To go through a list with its indices is to go through the indices. -/
theorem filterMap_zipIdx {α β : Type} (g : α × Nat → Option β) (l : List α) (first : Nat) :
    (l.zipIdx first).filterMap g
      = (List.range l.length).filterMap fun i => l[i]?.bind fun a => g (a, first + i) := by
  induction l generalizing first with
  | nil => rfl
  | cons a l ih =>
    have head : g (a, first) = ((a :: l)[0]?.bind fun a => g (a, first + 0)) := rfl
    have tail : ∀ i, (l[i]?.bind fun a => g (a, first + 1 + i))
        = ((a :: l)[i + 1]?.bind fun a => g (a, first + (i + 1))) := by
      intro i
      rw [List.getElem?_cons_succ, Nat.add_assoc, Nat.add_comm 1 i]
    rw [List.zipIdx_cons, List.filterMap_cons, ih, List.length_cons, List.range_succ_eq_map,
      List.filterMap_cons, List.filterMap_map, head]
    simp only [tail, Function.comp_def]

namespace Page

variable {p q : Page} {t : Tuple} {slot : Nat}

/-- The values in a slot, if it is used. -/
def row? (p : Page) (slot : Nat) : Option (List Value) :=
  (p.tuple? slot).map Tuple.values

/-- Two pages have the same bitmap, and the same values in each slot. -/
structure Agrees (p q : Page) : Prop where
  bits : p.bits = q.bits
  rows : p.row? = q.row?

theorem Agrees.refl (p : Page) : p.Agrees p := ⟨rfl, rfl⟩

theorem Agrees.mark (h : p.Agrees q) (t : Option TxnId) : (p.mark t).Agrees q := ⟨h.bits, h.rows⟩

/-- Every used slot holds a complete record, under the slot's own record id. -/
def Sound (p : Page) : Prop :=
  ∀ slot, p.isUsed slot = true →
    ∃ t, p.tuple? slot = some t ∧ t.Fills p.layout.schema ∧ t.id? = some ⟨p.id, slot⟩

theorem Sound.mark (h : p.Sound) (t : Option TxnId) : (p.mark t).Sound := h

theorem isUsed_iff : p.isUsed slot = true ↔ slot < p.slotCount ∧ p.bits[slot]? = some true := by
  rw [isUsed, Bool.and_eq_true, decide_eq_true_eq, List.getD_eq_getElem?_getD]
  cases p.bits[slot]? <;> simp

theorem tuple?_eq_some : p.tuple? slot = some t ↔
    p.isUsed slot = true ∧ p.slots[slot]? = some (some t) := by
  rw [tuple?, List.getD_eq_getElem?_getD]
  cases p.isUsed slot <;> cases p.slots[slot]? <;> simp

theorem row?_of_not_isUsed (h : p.isUsed slot = false) : p.row? slot = none := by
  simp [row?, tuple?, h]

/-- What a slot of a sound page holds is a complete record with the slot's record id. -/
theorem Sound.fills_of_tuple? (h : p.Sound) (here : p.tuple? slot = some t) :
    t.Fills p.layout.schema ∧ t.id? = some ⟨p.id, slot⟩ := by
  obtain ⟨u, hu, spec⟩ := h slot (tuple?_eq_some.mp here).1
  rwa [Option.some.inj (hu.symm.trans here)] at spec

/-- The used slots of a sound page are those with rows. -/
theorem Sound.isSome_row? (h : p.Sound) (slot : Nat) : (p.row? slot).isSome = p.isUsed slot := by
  cases used : p.isUsed slot with
  | false => rw [row?_of_not_isUsed used, Option.isSome_none]
  | true =>
    obtain ⟨t, here, -⟩ := h slot used
    rw [row?, here, Option.map_some, Option.isSome_some]

/-- There is a bit for each slot. -/
theorem length_take_bits (p : Page) : (p.bits.take p.slotCount).length = p.slotCount := by
  have enough := p.layout.slotCount_le_bits
  rw [List.length_take, p.length_bits, slotCount, Nat.min_eq_left enough]

/-- The bit of a slot tells whether it is used. -/
theorem getElem_take_bits {slot : Nat} (here : slot < (p.bits.take p.slotCount).length) :
    (p.bits.take p.slotCount)[slot] = p.isUsed slot := by
  have inside : slot < p.slotCount := p.length_take_bits ▸ here
  have bit : p.bits[slot]? = some ((p.bits.take p.slotCount)[slot]) := by
    rw [← List.getElem?_take_of_lt inside, List.getElem?_eq_getElem here]
  rw [isUsed, List.getD_eq_getElem?_getD, bit, Option.getD_some, decide_eq_true inside, Bool.true_and]

theorem isFull_iff : p.isFull = true ↔ ∀ slot < p.slotCount, p.isUsed slot = true := by
  rw [isFull, freeSlot?, Option.isNone_iff_eq_none, List.findIdx?_eq_none_iff]
  constructor
  · intro all slot inside
    have here : slot < (p.bits.take p.slotCount).length := by rwa [length_take_bits]
    rw [← getElem_take_bits here]
    simpa using all _ (List.getElem_mem here)
  · intro all bit mem
    obtain ⟨slot, here, rfl⟩ := List.getElem_of_mem mem
    rw [getElem_take_bits here, all slot (p.length_take_bits ▸ here)]
    rfl

/-- The slot that is filled next is the first that is not used. -/
theorem freeSlot?_eq_some_iff : p.freeSlot? = some slot ↔
    slot < p.slotCount ∧ p.isUsed slot = false ∧ ∀ i < slot, p.isUsed i = true := by
  rw [freeSlot?, List.findIdx?_eq_some_iff_getElem]
  constructor
  · rintro ⟨here, free, used⟩
    refine ⟨p.length_take_bits ▸ here, ?_, fun i before => ?_⟩
    · simpa [getElem_take_bits here] using free
    · simpa [getElem_take_bits (Nat.lt_trans before here)] using used i before
  · rintro ⟨inside, free, used⟩
    have here : slot < (p.bits.take p.slotCount).length := by rwa [length_take_bits]
    refine ⟨here, ?_, fun i before => ?_⟩
    · rw [getElem_take_bits here, free]
      rfl
    · rw [getElem_take_bits (Nat.lt_trans before here), used i before]
      decide

/-- A sound page is full if every slot has a row. -/
theorem Sound.isFull_iff (h : p.Sound) :
    p.isFull = true ↔ ∀ slot < p.slotCount, (p.row? slot).isSome = true := by
  simp only [h.isSome_row?]
  exact Page.isFull_iff

/-! ## Insertion and deletion -/

/-- What an insertion leads to. -/
theorem insert_cases {id : RecordId} (h : p.insert t = .ok (id, q)) :
    t.schema.types = p.layout.schema.types ∧ id.page = p.id ∧ id.slot < p.slotCount ∧
      q.id = p.id ∧ q.layout = p.layout ∧ q.dirtiedBy = p.dirtiedBy ∧
      q.bits = p.bits.set id.slot true ∧
      q.slots = p.slots.set id.slot (some { t with id? := some id }) := by
  simp only [insert, Schema.compatible_iff] at h
  split at h
  · next compatible =>
    split at h
    · next free =>
      obtain ⟨rfl, rfl⟩ := Prod.mk.inj (Except.ok.inj h)
      exact ⟨compatible, rfl, (freeSlot?_eq_some_iff.mp free).1, rfl, rfl, rfl, rfl, rfl⟩
    · exact nomatch h
  · exact nomatch h

/-- An insertion fills the first slot that is not used. -/
theorem first_of_insert {id : RecordId} (h : p.insert t = .ok (id, q)) :
    p.isUsed id.slot = false ∧ ∀ i < id.slot, p.isUsed i = true := by
  simp only [insert] at h
  split at h
  · split at h
    · next free =>
      obtain ⟨rfl, rfl⟩ := Prod.mk.inj (Except.ok.inj h)
      exact (freeSlot?_eq_some_iff.mp free).2
    · cases h
  · cases h

/-- A record whose types are those of the page can be put into a free slot. -/
theorem exists_insert (types : t.schema.types = p.layout.schema.types)
    (free : p.freeSlot? = some slot) : ∃ q, p.insert t = .ok (⟨p.id, slot⟩, q) := by
  simp only [insert, Schema.compatible_iff, if_pos types, free]
  exact ⟨_, rfl⟩

/-- What a deletion leads to. -/
theorem delete_cases {id : RecordId} (h : p.delete id = .ok q) :
    id.page = p.id ∧ p.isUsed id.slot = true ∧ q.id = p.id ∧ q.layout = p.layout ∧
      q.dirtiedBy = p.dirtiedBy ∧ q.bits = p.bits.set id.slot false ∧
      q.slots = p.slots.set id.slot none := by
  simp only [delete] at h
  split at h
  · next used =>
    obtain rfl := Except.ok.inj h
    exact ⟨used.1, used.2, rfl, rfl, rfl, rfl, rfl⟩
  · cases h

section Set

variable {i : Nat} {used : Bool} {content : Option Tuple} (layout : q.layout = p.layout)
  (inside : i < p.slotCount) (bits : q.bits = p.bits.set i used)

include layout inside bits

theorem isUsed_of_set (slot : Nat) :
    q.isUsed slot = if slot = i then used else p.isUsed slot := by
  have bit : i < p.bits.length := by
    rw [p.length_bits]
    exact Nat.lt_of_lt_of_le inside p.layout.slotCount_le_bits
  have count : q.slotCount = p.slotCount := by rw [slotCount, layout, slotCount]
  simp only [isUsed, count, bits, List.getD_eq_getElem?_getD, List.getElem?_set]
  by_cases here : slot = i
  · subst here
    simp [inside, bit]
  · simp [here, Ne.symm here]

/-- To set a bit and what its slot holds changes this slot only. -/
theorem tuple?_of_set (slots : q.slots = p.slots.set i content) (slot : Nat) :
    q.tuple? slot = if slot = i then (if used then content else none) else p.tuple? slot := by
  have place : i < p.slots.length := by rwa [p.length_slots]
  rw [tuple?, isUsed_of_set layout inside bits]
  simp only [slots, List.getD_eq_getElem?_getD, List.getElem?_set]
  by_cases here : slot = i
  · subst here
    simp [place]
  · simp [here, Ne.symm here, tuple?]

/-- The page stays sound, if the slot is freed or filled with a complete record. -/
theorem Sound.of_set (h : p.Sound) (id : q.id = p.id) (slots : q.slots = p.slots.set i content)
    (fills : used = true →
      ∃ t, content = some t ∧ t.Fills p.layout.schema ∧ t.id? = some ⟨p.id, i⟩) : q.Sound := by
  intro slot isUsed
  rw [isUsed_of_set layout inside bits] at isUsed
  rw [tuple?_of_set layout inside bits slots, layout, id]
  by_cases here : slot = i
  · rw [if_pos here] at isUsed ⊢
    rw [if_pos isUsed, here]
    exact fills isUsed
  · rw [if_neg here] at isUsed ⊢
    exact h slot isUsed

end Set

/-- An insertion fills one slot. -/
theorem row?_of_insert {id : RecordId} (h : p.insert t = .ok (id, q)) (slot : Nat) :
    q.row? slot = if slot = id.slot then some t.values else p.row? slot := by
  obtain ⟨-, -, inside, -, layout, -, bits, slots⟩ := insert_cases h
  rw [row?, tuple?_of_set layout inside bits slots]
  split
  · rfl
  · rfl

theorem Sound.of_insert {id : RecordId} (sound : p.Sound) (h : p.insert t = .ok (id, q))
    (complete : t.values.length = t.schema.size) : q.Sound := by
  obtain ⟨types, place, inside, same, layout, -, bits, slots⟩ := insert_cases h
  -- the types are those of the columns, so that there are as many values as columns
  have sizes := congrArg List.length types
  refine sound.of_set layout inside bits same slots fun _ => ⟨_, rfl, ⟨types, ?_⟩, place ▸ rfl⟩
  simpa [complete, Schema.size, Schema.types] using sizes

/-- A deletion frees one slot. -/
theorem row?_of_delete {id : RecordId} (h : p.delete id = .ok q) (slot : Nat) :
    q.row? slot = if slot = id.slot then none else p.row? slot := by
  obtain ⟨-, used, -, layout, -, bits, slots⟩ := delete_cases h
  rw [row?, tuple?_of_set layout (isUsed_iff.mp used).1 bits slots]
  split
  · rfl
  · rfl

theorem Sound.of_delete {id : RecordId} (sound : p.Sound) (h : p.delete id = .ok q) : q.Sound := by
  obtain ⟨-, used, same, layout, -, bits, slots⟩ := delete_cases h
  exact sound.of_set layout (isUsed_iff.mp used).1 bits same slots nofun

/-! ## Reading and writing -/

theorem getElem?_readSlots (id : PageId) (schema : Schema) (first : Nat) (bits : List Bool)
    (bytes : Bytes) (i : Nat) : (readSlots id schema first bits bytes)[i]? =
      bits[i]?.map fun used =>
        if used then
          some { Tuple.read schema ((bytes.drop (i * schema.recordSize)).take schema.recordSize)
            with id? := some ⟨id, first + i⟩ }
        else none := by
  induction bits generalizing first bytes i with
  | nil => simp [readSlots]
  | cons used bits ih =>
    cases i with
    | zero => simp [readSlots]
    | succ i =>
      rw [readSlots, List.getElem?_cons_succ, ih, List.getElem?_cons_succ, List.drop_drop]
      rw [show schema.recordSize + i * schema.recordSize = (i + 1) * schema.recordSize by
          rw [Nat.succ_mul, Nat.add_comm],
        show first + 1 + i = first + (i + 1) by omega]

/-- The octets of a slot. -/
def slotBytes (layout : Layout) (bytes : Bytes) (slot : Nat) : Bytes :=
  ((bytes.drop layout.headerSize).drop (slot * layout.recordSize)).take layout.recordSize

/-- What reading a page yields. -/
theorem decode_cases {id : PageId} {layout : Layout} {bytes : Bytes}
    (h : decode id layout bytes = .ok q) : bytes.length = layout.pageSize ∧ q.id = id ∧
      q.layout = layout ∧ q.dirtiedBy = none ∧
      q.bits = Bitmap.unpack (bytes.take layout.headerSize) ∧
      q.slots = readSlots id layout.schema 0 (q.bits.take layout.slotCount)
        (bytes.drop layout.headerSize) := by
  simp only [decode] at h
  split at h
  · next length =>
    obtain rfl := Except.ok.inj h
    exact ⟨length, rfl, rfl, rfl, rfl, rfl⟩
  · cases h

/-- The rows of a page that is read. -/
theorem tuple?_of_decode {id : PageId} {layout : Layout} {bytes : Bytes}
    (h : decode id layout bytes = .ok q) (slot : Nat) : q.tuple? slot =
      if q.isUsed slot then
        some { Tuple.read layout.schema (slotBytes layout bytes slot) with id? := some ⟨id, slot⟩ }
      else none := by
  obtain ⟨-, rfl, rfl, -, -, slots⟩ := decode_cases h
  rw [tuple?]
  split
  · next used =>
    obtain ⟨inside, bit⟩ := isUsed_iff.mp used
    have taken : (q.bits.take q.layout.slotCount)[slot]? = some true := by
      rw [← slotCount, List.getElem?_take_of_lt inside, bit]
    rw [slots, List.getD_eq_getElem?_getD, getElem?_readSlots, taken]
    simp [slotBytes, Layout.recordSize]
  · rfl

/-- A page that is read is sound, whatever the octets were. -/
theorem sound_of_decode {id : PageId} {layout : Layout} {bytes : Bytes}
    (h : decode id layout bytes = .ok q) : q.Sound := by
  intro slot used
  obtain ⟨-, same, columns, -⟩ := decode_cases h
  rw [tuple?_of_decode h, if_pos used, columns, same]
  exact ⟨_, rfl, Tuple.fills_read .., rfl⟩

/-- The octets of what a slot holds. -/
def encodeContent (recordSize : Nat) : Option Tuple → Except RecordError Bytes
  | some t => t.encode
  | none => .ok (List.replicate recordSize 0)

theorem encodeSlots_cons (recordSize : Nat) (used : Bool) (content : Option Tuple)
    (cells : List (Bool × Option Tuple)) : encodeSlots recordSize ((used, content) :: cells) = (do
      return (← encodeContent recordSize (if used then content else none)) ++
        (← encodeSlots recordSize cells)) := by
  match used, content with
  | true, some _ | true, none | false, _ => rfl

theorem length_encodeContent {schema : Schema} {content : Option Tuple} {bytes : Bytes}
    (filled : ∀ t, content = some t → t.Fills schema)
    (h : encodeContent schema.recordSize content = .ok bytes) : bytes.length = schema.recordSize := by
  cases content with
  | some t => exact t.length_of_encode (filled t rfl) h
  | none => rw [← Except.ok.inj h, List.length_replicate]

/-- The octets of slots: each takes as many as a record, in the place of the slot. -/
theorem length_and_content_of_encodeSlots {schema : Schema} {cells : List (Bool × Option Tuple)}
    {bytes : Bytes} (filled : ∀ t, (true, some t) ∈ cells → t.Fills schema)
    (h : encodeSlots schema.recordSize cells = .ok bytes) :
    bytes.length = cells.length * schema.recordSize ∧
    ∀ i used content, cells[i]? = some (used, content) →
      encodeContent schema.recordSize (if used then content else none) =
        .ok ((bytes.drop (i * schema.recordSize)).take schema.recordSize) := by
  induction cells generalizing bytes with
  | nil =>
    obtain rfl := Except.ok.inj h
    simp
  | cons cell cells ih =>
    obtain ⟨used, content⟩ := cell
    rw [encodeSlots_cons] at h
    obtain ⟨first, here, h⟩ := bind_eq_ok.mp h
    obtain ⟨others, rest, h⟩ := bind_eq_ok.mp h
    obtain rfl := Except.ok.inj h
    have width : first.length = schema.recordSize := by
      refine length_encodeContent (fun t eq => filled t ?_) here
      obtain ⟨rfl, rfl⟩ : used = true ∧ content = some t := by simpa using eq
      exact .head _
    obtain ⟨length, contents⟩ := ih (fun t mem => filled t (.tail _ mem)) rest
    refine ⟨by simp [length, width, Nat.succ_mul, Nat.add_comm], ?_⟩
    intro i used' content' at_i
    cases i with
    | zero =>
      obtain ⟨rfl, rfl⟩ : used = used' ∧ content = content' := by simpa using at_i
      rw [Nat.zero_mul, List.drop_zero, List.take_left' width]
      exact here
    | succ i =>
      rw [Nat.succ_mul, Nat.add_comm, ← List.drop_drop, List.drop_left' width]
      exact contents i used' content' (by simpa using at_i)

theorem length_pack {n : Nat} {bits : List Bool} (h : bits.length = 8 * n) :
    (Bitmap.pack bits).length = n := by
  have back := congrArg List.length (Bitmap.unpack_pack h)
  rw [Bitmap.length_unpack, h] at back
  omega

/-- The cells of a page are its bits and what its slots hold, as far as there are slots. -/
theorem tuple?_eq_some_iff_cell : p.tuple? slot = some t ↔
    (p.bits.zip p.slots)[slot]? = some (true, some t) := by
  rw [tuple?_eq_some, isUsed_iff, List.getElem?_zip_eq_some]
  constructor
  · exact fun h => ⟨h.1.2, h.2⟩
  · intro h
    obtain ⟨inside, -⟩ := List.getElem?_eq_some_iff.mp h.2
    rw [p.length_slots] at inside
    exact ⟨⟨inside, h.1⟩, h.2⟩

/-- There are as many cells as slots. -/
theorem length_cells (p : Page) : (p.bits.zip p.slots).length = p.slotCount := by
  have enough := p.layout.slotCount_le_bits
  rw [List.length_zip, p.length_bits, p.length_slots, Nat.min_eq_right enough, slotCount]

/-- The records of a page are listed with their slots, one slot after another. -/
theorem entries_eq (p : Page) : p.entries =
    (List.range p.slotCount).filterMap fun slot => (p.tuple? slot).map (slot, ·) := by
  rw [entries, filterMap_zipIdx, length_cells]
  refine List.filterMap_congr fun slot _ => Option.ext fun entry => ?_
  obtain ⟨i, t⟩ := entry
  rw [Option.map_eq_some_iff]
  simp only [tuple?_eq_some_iff_cell]
  rcases (p.bits.zip p.slots)[slot]? with _ | ⟨_ | _, _ | _⟩ <;> simp [and_comm]

/-- The records of a page are what its slots hold, one slot after another. -/
theorem tuples_eq (p : Page) : p.tuples = (List.range p.slotCount).filterMap p.tuple? := by
  rw [tuples, entries_eq, List.map_filterMap]
  refine List.filterMap_congr fun slot _ => ?_
  rw [Option.map_map]
  exact Option.map_id'

/-- What a slot holds is told by its bit and its place. -/
theorem exists_cell (inside : slot < p.slotCount) : ∃ used content,
    (p.bits.zip p.slots)[slot]? = some (used, content) ∧
      p.tuple? slot = if used then content else none := by
  have here : slot < (p.bits.zip p.slots).length := by rwa [length_cells]
  obtain ⟨used, content, cell⟩ : ∃ used content, (p.bits.zip p.slots)[slot]? = some (used, content) :=
    ⟨_, _, List.getElem?_eq_getElem here⟩
  obtain ⟨bit, place⟩ := List.getElem?_zip_eq_some.mp cell
  refine ⟨used, content, cell, ?_⟩
  simp [tuple?, isUsed, inside, List.getD_eq_getElem?_getD, bit, place]

/-- The used cells of a sound page hold complete records. -/
theorem Sound.fills_of_cell (h : p.Sound) (mem : (true, some t) ∈ p.bits.zip p.slots) :
    t.Fills p.layout.schema := by
  obtain ⟨i, at_i⟩ := List.getElem?_of_mem mem
  exact (h.fills_of_tuple? (tuple?_eq_some_iff_cell.mpr at_i)).1

/-- The octets of a page are its bits, its slots, each content in its place, and zeros. -/
theorem spec_of_encode {bytes : Bytes} (sound : p.Sound) (h : p.encode = .ok bytes) :
    bytes.length = p.layout.pageSize ∧ bytes.take p.layout.headerSize = Bitmap.pack p.bits ∧
      (∀ slot < p.slotCount, encodeContent p.layout.recordSize (p.tuple? slot) =
        .ok (slotBytes p.layout bytes slot)) ∧
      ∃ n, bytes.drop (p.layout.headerSize + p.layout.slotCount * p.layout.recordSize) =
        List.replicate n 0 := by
  obtain ⟨slots, hs, h⟩ := bind_eq_ok.mp h
  obtain rfl := Except.ok.inj h
  obtain ⟨length, contents⟩ := length_and_content_of_encodeSlots (fun t => sound.fills_of_cell) hs
  rw [length_cells, slotCount, ← Layout.recordSize] at length
  have header := length_pack p.length_bits
  have room := p.layout.header_add_slots_le
  rw [List.append_assoc]
  refine ⟨?size, List.take_left' header, fun slot inside => ?slots, ?zeros⟩
  case size =>
    simp only [List.length_append, List.length_replicate, header, length]
    omega
  case slots =>
    -- the slot lies among the slots, before the zeros
    have before : (slot + 1) * p.layout.recordSize ≤ slots.length := by
      rw [length]
      exact Nat.mul_le_mul_right _ inside
    rw [Nat.succ_mul] at before
    obtain ⟨used, content, cell, tuple⟩ := exists_cell inside
    rw [tuple, slotBytes, List.drop_left' header, List.drop_append_of_le_length (by omega),
      List.take_append_of_le_length (by rw [List.length_drop]; omega)]
    exact contents slot used content cell
  case zeros =>
    rw [← List.drop_drop, List.drop_left' header, List.drop_left' length]
    exact ⟨_, rfl⟩

/-- A page that is written can be read, and has the bitmap and the rows that it had. -/
theorem decode_of_encode {bytes : Bytes} (sound : p.Sound) (storable : p.layout.schema.Storable)
    (h : p.encode = .ok bytes) :
    bytes.length = p.layout.pageSize ∧
    ∃ q, decode p.id p.layout bytes = .ok q ∧ p.Agrees q := by
  obtain ⟨size, header, contents, -⟩ := spec_of_encode sound h
  obtain ⟨q, hq⟩ : ∃ q, decode p.id p.layout bytes = .ok q := by
    rw [decode, dif_pos size]
    exact ⟨_, rfl⟩
  obtain ⟨-, -, layout, -, bits, -⟩ := decode_cases hq
  rw [header, Bitmap.unpack_pack p.length_bits] at bits
  refine ⟨size, q, hq, bits.symm, ?_⟩
  funext slot
  have same : q.isUsed slot = p.isUsed slot := by
    rw [Bool.eq_iff_iff, isUsed_iff, isUsed_iff, slotCount, slotCount, layout, bits]
  rw [eq_comm, row?, tuple?_of_decode hq, same]
  cases used : p.isUsed slot with
  | false => rw [row?_of_not_isUsed used]; rfl
  | true =>
    obtain ⟨t, here, fills, -⟩ := sound slot used
    have written := contents slot (isUsed_iff.mp used).1
    rw [here] at written
    have back := Tuple.values_read_of_encode storable fills written
    rw [if_pos rfl, row?, here]
    exact congrArg some back

theorem unpack_replicate_zero (n : Nat) :
    Bitmap.unpack (List.replicate n 0) = List.replicate (8 * n) false := by
  induction n with
  | zero => rfl
  | succ n ih =>
    rw [List.replicate_succ, Bitmap.unpack, List.flatMap_cons, ← Bitmap.unpack, ih, Nat.mul_succ,
      Nat.add_comm, ← List.replicate_append_replicate]
    rfl

/-- The page of zeros has no rows. -/
theorem row?_of_empty {id : PageId} {layout : Layout} (h : empty id layout = .ok q) (slot : Nat) :
    q.row? slot = none := by
  obtain ⟨-, -, -, -, bits, -⟩ := decode_cases h
  rw [Layout.emptyPage, List.take_replicate, unpack_replicate_zero] at bits
  apply row?_of_not_isUsed
  rw [Bool.eq_false_iff]
  intro used
  obtain ⟨-, bit⟩ := isUsed_iff.mp used
  rw [bits] at bit
  cases List.eq_of_mem_replicate (List.mem_of_getElem? bit)

end Page

end RowStore
