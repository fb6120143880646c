import Mathlib.Logic.Function.Basic
import Mathlib.Order.Bounds.Basic
import RowStore.Proofs.Page.Edits

/-! # Pages as slot maps
Which slots of a page are used is told twice, by the bits and by what the slots hold. The two tell the
same of any page that is read, and they still do after any insertions and deletions (`Coupled`), so that
the page is no more than a map from its slots to records. Main statement: `refines_slotMap`. -/

namespace RowStore

/-- What each slot of a page holds, if anything. -/
abbrev SlotMap := Nat → Option Tuple

/-- What an edit of a page answers: an insertion that succeeds tells where the record is. -/
abbrev EditAnswer := Except RecordError (Option RecordId)

namespace SlotMap

section

variable (id : PageId) (layout : Layout)

/-- The slots that hold nothing. -/
def vacant (m : SlotMap) : Set Nat :=
  {slot | slot < layout.slotCount ∧ m slot = none}

/-- What an edit of the slots of a page answers, and what they hold then. An edit that fails changes
nothing, and no other edit changes more than one slot. -/
inductive Step (m : SlotMap) : Page.Edit → EditAnswer → SlotMap → Prop
  /-- The record has other types than the page. -/
  | mismatched {t : Tuple} (types : t.schema.types ≠ layout.schema.types) :
    Step m (.insert t) (.error (.schemaMismatch (.page t.schema layout.schema))) m
  /-- All slots hold records. -/
  | full {t : Tuple} (types : t.schema.types = layout.schema.types)
    (occupied : ∀ slot < layout.slotCount, m slot ≠ none) :
    Step m (.insert t) (.error (.pageFull id)) m
  /-- The record is put into the least slot that holds nothing. -/
  | filled {t : Tuple} {slot : Nat} (types : t.schema.types = layout.schema.types)
    (least : IsLeast (m.vacant layout) slot) :
    Step m (.insert t) (.ok (some ⟨id, slot⟩))
      (Function.update m slot (some { t with id? := some ⟨id, slot⟩ }))
  /-- The record is not on this page. -/
  | missing {r : RecordId} (absent : r.page = id → m r.slot = none) :
    Step m (.delete r) (.error (.tupleNotFound r)) m
  /-- The slot of the record is freed. -/
  | freed {r : RecordId} {t : Tuple} (page : r.page = id) (here : m r.slot = some t) :
    Step m (.delete r) (.ok none) (Function.update m r.slot none)
  /-- Marks are not told of slots. -/
  | marked {t : Option TxnId} : Step m (.mark t) (.ok none) m

/-- What edits one after another answer, and what the slots hold in the end. -/
inductive Run : SlotMap → List Page.Edit → List EditAnswer → SlotMap → Prop
  | nil {m : SlotMap} : Run m [] [] m
  | cons {m m' m'' : SlotMap} {e : Page.Edit} {es : List Page.Edit} {a : EditAnswer}
    {as : List EditAnswer} (step : Step id layout m e a m') (rest : Run m' es as m'') :
    Run m (e :: es) (a :: as) m''

end

end SlotMap

namespace Page

variable {p q p' : Page} {slot : Nat} {t : Tuple} {e : Edit} {es : List Edit}

/-- What an edit answers. -/
def answer (p : Page) : Edit → EditAnswer
  | .insert t => (p.insert t).map fun (r, _) => some r
  | .delete r => (p.delete r).map fun _ => none
  | .mark _ => .ok none

/-- What edits one after another answer. -/
def answers : Page → List Edit → List EditAnswer
  | _, [] => []
  | p, e :: es => p.answer e :: (p.edit e).answers es

/-! ## Bits and slots -/

/-- The bit of each slot is set exactly if the slot holds a record, which has the slot's record id. -/
def Coupled (p : Page) : Prop :=
  ∀ slot < p.slotCount, ∃ content, p.slots[slot]? = some content ∧
    p.bits[slot]? = some content.isSome ∧ ∀ t, content = some t → t.id? = some ⟨p.id, slot⟩

theorem Coupled.mark (h : p.Coupled) (t : Option TxnId) : (p.mark t).Coupled := h

/-- A slot is used if it holds a record. -/
theorem Coupled.isUsed_eq (h : p.Coupled) (slot : Nat) : p.isUsed slot = (p.tuple? slot).isSome := by
  by_cases inside : slot < p.slotCount
  · obtain ⟨content, place, bit, -⟩ := h slot inside
    rw [tuple?, isUsed, List.getD_eq_getElem?_getD, List.getD_eq_getElem?_getD, bit, place]
    cases content <;> simp [inside]
  · simp [tuple?, isUsed, inside]

theorem Coupled.isUsed_eq_false_iff (h : p.Coupled) : p.isUsed slot = false ↔ p.tuple? slot = none := by
  rw [h.isUsed_eq, Option.isSome_eq_false_iff, Option.isNone_iff_eq_none]

theorem Coupled.isUsed_iff (h : p.Coupled) : p.isUsed slot = true ↔ p.tuple? slot ≠ none := by
  rw [h.isUsed_eq, Option.isSome_iff_ne_none]

/-- A page that is read has a bit for each record, whatever the octets were. -/
theorem coupled_of_decode {id : PageId} {layout : Layout} {bytes : Bytes}
    (h : decode id layout bytes = .ok p) : p.Coupled := by
  have sound := sound_of_decode h
  have tidy := tidy_of_decode h
  intro slot inside
  refine ⟨_, tidy slot inside, ?_, ?_⟩
  · have bit : slot < p.bits.length := by
      rw [p.length_bits]
      exact inside.trans_le p.layout.slotCount_le_bits
    rw [Option.isSome_map, sound.isSome_row?, isUsed, List.getD_eq_getElem?_getD,
      List.getElem?_eq_getElem bit, decide_eq_true inside]
    rfl
  · intro t here
    obtain ⟨values, -, rfl⟩ := Option.map_eq_some_iff.mp here
    rfl

/-- Bits and slots stay coupled when the bit and the content of one slot are set alike. -/
theorem Coupled.of_set {i : Nat} {content : Option Tuple} (h : p.Coupled) (id : q.id = p.id)
    (layout : q.layout = p.layout) (bits : q.bits = p.bits.set i content.isSome)
    (slots : q.slots = p.slots.set i content)
    (labelled : ∀ t, content = some t → t.id? = some ⟨p.id, i⟩) : q.Coupled := by
  intro slot inside
  rw [slotCount, layout, ← slotCount] at inside
  obtain ⟨held, place, bit, record⟩ := h slot inside
  by_cases here : slot = i
  · subst here
    refine ⟨content, ?_, ?_, id ▸ labelled⟩
    · rw [slots, List.getElem?_set_self (List.getElem?_eq_some_iff.mp place).1]
    · rw [bits, List.getElem?_set_self (List.getElem?_eq_some_iff.mp bit).1]
  · refine ⟨held, ?_, ?_, id ▸ record⟩
    · rw [slots, List.getElem?_set_ne (Ne.symm here), place]
    · rw [bits, List.getElem?_set_ne (Ne.symm here), bit]

theorem Coupled.of_insert {r : RecordId} (coupled : p.Coupled) (h : p.insert t = .ok (r, q)) :
    q.Coupled := by
  obtain ⟨-, page, -, id, layout, -, bits, slots⟩ := insert_cases h
  refine coupled.of_set id layout bits slots fun u same => ?_
  obtain rfl := Option.some.inj same
  rw [← page]

theorem Coupled.of_delete {r : RecordId} (coupled : p.Coupled) (h : p.delete r = .ok q) :
    q.Coupled := by
  obtain ⟨-, -, id, layout, -, bits, slots⟩ := delete_cases h
  exact coupled.of_set id layout bits slots nofun

theorem Coupled.edits (h : p.Coupled) : (p.edits es).Coupled :=
  edits_induction (motive := Coupled) (fun _ inserted h => h.of_insert inserted)
    (fun deleted h => h.of_delete deleted) (fun t h => h.mark t) p h

/-! ## Insertions and deletions -/

/-- The slot that is filled next is the least that holds nothing. -/
theorem Coupled.freeSlot?_eq_some_iff (h : p.Coupled) :
    p.freeSlot? = some slot ↔ IsLeast (SlotMap.vacant p.layout p.tuple?) slot := by
  rw [Page.freeSlot?_eq_some_iff, h.isUsed_eq_false_iff]
  constructor
  · rintro ⟨inside, empty, used⟩
    refine ⟨⟨inside, empty⟩, fun i vacant => Nat.le_of_not_lt fun before => ?_⟩
    exact h.isUsed_iff.mp (used i before) vacant.2
  · rintro ⟨⟨inside, empty⟩, least⟩
    refine ⟨inside, empty, fun i before => h.isUsed_iff.mpr fun none => ?_⟩
    exact Nat.not_le_of_lt before (least ⟨before.trans inside, none⟩)

theorem Coupled.isFull_iff (h : p.Coupled) :
    p.isFull = true ↔ ∀ slot < p.slotCount, p.tuple? slot ≠ none := by
  simp only [Page.isFull_iff, h.isUsed_iff]

theorem tuple?_of_insert {r : RecordId} (h : p.insert t = .ok (r, q)) :
    q.tuple? = Function.update p.tuple? r.slot (some { t with id? := some r }) := by
  obtain ⟨-, -, inside, -, layout, -, bits, slots⟩ := insert_cases h
  funext slot
  rw [tuple?_of_set layout inside bits slots, Function.update_apply, if_pos rfl]

theorem tuple?_of_delete {r : RecordId} (h : p.delete r = .ok q) :
    q.tuple? = Function.update p.tuple? r.slot none := by
  obtain ⟨-, used, -, layout, -, bits, slots⟩ := delete_cases h
  funext slot
  rw [tuple?_of_set layout (Page.isUsed_iff.mp used).1 bits slots, Function.update_apply,
    if_neg Bool.false_ne_true]

/-- An edit does to the page what it does to the slot map. -/
theorem Coupled.step_edit (h : p.Coupled) (e : Edit) :
    SlotMap.Step p.id p.layout p.tuple? e (p.answer e) (p.edit e).tuple? := by
  cases e with
  | insert t =>
    cases inserted : p.insert t with
    | ok result =>
      obtain ⟨r, q⟩ := result
      obtain ⟨types, page, inside, -⟩ := insert_cases inserted
      obtain ⟨free, used⟩ := first_of_insert inserted
      have least := h.freeSlot?_eq_some_iff.mp
        (Page.freeSlot?_eq_some_iff.mpr ⟨inside, free, used⟩)
      have place : r = ⟨p.id, r.slot⟩ := by rw [← page]
      simp only [answer, edit, inserted, tuple?_of_insert inserted]
      rw [place]
      exact .filled types least
    | error err =>
      simp only [answer, edit, inserted]
      simp only [insert, Schema.compatible_iff] at inserted
      split at inserted
      · next types =>
        split at inserted
        · cases inserted
        · next none =>
          obtain rfl := Except.error.inj inserted
          refine .full types (h.isFull_iff.mp ?_)
          rw [isFull, none]
          rfl
      · next types =>
        obtain rfl := Except.error.inj inserted
        exact .mismatched types
  | delete r =>
    cases deleted : p.delete r with
    | ok q =>
      obtain ⟨page, used, -⟩ := delete_cases deleted
      obtain ⟨t, here⟩ := Option.ne_none_iff_exists'.mp (h.isUsed_iff.mp used)
      simp only [answer, edit, deleted, tuple?_of_delete deleted]
      exact .freed page here
    | error err =>
      simp only [answer, edit, deleted]
      simp only [delete] at deleted
      split at deleted
      · cases deleted
      · next absent =>
        obtain rfl := Except.error.inj deleted
        refine .missing fun page => h.isUsed_eq_false_iff.mp ?_
        exact Bool.eq_false_iff.mpr fun used => absent ⟨page, used⟩
  | mark t => exact .marked

/-- Edits do to the page what they do to the slot map. -/
theorem Coupled.run_edits (h : p.Coupled) (es : List Edit) :
    SlotMap.Run p.id p.layout p.tuple? es (p.answers es) (p.edits es).tuple? := by
  induction es generalizing p with
  | nil => exact .nil
  | cons e es ih =>
    obtain ⟨id, layout⟩ := p.spec_of_edit e
    have after : (p.edits [e]).Coupled := h.edits
    have rest := ih after
    rw [show p.edits [e] = p.edit e from rfl, id, layout] at rest
    exact .cons (h.step_edit e) rest

/-! ## What is told of the slots -/

theorem take_bits_eq (p : Page) : p.bits.take p.slotCount = (List.range p.slotCount).map p.isUsed := by
  refine List.ext_getElem (by simp [p.length_take_bits]) fun slot here _ => ?_
  rw [getElem_take_bits here, List.getElem_map, List.getElem_range]

/-- Every slot is free or yields a record. -/
theorem Coupled.freeCount_add_length_tuples (h : p.Coupled) :
    p.freeCount + p.tuples.length = p.slotCount := by
  have free : p.freeCount = (List.range p.slotCount).countP fun slot => !p.isUsed slot := by
    rw [freeCount, take_bits_eq, List.count, List.countP_map]
    refine List.countP_congr fun slot _ => ?_
    simp
  have listed : p.tuples.length = (List.range p.slotCount).countP p.isUsed := by
    rw [tuples_eq, List.length_filterMap_eq_countP]
    exact List.countP_congr fun slot _ => by rw [h.isUsed_eq]
  have all := List.length_eq_countP_add_countP p.isUsed (l := List.range p.slotCount)
  simp only [List.length_range, Bool.not_eq_true, Bool.decide_eq_false] at all
  rw [free, listed, Nat.add_comm, ← all]

/-- What a page tells of its slots is so, and no place is looked at or set that is not there. -/
structure TellsSlots (q : Page) : Prop where
  coupled : q.Coupled
  /-- Every slot has its bit in an octet of the bitmap, and its place. -/
  inside : ∀ slot < q.slotCount,
    slot / 8 < q.layout.headerSize ∧ slot < q.bits.length ∧ slot < q.slots.length
  /-- Any number may be asked for; past the last slot there is nothing. -/
  past : ∀ slot, q.slotCount ≤ slot → q.isUsed slot = false ∧ q.tuple? slot = none
  inserts : ∀ t r q', q.insert t = .ok (r, q') → r.slot < q.slotCount ∧
    q'.bits = q.bits.set r.slot true ∧ q'.slots = q.slots.set r.slot (some { t with id? := some r })
  deletes : ∀ r q', q.delete r = .ok q' → r.slot < q.slotCount ∧
    q'.bits = q.bits.set r.slot false ∧ q'.slots = q.slots.set r.slot none
  /-- An edit that fails leaves the page as it was. -/
  unchanged : ∀ e err, q.answer e = .error err → q.edit e = q
  /-- The records are listed in the order of their slots. -/
  listed : q.entries =
    (List.range q.slotCount).filterMap fun slot => (q.tuple? slot).map (slot, ·)
  counted : q.freeCount + q.tuples.length = q.slotCount
  free : ∀ slot, q.freeSlot? = some slot ↔ IsLeast (SlotMap.vacant q.layout q.tuple?) slot
  full : q.isFull = true ↔ ∀ slot < q.slotCount, q.tuple? slot ≠ none

/-- An edit that fails leaves the page as it was. -/
theorem edit_of_answer {err : RecordError} (h : p.answer e = .error err) : p.edit e = p := by
  cases e with
  | insert t =>
    rw [edit]
    cases inserted : p.insert t with
    | ok result => simp [answer, inserted, Except.map] at h
    | error err => rfl
  | delete r =>
    rw [edit]
    cases deleted : p.delete r with
    | ok q => simp [answer, deleted, Except.map] at h
    | error err => rfl
  | mark t => cases h

theorem Coupled.tellsSlots (h : p.Coupled) : p.TellsSlots where
  coupled := h
  inside slot inside := by
    have bits := inside.trans_le p.layout.slotCount_le_bits
    rw [p.length_bits, p.length_slots]
    exact ⟨by omega, bits, inside⟩
  past slot outside := by
    have unused : p.isUsed slot = false := by
      rw [isUsed, decide_eq_false outside.not_gt, Bool.false_and]
    exact ⟨unused, h.isUsed_eq_false_iff.mp unused⟩
  inserts t r q inserted :=
    have spec := insert_cases inserted
    ⟨spec.2.2.1, spec.2.2.2.2.2.2⟩
  deletes r q deleted :=
    have spec := delete_cases deleted
    ⟨(Page.isUsed_iff.mp spec.2.1).1, spec.2.2.2.2.2⟩
  unchanged _ _ := edit_of_answer
  listed := p.entries_eq
  counted := h.freeCount_add_length_tuples
  free _ := h.freeSlot?_eq_some_iff
  full := h.isFull_iff

/-! ## Bits past the last slot -/

/-- The bits past the last slot stay as they are. -/
theorem drop_bits_of_edits (p : Page) (es : List Edit) :
    (p.edits es).bits.drop p.slotCount = p.bits.drop p.slotCount := by
  refine (edits_induction (motive := fun q => q.layout = p.layout ∧
    q.bits.drop p.slotCount = p.bits.drop p.slotCount) ?_ ?_ ?_ p ⟨rfl, rfl⟩).2
  · rintro q q' t r - inserted ⟨same, now⟩
    obtain ⟨-, -, inside, -, layout, -, bits, -⟩ := insert_cases inserted
    rw [slotCount, same, ← slotCount] at inside
    exact ⟨layout.trans same, by rw [bits, List.drop_set_of_lt inside, now]⟩
  · rintro q q' r deleted ⟨same, now⟩
    obtain ⟨-, used, -, layout, -, bits, -⟩ := delete_cases deleted
    have inside := (isUsed_iff.mp used).1
    rw [slotCount, same, ← slotCount] at inside
    exact ⟨layout.trans same, by rw [bits, List.drop_set_of_lt inside, now]⟩
  · exact fun _ now => now

/-- Two pages differ in their marks and in bits past the last slot only. -/
structure SameSlots (p q : Page) : Prop where
  id : q.id = p.id
  layout : q.layout = p.layout
  bits : q.bits.take p.slotCount = p.bits.take p.slotCount
  slots : q.slots = p.slots

/-- Whatever is asked of two pages, they tell the same, and they are written alike after the bitmap. -/
structure LooksLike (p q : Page) : Prop where
  isUsed : q.isUsed = p.isUsed
  tuple? : q.tuple? = p.tuple?
  entries : q.entries = p.entries
  freeSlot? : q.freeSlot? = p.freeSlot?
  freeCount : q.freeCount = p.freeCount
  isFull : q.isFull = p.isFull
  written : List.drop q.layout.headerSize <$> q.encode = List.drop p.layout.headerSize <$> p.encode

namespace SameSlots

variable (h : p.SameSlots q)

include h

theorem slotCount : q.slotCount = p.slotCount := by
  rw [Page.slotCount, h.layout, Page.slotCount]

theorem isUsed : q.isUsed = p.isUsed := by
  funext slot
  rw [Bool.eq_iff_iff, isUsed_iff, isUsed_iff, h.slotCount]
  refine and_congr_right fun inside => ?_
  rw [← List.getElem?_take_of_lt inside, h.bits, List.getElem?_take_of_lt inside]

theorem tuple? : q.tuple? = p.tuple? := by
  funext slot
  rw [Page.tuple?, h.isUsed, h.slots, Page.tuple?]

theorem freeSlot? : q.freeSlot? = p.freeSlot? := by
  rw [Page.freeSlot?, h.slotCount, h.bits, Page.freeSlot?]

theorem cells : q.bits.zip q.slots = p.bits.zip p.slots := by
  have taken : ∀ r : Page, r.bits.zip r.slots = (r.bits.take r.slotCount).zip r.slots := by
    intro r
    have all : r.slots.take r.slotCount = r.slots := List.take_of_length_le r.length_slots.le
    conv_lhs => rw [← List.take_of_length_le r.length_cells.le, List.zip, List.take_zipWith, all]
    rfl
  rw [taken q, taken p, h.slotCount, h.bits, h.slots]

theorem written :
    List.drop q.layout.headerSize <$> q.encode = List.drop p.layout.headerSize <$> p.encode := by
  rw [encode, encode, h.cells, h.layout]
  cases encodeSlots p.layout.recordSize (p.bits.zip p.slots) with
  | error err => rfl
  | ok slots =>
    have header := length_pack p.length_bits
    have header' := length_pack q.length_bits
    rw [h.layout] at header'
    refine congrArg Except.ok ?_
    simp only [List.append_assoc, List.drop_left' header, List.drop_left' header', List.length_append,
      header, header']

theorem looksLike : p.LooksLike q where
  isUsed := h.isUsed
  tuple? := h.tuple?
  entries := by rw [entries_eq, h.tuple?, h.slotCount, entries_eq]
  freeSlot? := h.freeSlot?
  freeCount := by rw [freeCount, h.slotCount, h.bits, freeCount]
  isFull := by rw [isFull, h.freeSlot?, isFull]
  written := h.written

/-- An edit of both pages answers the same, and they still differ in such bits only. -/
theorem edit (e : Edit) : q.answer e = p.answer e ∧ (p.edit e).SameSlots (q.edit e) := by
  cases e with
  | insert t =>
    simp only [answer, Page.edit, insert, h.layout, h.freeSlot?, h.id]
    by_cases types : t.schema.compatible p.layout.schema = true
    · rw [if_pos types, if_pos types]
      cases p.freeSlot? with
      | none => exact ⟨rfl, h⟩
      | some slot =>
        refine ⟨rfl, rfl, rfl, ?_, ?_⟩
        · show (q.bits.set slot true).take p.slotCount = (p.bits.set slot true).take p.slotCount
          rw [List.take_set, h.bits, List.take_set]
        · show q.slots.set slot _ = p.slots.set slot _
          rw [h.slots]
    · rw [if_neg types, if_neg types]
      exact ⟨rfl, h⟩
  | delete r =>
    simp only [answer, Page.edit, delete, h.id, h.isUsed]
    by_cases used : r.page = p.id ∧ p.isUsed r.slot = true
    · rw [if_pos used, if_pos used]
      refine ⟨rfl, rfl, h.layout, ?_, ?_⟩
      · show (q.bits.set r.slot false).take p.slotCount = (p.bits.set r.slot false).take p.slotCount
        rw [List.take_set, h.bits, List.take_set]
      · show q.slots.set r.slot none = p.slots.set r.slot none
        rw [h.slots]
    · rw [if_neg used, if_neg used]
      exact ⟨rfl, h⟩
  | mark t => exact ⟨rfl, h.id, h.layout, h.bits, h.slots⟩

end SameSlots

theorem SameSlots.edits (h : p.SameSlots q) (es : List Edit) :
    q.answers es = p.answers es ∧ (p.edits es).SameSlots (q.edits es) := by
  induction es generalizing p q with
  | nil => exact ⟨rfl, h⟩
  | cons e es ih =>
    obtain ⟨answer, same⟩ := h.edit e
    obtain ⟨answers, same⟩ := ih same
    exact ⟨by rw [Page.answers, Page.answers, answer, answers], same⟩

/-- Octets that differ only in bits past the last slot are read as such pages. -/
theorem sameSlots_of_decode {id : PageId} {layout : Layout} {bytes bytes' : Bytes}
    (h : decode id layout bytes = .ok p) (h' : decode id layout bytes' = .ok q)
    (slots : bytes'.drop layout.headerSize = bytes.drop layout.headerSize)
    (bits : ∀ slot < layout.slotCount, q.bits[slot]? = p.bits[slot]?) : p.SameSlots q := by
  obtain ⟨-, rfl, rfl, -, -, here⟩ := decode_cases h
  obtain ⟨-, same_id, same_layout, -, -, there⟩ := decode_cases h'
  have taken : q.bits.take p.slotCount = p.bits.take p.slotCount := by
    refine List.ext_getElem? fun slot => ?_
    rw [List.getElem?_take, List.getElem?_take]
    split
    · next inside => exact bits slot inside
    · rfl
  refine ⟨same_id, same_layout, taken, ?_⟩
  rw [there, here, ← Page.slotCount, taken, slots]

/-- **A page is a slot map.** Any octets of the right number are read as a page. Whatever records are
inserted then and whatever record ids are deleted, each call answers what it would answer of the map from
the slots to the records, and does to it what it says. Bits and records go together, and what the page
tells of them is so. The bits past the last slot never change, and make no difference to any answer. -/
theorem refines_slotMap (id : PageId) (layout : Layout) (bytes : Bytes)
    (size : bytes.length = layout.pageSize) : ∃ p, decode id layout bytes = .ok p ∧
      ∀ es, SlotMap.Run id layout p.tuple? es (p.answers es) (p.edits es).tuple? ∧
        (p.edits es).TellsSlots ∧
        (p.edits es).bits.drop layout.slotCount = p.bits.drop layout.slotCount ∧
        ∀ bytes' q, decode id layout bytes' = .ok q →
          bytes'.drop layout.headerSize = bytes.drop layout.headerSize →
          (∀ slot < layout.slotCount, q.bits[slot]? = p.bits[slot]?) →
            q.answers es = p.answers es ∧ (p.edits es).LooksLike (q.edits es) := by
  obtain ⟨p, read⟩ : ∃ p, decode id layout bytes = .ok p := by
    rw [decode, dif_pos size]
    exact ⟨_, rfl⟩
  have coupled := coupled_of_decode read
  refine ⟨p, read, fun es => ⟨?run, coupled.edits.tellsSlots, ?past, ?others⟩⟩
  case run =>
    obtain ⟨-, rfl, rfl, -⟩ := decode_cases read
    exact coupled.run_edits es
  case past =>
    obtain ⟨-, -, rfl, -⟩ := decode_cases read
    exact p.drop_bits_of_edits es
  case others =>
    intro bytes' q read' slots bits
    obtain ⟨answers, same⟩ := (sameSlots_of_decode read read' slots bits).edits es
    exact ⟨answers, same.looksLike⟩

/-- A page whose bits past the last slot are not all clear, and what it answers: the second insertion
finds no free slot, and the second deletion no record. Without these bits it would answer the same. -/
theorem refines_slotMap_untidy : ∃ p q,
    decode ⟨.number 1, 0⟩ wordLayout untidyBytes = .ok p ∧
    decode ⟨.number 1, 0⟩ wordLayout (0x01 :: untidyBytes.tail) = .ok q ∧
    p.answers wordEdits = [.ok (some ⟨⟨.number 1, 0⟩, 1⟩), .error (.pageFull ⟨.number 1, 0⟩), .ok none,
      .error (.tupleNotFound ⟨⟨.number 1, 0⟩, 0⟩), .ok none] ∧
    SlotMap.Run ⟨.number 1, 0⟩ wordLayout p.tuple? wordEdits (p.answers wordEdits)
      (p.edits wordEdits).tuple? ∧
    (p.edits wordEdits).bits.drop 2 = [true, false, false, true, false, true] ∧
    q.answers wordEdits = p.answers wordEdits ∧ (p.edits wordEdits).LooksLike (q.edits wordEdits) := by
  obtain ⟨p, read, spec⟩ := refines_slotMap ⟨.number 1, 0⟩ wordLayout untidyBytes (by decide)
  obtain ⟨q, read'⟩ : ∃ q, decode ⟨.number 1, 0⟩ wordLayout (0x01 :: untidyBytes.tail) = .ok q :=
    ⟨_, rfl⟩
  obtain ⟨run, -, past, others⟩ := spec wordEdits
  have bits : ∀ slot < wordLayout.slotCount, q.bits[slot]? = p.bits[slot]? := by
    obtain rfl := Except.ok.inj read
    obtain rfl := Except.ok.inj read'
    decide +kernel
  obtain ⟨same, alike⟩ := others _ q read' rfl bits
  refine ⟨p, q, read, read', ?answers, run, past.trans ?_, same, alike⟩
  case answers =>
    obtain rfl := Except.ok.inj read
    decide +kernel
  · obtain rfl := Except.ok.inj read
    decide +kernel

end Page

end RowStore
