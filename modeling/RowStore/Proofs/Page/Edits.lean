import RowStore.Proofs.Page.Writing

/-! # Pages that are edited
A page is read, records are inserted and deleted, and it is written again. Whatever has been read and
done, what is in memory is settled by the bitmap and the rows (`Tidy`); so a page that can be written at
all comes back as it was. Main statement: `round_trip`. -/

namespace RowStore

/-- What is done to a page in memory. -/
inductive Page.Edit where
  /-- To put a record into the lowest free slot. -/
  | insert (t : Tuple)
  /-- To free the slot of a record. -/
  | delete (r : RecordId)
  /-- To set or clear the mark of a transaction. -/
  | mark (t : Option TxnId)

namespace Page

variable {p q : Page} {t : Tuple}

/-- The page after an edit; one that fails leaves it as it was. -/
def edit (p : Page) : Edit → Page
  | .insert t =>
    match p.insert t with
    | .ok (_, q) => q
    | .error _ => p
  | .delete r =>
    match p.delete r with
    | .ok q => q
    | .error _ => p
  | .mark t => p.mark t

/-- The page after edits one after another. -/
def edits (p : Page) (es : List Edit) : Page :=
  es.foldl edit p

/-- What is kept when a record is inserted, when one is deleted and when the mark is set is kept by
edits. -/
theorem edits_induction {motive : Page → Prop} {es : List Edit}
    (inserted : ∀ {p q : Page} {t : Tuple} {r : RecordId}, .insert t ∈ es → p.insert t = .ok (r, q) →
      motive p → motive q)
    (deleted : ∀ {p q : Page} {r : RecordId}, p.delete r = .ok q → motive p → motive q)
    (marked : ∀ {p : Page} (t : Option TxnId), motive p → motive (p.mark t))
    (p : Page) (base : motive p) : motive (p.edits es) := by
  refine List.foldlRecOn es edit base fun p now e mem => ?_
  cases e with
  | insert t =>
    rw [edit]
    split
    · next h => exact inserted mem h now
    · exact now
  | delete r =>
    rw [edit]
    split
    · next h => exact deleted h now
    · exact now
  | mark t => exact marked t now

/-- What is done to a page in memory leaves its name and its layout as they are. -/
theorem spec_of_edits (p : Page) (es : List Edit) :
    (p.edits es).id = p.id ∧ (p.edits es).layout = p.layout := by
  refine edits_induction (motive := fun q => q.id = p.id ∧ q.layout = p.layout) ?_ ?_ ?_ p ⟨rfl, rfl⟩
  · intro q q' t r _ inserted now
    obtain ⟨-, -, -, id, layout, -⟩ := insert_cases inserted
    exact ⟨id.trans now.1, layout.trans now.2⟩
  · intro q q' r deleted now
    obtain ⟨-, -, id, layout, -⟩ := delete_cases deleted
    exact ⟨id.trans now.1, layout.trans now.2⟩
  · intro q t now
    exact now

theorem spec_of_edit (p : Page) (e : Edit) :
    (p.edit e).id = p.id ∧ (p.edit e).layout = p.layout :=
  p.spec_of_edits [e]

/-- A page stays well formed if only records are put into it that have a value for each column. -/
theorem Sound.edits {es : List Edit} (h : p.Sound)
    (complete : ∀ t, .insert t ∈ es → t.values.length = t.schema.size) : (p.edits es).Sound :=
  edits_induction (motive := Sound) (fun mem inserted h => h.of_insert inserted (complete _ mem))
    (fun deleted h => h.of_delete deleted) (fun t h => h.mark t) p h

/-! ## What is in memory -/

/-- Each slot holds its row, if it has one, under the columns of the page and the slot's record id, and
nothing otherwise. -/
def Tidy (p : Page) : Prop :=
  ∀ slot < p.slotCount, p.slots[slot]? = some ((p.row? slot).map fun values =>
    { schema := p.layout.schema, values, id? := some ⟨p.id, slot⟩ })

theorem Tidy.mark (h : p.Tidy) (t : Option TxnId) : (p.mark t).Tidy := h

/-- The page stays tidy when the row of one slot and what the slot holds change alike. -/
theorem Tidy.of_set {i : Nat} {row? : Option (List Value)} (h : p.Tidy) (id : q.id = p.id)
    (layout : q.layout = p.layout) (rows : ∀ slot, q.row? slot = if slot = i then row? else p.row? slot)
    (slots : q.slots = p.slots.set i (row?.map fun values =>
      { schema := p.layout.schema, values, id? := some ⟨p.id, i⟩ })) : q.Tidy := by
  intro slot inside
  rw [slotCount, layout] at inside
  rw [slots, rows, layout, id, List.getElem?_set]
  by_cases here : slot = i
  · have place : i < p.slots.length := by rwa [p.length_slots, ← here]
    rw [if_pos here.symm, if_pos place, if_pos here, here]
  · rw [if_neg (Ne.symm here), if_neg here]
    exact h slot inside

theorem Tidy.of_insert {r : RecordId} (tidy : p.Tidy) (h : p.insert t = .ok (r, q))
    (columns : t.schema = p.layout.schema) : q.Tidy := by
  obtain ⟨-, place, -, id, layout, -, -, slots⟩ := insert_cases h
  refine tidy.of_set id layout (row?_of_insert h) ?_
  rw [slots, Option.map_some, ← columns, ← place]

theorem Tidy.of_delete {r : RecordId} (tidy : p.Tidy) (h : p.delete r = .ok q) : q.Tidy := by
  obtain ⟨-, -, id, layout, -, -, slots⟩ := delete_cases h
  exact tidy.of_set id layout (row?_of_delete h) slots

/-- A page that is read is tidy, whatever the octets were. -/
theorem tidy_of_decode {id : PageId} {layout : Layout} {bytes : Bytes}
    (h : decode id layout bytes = .ok q) : q.Tidy := by
  intro slot inside
  have tuple := tuple?_of_decode h slot
  obtain ⟨-, rfl, rfl, -, -, slots⟩ := decode_cases h
  have bit : ∃ used, q.bits[slot]? = some used := by
    have enough := Nat.lt_of_lt_of_le inside q.layout.slotCount_le_bits
    rw [← q.length_bits] at enough
    exact ⟨_, List.getElem?_eq_getElem enough⟩
  obtain ⟨used, bit⟩ := bit
  have same : q.isUsed slot = used := by
    rw [isUsed, List.getD_eq_getElem?_getD, bit, decide_eq_true inside]
    rfl
  have taken : (q.bits.take q.layout.slotCount)[slot]? = some used := by
    rw [← slotCount, List.getElem?_take_of_lt inside, bit]
  rw [slots, getElem?_readSlots, taken, row?, tuple, same]
  cases used with
  | false => rfl
  | true => simp [Tuple.read, slotBytes, Layout.recordSize]

/-- Two tidy pages of one name and one layout that agree differ in their marks only. -/
theorem Tidy.eq_mark (hp : p.Tidy) (hq : q.Tidy) (id : q.id = p.id) (layout : q.layout = p.layout)
    (agrees : p.Agrees q) (clean : q.dirtiedBy = none) : q = p.mark none := by
  have slots : q.slots = p.slots := by
    apply List.ext_getElem?
    intro slot
    by_cases inside : slot < p.slotCount
    · rw [hp slot inside, hq slot (by rwa [slotCount, layout]), agrees.rows, layout, id]
    · have past : ∀ r : Page, r.layout = p.layout → r.slots[slot]? = none := by
        intro r same
        rw [List.getElem?_eq_none_iff, r.length_slots, same]
        exact Nat.not_lt.mp inside
      rw [past q layout, past p rfl]
  have bits := agrees.bits
  cases p
  cases q
  simp only at id layout slots bits clean
  subst id layout slots bits clean
  rfl

/-! ## Pages that have been read and edited -/

/-- The values of every row fit their columns. -/
def Fitting (p : Page) : Prop :=
  ∀ slot values, p.row? slot = some values → p.layout.schema.validate values = .ok ()

theorem Fitting.of_insert {r : RecordId} (fitting : p.Fitting) (h : p.insert t = .ok (r, q))
    (valid : t.schema.validate t.values = .ok ()) : q.Fitting := by
  obtain ⟨types, -, -, -, layout, -⟩ := insert_cases h
  intro slot values here
  rw [row?_of_insert h] at here
  rw [layout]
  split at here
  · rwa [← Schema.validate_congr types, ← Option.some.inj here]
  · exact fitting slot values here

theorem Fitting.of_delete {r : RecordId} (fitting : p.Fitting) (h : p.delete r = .ok q) :
    q.Fitting := by
  obtain ⟨-, -, -, layout, -⟩ := delete_cases h
  intro slot values here
  rw [row?_of_delete h] at here
  rw [layout]
  split at here
  · cases here
  · exact fitting slot values here

/-- Edits leave no row that does not fit, if there was none. -/
theorem Fitting.edits {es : List Edit} (fitting : p.Fitting)
    (valid : ∀ t, .insert t ∈ es → t.schema.validate t.values = .ok ()) : (p.edits es).Fitting :=
  edits_induction (motive := Fitting)
    (fun mem inserted fitting => fitting.of_insert inserted (valid _ mem))
    (fun deleted fitting => fitting.of_delete deleted) (fun _ fitting => fitting) p fitting

/-- The page of zeros has no row that does not fit. -/
theorem fitting_of_empty {id : PageId} {layout : Layout} (h : empty id layout = .ok p) :
    p.Fitting := by
  intro slot values here
  rw [row?_of_empty h] at here
  cases here

/-- What is known of a page that has been read and edited. -/
structure Edited (id : PageId) (layout : Layout) (p : Page) : Prop where
  id : p.id = id
  layout : p.layout = layout
  sound : p.Sound
  tidy : p.Tidy

section Edits

variable {id : PageId} {layout : Layout} {bytes out : Bytes} {es : List Edit}
  (records : ∀ t, .insert t ∈ es → ∃ values, Tuple.new layout.schema values = .ok t)

theorem edited_of_decode (h : decode id layout bytes = .ok p) : p.Edited id layout :=
  have spec := decode_cases h
  ⟨spec.2.1, spec.2.2.1, sound_of_decode h, tidy_of_decode h⟩

include records

theorem Edited.edits (h : p.Edited id layout) : (p.edits es).Edited id layout := by
  refine edits_induction (motive := Edited id layout) ?_ ?_ ?_ p h
  · intro p q t r mem inserted h
    obtain ⟨values, made⟩ := records t mem
    obtain ⟨columns, complete, -⟩ := Tuple.spec_of_new made
    obtain ⟨-, -, -, same, same_layout, -⟩ := insert_cases inserted
    exact ⟨same.trans h.id, same_layout.trans h.layout,
      h.sound.of_insert inserted (by rw [complete, columns]),
      h.tidy.of_insert inserted (columns.trans (congrArg Layout.schema h.layout.symm))⟩
  · intro p q r deleted h
    obtain ⟨-, -, same, same_layout, -⟩ := delete_cases deleted
    exact ⟨same.trans h.id, same_layout.trans h.layout, h.sound.of_delete deleted,
      h.tidy.of_delete deleted⟩
  · intro p t h
    exact ⟨h.id, h.layout, h.sound.mark t, h.tidy.mark t⟩

/-- **A page comes back as it was.** Any octets are read as a page, records are inserted and deleted,
and some of this may fail. If the page can be written then, it takes the octets of a page, and they are
read as the same page, clean, which is written as the same octets. A page that was empty at first can be
written. -/
theorem round_trip (storable : layout.schema.Storable) (start : decode id layout bytes = .ok p) :
    (∀ out, (p.edits es).encode = .ok out → out.length = layout.pageSize ∧
      ∃ q, decode id layout out = .ok q ∧ q.same (p.edits es) = true ∧ q.dirtiedBy = none ∧
        q.encode = .ok out) ∧
    (bytes = layout.emptyPage → ∃ out, (p.edits es).encode = .ok out) := by
  have edited := (edited_of_decode start).edits records
  constructor
  · intro out written
    obtain ⟨size, q, read, agrees⟩ :=
      decode_of_encode edited.sound (by rwa [edited.layout]) written
    rw [edited.layout, edited.id] at read
    rw [edited.layout] at size
    obtain ⟨-, same_id, same_layout, clean, -⟩ := decode_cases read
    -- what has been read agrees with what was in memory, and both are tidy
    obtain rfl : q = (p.edits es).mark none := edited.tidy.eq_mark (tidy_of_decode read)
      (same_id.trans edited.id.symm) (same_layout.trans edited.layout.symm) agrees clean
    exact ⟨size, _, read, same_mark .., clean, written⟩
  · intro blank
    refine edited.sound.exists_encode_iff.mpr
      ((fitting_of_empty (blank ▸ start)).edits fun t mem => ?_)
    obtain ⟨values, made⟩ := records t mem
    obtain ⟨columns, -, valid⟩ := Tuple.spec_of_new made
    rwa [columns]

end Edits

/-- Two slots of one text of three octets, and one octet that is not used. -/
def wordLayout : Layout := ⟨⟨[⟨"word", .text 3⟩]⟩, 16, by decide⟩

/-- Octets with bits set past the last slot, a length beyond the width in the first slot, octets left
behind in the second, and another at the end. -/
def untidyBytes : Bytes :=
  [0xA5, 255, 0, 0, 1, 0x61, 0x62, 0x63, 9, 9, 9, 9, 9, 9, 9, 7]

/-- A record of one word. -/
def wordRecord (word : String) : Tuple := ⟨wordLayout.schema, [.text word], none⟩

/-- Two insertions and two deletions, the second of which fails each time. -/
def wordEdits : List Edit :=
  [.insert (wordRecord "é"), .insert (wordRecord "no"), .delete ⟨⟨.number 1, 0⟩, 0⟩,
    .delete ⟨⟨.number 1, 0⟩, 0⟩, .mark (some ⟨3⟩)]

/-- The words fit their column. -/
theorem records_wordEdits (t : Tuple) (mem : .insert t ∈ wordEdits) :
    ∃ values, Tuple.new wordLayout.schema values = .ok t := by
  obtain rfl | rfl : t = wordRecord "é" ∨ t = wordRecord "no" := by
    simpa [wordEdits] using mem
  · exact ⟨[.text "é"], by decide +kernel⟩
  · exact ⟨[.text "no"], by decide +kernel⟩

/-- The page of these octets comes back as it was after these edits, and with it all its bits. -/
theorem round_trip_untidy : ∃ p q,
    decode ⟨.number 1, 0⟩ wordLayout untidyBytes = .ok p ∧
    (p.edits wordEdits).encode = .ok [0xA6, 0, 0, 0, 0, 0, 0, 0, 2, 0, 0, 0, 0xC3, 0xA9, 0, 0] ∧
    decode ⟨.number 1, 0⟩ wordLayout [0xA6, 0, 0, 0, 0, 0, 0, 0, 2, 0, 0, 0, 0xC3, 0xA9, 0, 0]
      = .ok q ∧
    q.same (p.edits wordEdits) = true := by
  have storable : wordLayout.schema.Storable := by
    intro t mem
    obtain rfl := List.mem_singleton.mp mem
    show 3 ≤ ColumnType.maxWidth
    decide
  obtain ⟨p, start⟩ : ∃ p, decode ⟨.number 1, 0⟩ wordLayout untidyBytes = .ok p := ⟨_, rfl⟩
  have written : (p.edits wordEdits).encode
      = .ok [0xA6, 0, 0, 0, 0, 0, 0, 0, 2, 0, 0, 0, 0xC3, 0xA9, 0, 0] := by
    obtain rfl := Except.ok.inj start
    decide +kernel
  obtain ⟨-, q, read, same, -⟩ := (round_trip records_wordEdits storable start).1 _ written
  exact ⟨p, q, start, written, read, same⟩

end Page

end RowStore
