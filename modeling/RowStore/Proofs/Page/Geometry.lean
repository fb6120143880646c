import Mathlib.Algebra.Order.Floor.Div
import Mathlib.GroupTheory.GroupAction.Ring
import Mathlib.Order.Bounds.Basic
import Mathlib.Order.Interval.Finset.Nat
import RowStore.Proofs.Page.Edits

/-! # How a page is divided
The bitmap of a page takes whole octets, and the slots come after it one by one. The number of slots is
counted in bits, as if no octet of the bitmap were rounded up, and still no slot too many is counted and
none too few (`isGreatest_slotCapacity`). Main statement: `divides_page`, bitmap and slots lie apart and
inside the page, and whatever is read from a page or appended to it stays in its place. -/

namespace RowStore

/-! ## The number of slots -/

/-- To count in bits comes to the same as to count in octets and to round the bitmap up. -/
theorem bitmap_add_records_le_iff {n record page : Nat} :
    n ⌈/⌉ 8 + n * record ≤ page ↔ n * (record * 8 + 1) ≤ page * 8 := by
  rw [Nat.ceilDiv_eq_add_pred_div, Nat.mul_add, Nat.mul_one, ← Nat.mul_assoc]
  omega

/-- The guard against records that are larger than the page changes nothing. -/
theorem slotCapacity_eq_div {record page : Nat} (pos : 0 < record) :
    slotCapacity record page = page * 8 / (record * 8 + 1) := by
  rw [slotCapacity]
  split
  · next guard => exact (Nat.div_eq_of_lt (by omega)).symm
  · rfl

theorem isGreatest_slotCapacity {record page : Nat} (pos : 0 < record) :
    IsGreatest {n | n ⌈/⌉ 8 + n * record ≤ page} (slotCapacity record page) := by
  rw [slotCapacity_eq_div pos]
  constructor
  · exact bitmap_add_records_le_iff.mpr (Nat.div_mul_le_self ..)
  · intro n fits
    exact (Nat.le_div_iff_mul_le (Nat.succ_pos _)).mpr (bitmap_add_records_le_iff.mp fits)

/-- There is no slot if records take no octets, or if not even one fits with its octet of bits. -/
theorem slotCapacity_eq_zero_iff {record page : Nat} :
    slotCapacity record page = 0 ↔ record = 0 ∨ page < 1 ⌈/⌉ 8 + 1 * record := by
  rcases Nat.eq_zero_or_pos record with rfl | pos
  · simp [slotCapacity]
  · rw [slotCapacity_eq_div pos, Nat.div_eq_zero_iff_lt (Nat.succ_pos _), ← Nat.not_le, ← Nat.not_le,
      bitmap_add_records_le_iff, Nat.one_mul]
    omega

namespace Layout

/-! ## The place of each slot -/

variable {l : Layout} {slot : Nat}

/-- The octet at which a slot starts. -/
def slotOffset (l : Layout) (slot : Nat) : Nat :=
  l.headerSize + slot * l.recordSize

theorem slotOffset_succ (l : Layout) (slot : Nat) :
    l.slotOffset (slot + 1) = l.slotOffset slot + l.recordSize := by
  rw [slotOffset, slotOffset, Nat.succ_mul, Nat.add_assoc]

theorem slotOffset_mono (l : Layout) : Monotone l.slotOffset :=
  fun _ _ le => Nat.add_le_add_left (Nat.mul_le_mul_right _ le) _

theorem headerSize_le_slotOffset (l : Layout) (slot : Nat) : l.headerSize ≤ l.slotOffset slot :=
  Nat.le_add_right ..

/-- Every slot starts inside the page, and the last one ends inside it. -/
theorem slotOffset_le (inside : slot ≤ l.slotCount) : l.slotOffset slot ≤ l.pageSize :=
  (l.slotOffset_mono inside).trans l.header_add_slots_le

/-- The places of the octets of the bitmap. -/
def bitmapArea (l : Layout) : Finset Nat :=
  Finset.range l.headerSize

/-- The places of the octets of a slot. -/
def slotArea (l : Layout) (slot : Nat) : Finset Nat :=
  Finset.Ico (l.slotOffset slot) (l.slotOffset slot + l.recordSize)

/-- There is a bit for each slot, and the bitmap and the slots lie inside the page, each apart from the
others. -/
structure Divided (l : Layout) : Prop where
  bits : l.slotCount ≤ 8 * l.headerSize
  bitmap_inside : l.bitmapArea ⊆ Finset.range l.pageSize
  slot_inside : ∀ slot < l.slotCount, l.slotArea slot ⊆ Finset.range l.pageSize
  bitmap_apart : ∀ slot < l.slotCount, Disjoint l.bitmapArea (l.slotArea slot)
  slots_apart : ∀ i < l.slotCount, ∀ j < l.slotCount, i ≠ j → Disjoint (l.slotArea i) (l.slotArea j)

/-- A slot ends where the next one starts, or before. -/
theorem disjoint_slotArea {i j : Nat} (before : i < j) : Disjoint (l.slotArea i) (l.slotArea j) := by
  have ends := l.slotOffset_mono (Nat.succ_le_of_lt before)
  rw [Nat.succ_eq_add_one, slotOffset_succ] at ends
  rw [Finset.disjoint_left]
  intro place here there
  rw [slotArea, Finset.mem_Ico] at here there
  omega

theorem divided (l : Layout) : l.Divided where
  bits := l.slotCount_le_bits
  bitmap_inside := Finset.range_subset_range.mpr l.headerSize_le
  slot_inside slot inside := by
    have ends := slotOffset_le (l := l) (Nat.succ_le_of_lt inside)
    rw [Nat.succ_eq_add_one, slotOffset_succ] at ends
    intro place here
    rw [slotArea, Finset.mem_Ico] at here
    exact Finset.mem_range.mpr (here.2.trans_le ends)
  bitmap_apart slot _ := by
    rw [Finset.disjoint_left]
    intro place here there
    rw [bitmapArea, Finset.mem_range] at here
    rw [slotArea, Finset.mem_Ico] at there
    exact (here.trans_le (l.headerSize_le_slotOffset slot)).not_ge there.1
  slots_apart i _ j _ ne := by
    rcases Nat.lt_or_gt_of_ne ne with before | after
    · exact disjoint_slotArea before
    · exact (disjoint_slotArea after).symm

end Layout

/-! ## The place of each column -/

/-- The column after the first few takes octets of the record. -/
theorem ColumnType.totalSize_take_add_size_le {types : List ColumnType} {c : Nat} {type : ColumnType}
    (column : types[c]? = some type) :
    totalSize (types.take c) + type.size ≤ totalSize types := by
  obtain ⟨inside, rfl⟩ := List.getElem?_eq_some_iff.mp column
  have parts := congrArg totalSize (List.take_append_drop (c + 1) types)
  rw [totalSize_append, List.take_succ_eq_append_getElem inside, totalSize_append, totalSize_cons,
    totalSize_nil] at parts
  omega

/-- The value of a column is read from the octets that start where the columns before it end. -/
theorem getElem?_readFields {types : List ColumnType} {c : Nat} {type : ColumnType} {bytes : Bytes}
    (column : types[c]? = some type) : (readFields types bytes)[c]? =
      some (Value.read type ((bytes.drop (ColumnType.totalSize (types.take c))).take type.size)) := by
  induction types generalizing c bytes with
  | nil => cases column
  | cons t types ih =>
    cases c with
    | zero =>
      obtain rfl : t = type := by simpa using column
      rfl
    | succ c =>
      rw [readFields, List.getElem?_cons_succ, ih (by simpa using column), List.drop_drop]
      rfl

namespace Page

variable {p : Page} {slot : Nat} {t : Tuple}

/-! ## What is read, and what is appended -/

/-- What a page takes from the octets it is read from is there: the octets of the bitmap, those of each
used slot, and in them those of each column. -/
structure ReadInside (p : Page) (bytes : Bytes) : Prop where
  bitmap : (bytes.take p.layout.headerSize).length = p.layout.headerSize ∧
    p.bits = Bitmap.unpack (bytes.take p.layout.headerSize)
  slot : ∀ slot t, p.tuple? slot = some t →
    let octets := (bytes.drop (p.layout.slotOffset slot)).take p.layout.recordSize
    octets.length = p.layout.recordSize ∧ t.values = readFields p.layout.schema.types octets
  column : ∀ slot t c type offset, p.tuple? slot = some t →
    p.layout.schema.types[c]? = some type → p.layout.schema.offset? c = some offset →
      let octets := (bytes.drop (p.layout.slotOffset slot + offset)).take type.size
      octets.length = type.size ∧ t.values[c]? = some (Value.read type octets)

/-- What is appended when a page is written stays inside. After the bitmap and some of the slots it is
the turn of the octet at which the next slot starts; no field of a record goes past the end of its slot;
and the zeros at the end make up the size of the page, with nothing to be cut off. -/
structure WritesInside (p : Page) : Prop where
  bitmap : (Bitmap.pack p.bits).length = p.layout.headerSize
  slots : ∀ k ≤ p.slotCount, ∀ octets,
    encodeSlots p.layout.recordSize ((p.bits.zip p.slots).take k) = .ok octets →
      (Bitmap.pack p.bits ++ octets).length = p.layout.slotOffset k ∧
        p.layout.slotOffset k ≤ p.layout.pageSize
  fields : ∀ slot t c octets, p.tuple? slot = some t →
    encodeFields (t.schema.types.take c) (t.values.take c) = .ok octets →
      p.layout.slotOffset slot + octets.length ≤ p.layout.slotOffset (slot + 1)
  zeros : ∀ bytes, p.encode = .ok bytes → ∃ slots n,
    encodeSlots p.layout.recordSize (p.bits.zip p.slots) = .ok slots ∧
      bytes = Bitmap.pack p.bits ++ slots ++ List.replicate n 0 ∧
      p.layout.slotOffset p.slotCount + n = p.layout.pageSize

/-- Octets inside a slot are those that far from the octet at which it starts. -/
theorem take_drop_slotBytes {layout : Layout} {bytes : Bytes} {offset size : Nat}
    (inside : offset + size ≤ layout.recordSize) :
    ((slotBytes layout bytes slot).drop offset).take size =
      (bytes.drop (layout.slotOffset slot + offset)).take size := by
  rw [slotBytes, List.drop_drop, List.drop_take, List.drop_drop, List.take_take,
    Nat.min_eq_left (by omega), Layout.slotOffset]

/-- A page that is read takes from the octets only what is there. -/
theorem readInside_of_decode {id : PageId} {layout : Layout} {bytes : Bytes}
    (h : decode id layout bytes = .ok p) : p.ReadInside bytes := by
  obtain ⟨size, rfl, rfl, -, bits, -⟩ := decode_cases h
  have slots : ∀ slot t, p.tuple? slot = some t →
      p.layout.slotOffset slot + p.layout.recordSize ≤ bytes.length ∧
        t.values = readFields p.layout.schema.types (slotBytes p.layout bytes slot) := by
    intro slot t here
    have used := (tuple?_eq_some.mp here).1
    rw [tuple?_of_decode h, if_pos used] at here
    obtain rfl := Option.some.inj here
    rw [size, ← Layout.slotOffset_succ]
    exact ⟨Layout.slotOffset_le (isUsed_iff.mp used).1, rfl⟩
  refine ⟨⟨?_, bits⟩, fun slot t here => ?_, fun slot t c type offset here column starts => ?_⟩
  · rw [List.length_take, size, Nat.min_eq_left p.layout.headerSize_le]
  · obtain ⟨inside, values⟩ := slots slot t here
    rw [slotBytes, List.drop_drop] at values
    refine ⟨?_, values⟩
    rw [List.length_take, List.length_drop]
    omega
  · obtain ⟨inside, values⟩ := slots slot t here
    obtain ⟨-, rfl⟩ : c ≤ p.layout.schema.size ∧
        ColumnType.totalSize (p.layout.schema.types.take c) = offset := by
      simpa [Schema.offset?] using starts
    have before := ColumnType.totalSize_take_add_size_le column
    rw [← Schema.recordSize, ← Layout.recordSize] at before
    constructor
    · rw [List.length_take, List.length_drop]
      omega
    · rw [values, getElem?_readFields column, take_drop_slotBytes before]

/-- A page of complete records is written inside the page. -/
theorem Sound.writesInside (h : p.Sound) : p.WritesInside := by
  have bitmap := length_pack p.length_bits
  have slots : ∀ k ≤ p.slotCount, ∀ octets,
      encodeSlots p.layout.recordSize ((p.bits.zip p.slots).take k) = .ok octets →
        (Bitmap.pack p.bits ++ octets).length = p.layout.slotOffset k := by
    intro k inside octets written
    obtain ⟨length, -⟩ := length_and_content_of_encodeSlots
      (fun t mem => h.fills_of_cell (List.mem_of_mem_take mem)) written
    rw [List.length_append, bitmap, length, List.length_take, length_cells, Nat.min_eq_left inside]
    rfl
  refine ⟨bitmap, fun k inside octets written => ⟨slots k inside octets written,
    Layout.slotOffset_le inside⟩, fun slot t c octets here written => ?_, fun bytes written => ?_⟩
  · obtain ⟨fills, -⟩ := h.fills_of_tuple? here
    have first : (t.values.take c).length = (t.schema.types.take c).length := by
      rw [List.length_take, List.length_take, fills.complete, fills.1]
    have parts := congrArg ColumnType.totalSize (List.take_append_drop c t.schema.types)
    rw [ColumnType.totalSize_append, ← length_encodeFields first written, fills.1] at parts
    rw [Layout.slotOffset_succ, Layout.recordSize, Schema.recordSize]
    omega
  · obtain ⟨octets, here, written⟩ := bind_eq_ok.mp written
    obtain rfl := Except.ok.inj written
    have all : (p.bits.zip p.slots).take p.slotCount = p.bits.zip p.slots :=
      List.take_of_length_le (length_cells p).le
    refine ⟨octets, _, here, rfl, ?_⟩
    rw [slots _ le_rfl octets (all.symm ▸ here)]
    exact Nat.add_sub_of_le (Layout.slotOffset_le le_rfl)

end Page

/-- **How a page is divided.** The number of slots is the greatest for which they fit the page with their
bits, so that there is no layout exactly if records take no octets or not even one fits. For every layout
there is, there are bits for all slots, and bitmap and slots lie apart and inside the page: whatever
octets are read as a page, all that is looked at is there, and whatever records are put into the page and
deleted then, all that is appended when it is written stays inside. -/
theorem Layout.divides_page :
    (∀ record page, 0 < record →
      IsGreatest {n | n ⌈/⌉ 8 + n * record ≤ page} (slotCapacity record page)) ∧
    ∀ schema pageSize,
      (∀ err, Layout.new schema pageSize = .error err ↔
        err = .schemaMismatch (.recordSize schema.recordSize pageSize) ∧
          (schema.recordSize = 0 ∨ pageSize < 1 ⌈/⌉ 8 + 1 * schema.recordSize)) ∧
      ∀ l, Layout.new schema pageSize = .ok l →
        l.schema = schema ∧ l.pageSize = pageSize ∧ l.Divided ∧
        ∀ id bytes, bytes.length = pageSize → ∃ p, Page.decode id l bytes = .ok p ∧
          p.ReadInside bytes ∧
          ∀ es, (∀ t, .insert t ∈ es → t.values.length = t.schema.size) →
            (p.edits es).WritesInside := by
  refine ⟨fun record page => isGreatest_slotCapacity, fun schema pageSize => ⟨fun err => ?_, ?_⟩⟩
  · rw [← slotCapacity_eq_zero_iff, Layout.new]
    split
    · next room => simp [room.ne']
    · next none =>
      rw [Except.error.injEq, eq_comm, and_iff_left (Nat.eq_zero_of_not_pos none)]
  · intro l made
    obtain ⟨rfl, rfl⟩ : l.schema = schema ∧ l.pageSize = pageSize := by
      rw [Layout.new] at made
      split at made
      · obtain rfl := Except.ok.inj made
        exact ⟨rfl, rfl⟩
      · cases made
    refine ⟨rfl, rfl, l.divided, fun id bytes size => ?_⟩
    obtain ⟨p, read⟩ : ∃ p, Page.decode id l bytes = .ok p := by
      rw [Page.decode, dif_pos size]
      exact ⟨_, rfl⟩
    exact ⟨p, read, Page.readInside_of_decode read, fun es complete =>
      ((Page.sound_of_decode read).edits complete).writesInside⟩

/-- Two records of seven octets fit a page of sixteen, with an octet of bits before them and one octet
after; a page of seven octets has no room for the bit of a record. -/
theorem Layout.divides_page_words :
    IsGreatest {n | n ⌈/⌉ 8 + n * 7 ≤ 16} (slotCapacity 7 16) ∧ slotCapacity 7 16 = 2 ∧
    Layout.new Page.wordLayout.schema 7 = .error (.schemaMismatch (.recordSize 7 7)) ∧
    Page.wordLayout.Divided ∧
    ∃ p, Page.decode ⟨.number 1, 0⟩ Page.wordLayout Page.untidyBytes = .ok p ∧
      p.ReadInside Page.untidyBytes ∧ (p.edits Page.wordEdits).WritesInside := by
  obtain ⟨greatest, layouts⟩ := Layout.divides_page
  obtain ⟨fails, -⟩ := layouts Page.wordLayout.schema 7
  obtain ⟨-, -, divided, pages⟩ :=
    (layouts Page.wordLayout.schema 16).2 Page.wordLayout (by decide +kernel)
  obtain ⟨p, read, inside, written⟩ := pages ⟨.number 1, 0⟩ Page.untidyBytes (by decide)
  refine ⟨greatest 7 16 (by decide), by decide, (fails _).mpr ⟨by decide +kernel, by decide +kernel⟩,
    divided, p, read, inside, written Page.wordEdits fun t mem => ?_⟩
  obtain ⟨values, made⟩ := Page.records_wordEdits t mem
  obtain ⟨columns, complete, -⟩ := Tuple.spec_of_new made
  rw [complete, columns]

end RowStore
