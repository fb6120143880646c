import RowStore.Proofs.Page.Rows

/-! # Pages that can be written
Any octets can be read as a page, but not every page that is read can be written. What cannot be read in
a text is replaced, and the replacement may be longer than what it stands for; so a text that filled its
column may come out too long for it. Main statements: `encodable_iff`, a page that has been read can be
written if the values in its used slots fit their columns, as they do where all texts are well formed;
and `not_encodable_of_replacement`, a page where they do not. -/

namespace RowStore

/-- A list in two parts is made if both parts are. -/
theorem exists_append_eq_ok {ε α : Type} {x y : Except ε (List α)} :
    (∃ c, (do return (← x) ++ (← y)) = .ok c) ↔ (∃ a, x = .ok a) ∧ ∃ b, y = .ok b := by
  cases x <;> cases y <;> simp [bind, Except.bind, pure, Except.pure]

/-! ## Values and records -/

theorem Utf8.length_encode (s : String) : (encode s).length = s.utf8ByteSize := by
  rw [encode, ← String.size_toByteArray, ← String.utf8Encode_toList]
  simp [List.utf8Encode]

/-- The values that can be stored in a column are those that fit it. -/
theorem Value.exists_encode_iff {v : Value} {t : ColumnType} :
    (∃ bytes, v.encode t = .ok bytes) ↔ v.fits t = true := by
  cases v with
  | int n => cases t <;> simp [encode, fits]
  | text s =>
    cases t with
    | int => simp [encode, fits]
    | text width =>
      simp only [encode, fits, Utf8.length_encode, decide_eq_true_eq]
      split
      · next short => simp [short]
      · next long => simp [long]

/-- The records that can be stored are those whose values fit their columns. -/
theorem exists_encodeFields_iff {types : List ColumnType} {values : List Value} :
    (∃ bytes, encodeFields types values = .ok bytes) ↔
      Schema.checkFields types values = .ok () := by
  induction types generalizing values with
  | nil => simp [encodeFields, Schema.checkFields]
  | cons t types ih =>
    cases values with
    | nil => simp [encodeFields, Schema.checkFields]
    | cons v values =>
      rw [encodeFields, exists_append_eq_ok, Value.exists_encode_iff, ih, Schema.checkFields]
      split
      · next fits => simp [fits]
      · next misfit => simp [misfit]

/-- A complete record can be stored if its schema allows its values. -/
theorem Tuple.Fills.exists_encode_iff {t : Tuple} {s : Schema} (fills : t.Fills s) :
    (∃ bytes, t.encode = .ok bytes) ↔ s.validate t.values = .ok () := by
  rw [encode, fills.1, exists_encodeFields_iff, Schema.validate, if_pos fills.2]

/-! ## What is read -/

/-- Whether octets store a text that can be read without a replacement, or a number. -/
def ColumnType.WellFormed (bytes : Bytes) : ColumnType → Prop
  | .int => True
  | .text width =>
    (Utf8.decode? ((bytes.drop lengthSize).take
      (min (LittleEndian.read (bytes.take lengthSize)) width))).isSome

/-- Whether octets store well-formed values in columns of the given types. -/
def WellFormedFields : List ColumnType → Bytes → Prop
  | [], _ => True
  | t :: ts, bytes => t.WellFormed (bytes.take t.size) ∧ WellFormedFields ts (bytes.drop t.size)

/-- A well-formed value fits the column that it is read from. -/
theorem Value.fits_read {t : ColumnType} {bytes : Bytes} (h : t.WellFormed bytes) :
    (read t bytes).fits t = true := by
  cases t with
  | int => rfl
  | text width =>
    obtain ⟨s, well_formed⟩ := Option.isSome_iff_exists.mp h
    -- the text takes as many octets as it has been read from
    have octets := congrArg List.length (Utf8.encode_of_decode? well_formed)
    rw [Utf8.length_encode, List.length_take] at octets
    rw [Utf8.decode?, Option.ite_none_right_eq_some] at well_formed
    simp only [read, Option.some.inj well_formed.2, fits, decide_eq_true_eq]
    omega

theorem checkFields_readFields {types : List ColumnType} {bytes : Bytes}
    (h : WellFormedFields types bytes) :
    Schema.checkFields types (readFields types bytes) = .ok () := by
  induction types generalizing bytes with
  | nil => rfl
  | cons t types ih => rw [readFields, Schema.checkFields, if_pos (Value.fits_read h.1), ih h.2]

namespace Page

variable {p : Page}

/-! ## Pages -/

theorem exists_encodeSlots_iff {recordSize : Nat} {cells : List (Bool × Option Tuple)} :
    (∃ bytes, encodeSlots recordSize cells = .ok bytes) ↔
      ∀ t, (true, some t) ∈ cells → ∃ bytes, t.encode = .ok bytes := by
  induction cells with
  | nil => simp [encodeSlots]
  | cons cell cells ih =>
    obtain ⟨used, content⟩ := cell
    rw [encodeSlots_cons, exists_append_eq_ok, ih]
    match used, content with
    | true, some t => simp [encodeContent]
    | false, _ | true, none =>
      -- a free slot is stored as zeros
      simp [encodeContent]

/-- The pages that can be written are those whose records can be stored. -/
theorem exists_encode_iff : (∃ bytes, p.encode = .ok bytes) ↔
    ∀ slot t, p.tuple? slot = some t → ∃ bytes, t.encode = .ok bytes := by
  have slots : (∃ bytes, p.encode = .ok bytes) ↔
      ∃ bytes, encodeSlots p.layout.recordSize (p.bits.zip p.slots) = .ok bytes := by
    simp only [encode, bind_eq_ok]
    constructor
    · rintro ⟨-, slots, hs, -⟩
      exact ⟨slots, hs⟩
    · rintro ⟨slots, hs⟩
      exact ⟨_, slots, hs, rfl⟩
  rw [slots, exists_encodeSlots_iff]
  simp only [tuple?_eq_some_iff_cell, List.mem_iff_getElem?]
  exact ⟨fun h slot t here => h t ⟨slot, here⟩, fun h t ⟨slot, here⟩ => h slot t here⟩

/-- A page of complete records can be written if its schema allows every row. -/
theorem Sound.exists_encode_iff (h : p.Sound) : (∃ bytes, p.encode = .ok bytes) ↔
    ∀ slot values, p.row? slot = some values → p.layout.schema.validate values = .ok () := by
  rw [Page.exists_encode_iff]
  simp only [row?, Option.map_eq_some_iff]
  constructor
  · rintro all slot _ ⟨t, here, rfl⟩
    obtain ⟨fills, -⟩ := h.fills_of_tuple? here
    exact fills.exists_encode_iff.mp (all slot _ here)
  · intro all slot t here
    obtain ⟨fills, -⟩ := h.fills_of_tuple? here
    exact fills.exists_encode_iff.mpr (all slot _ ⟨_, here, rfl⟩)

/-- **Which pages can be written back.** Octets of the right number can always be read as a page, and the
page can be written if the values of every row fit their columns. They do where all texts in used slots
are well formed; a text with octets that had to be replaced may have become too long. -/
theorem encodable_iff (id : PageId) (layout : Layout) (bytes : Bytes)
    (h : bytes.length = layout.pageSize) : ∃ p, decode id layout bytes = .ok p ∧
      ((∃ octets, p.encode = .ok octets) ↔
        ∀ slot values, p.row? slot = some values → layout.schema.validate values = .ok ()) ∧
      ((∀ slot, p.isUsed slot = true →
        WellFormedFields layout.schema.types (slotBytes layout bytes slot)) →
        ∃ octets, p.encode = .ok octets) := by
  obtain ⟨p, hp⟩ : ∃ p, decode id layout bytes = .ok p := by
    rw [decode, dif_pos h]
    exact ⟨_, rfl⟩
  have columns : p.layout = layout := (decode_cases hp).2.2.1
  have writable := (sound_of_decode hp).exists_encode_iff
  rw [columns] at writable
  refine ⟨p, hp, writable, fun well_formed => writable.mpr ?_⟩
  intro slot values here
  have used : p.isUsed slot = true := by
    rw [row?, Option.map_eq_some_iff] at here
    obtain ⟨t, here, -⟩ := here
    exact (tuple?_eq_some.mp here).1
  rw [row?, tuple?_of_decode hp, if_pos used] at here
  obtain rfl := Option.some.inj here
  rw [Schema.validate, if_pos (Tuple.fills_read ..).2]
  exact checkFields_readFields (well_formed slot used)

/-- Pages of one text of one octet. -/
def letterLayout : Layout := ⟨⟨[⟨"letter", .text 1⟩]⟩, 6, by decide⟩

/-- A page whose only text is an octet that begins no character can be read, but not written: the text
has become one of three octets, which its column does not allow. -/
theorem not_encodable_of_replacement :
    (∃ p, decode ⟨.number 1, 0⟩ letterLayout [1, 1, 0, 0, 0, 0xFF] = .ok p ∧
      p.encode = .error (.textTooLong 3 1)) ∧
    ∃ t, Tuple.decode letterLayout.schema [1, 0, 0, 0, 0xFF] = .ok t ∧
      letterLayout.schema.validate t.values
        = .error (.typeMismatch (.text 1) (.text "\uFFFD")) := by
  refine ⟨⟨_, rfl, ?_⟩, _, rfl, ?_⟩
  · decide +kernel
  · decide +kernel

/-- The same page with a letter in its place can be written. -/
theorem encodable_iff_letter : ∃ p,
    decode ⟨.number 1, 0⟩ letterLayout [1, 1, 0, 0, 0, 0x61] = .ok p ∧
      ∃ octets, p.encode = .ok octets := by
  obtain ⟨p, hp, -, writable⟩ :=
    encodable_iff ⟨.number 1, 0⟩ letterLayout [1, 1, 0, 0, 0, 0x61] (by decide)
  refine ⟨p, hp, writable ?_⟩
  intro slot used
  obtain rfl : slot = 0 := by
    have inside := (isUsed_iff.mp used).1
    rw [slotCount, (decode_cases hp).2.2.1] at inside
    exact Nat.lt_one_iff.mp inside
  have well_formed : (Utf8.decode? [0x61]).isSome := by decide +kernel
  exact ⟨well_formed, trivial⟩

end Page

end RowStore
