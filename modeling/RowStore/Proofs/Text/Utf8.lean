import RowStore.Text.Utf8

/-! # Texts read back
What is written as UTF-8 is read back as it was. The reader takes one octet at a time, so the proof
follows the octets of one character: the first opens it (`lead_of_two`, `lead_of_three`,
`lead_of_four`), and each of the others continues it. Main statement: `decodeLossy_encode`. -/

namespace RowStore.Utf8

variable {n v : Nat} {p : Unfinished} {rest : Bytes}

/-! ## One octet -/

theorem decodeFrom_of_whole {b : UInt8} {c : Char} (h : lead b = .whole c) :
    decodeFrom none (b :: rest) = c :: decodeFrom none rest := by
  simp [decodeFrom, next, startAt, h]

theorem decodeFrom_of_opens {b : UInt8} (h : lead b = .opens p) :
    decodeFrom none (b :: rest) = decodeFrom (some p) rest := by
  simp [decodeFrom, next, startAt, h]

/-- The last octet of a character completes it. -/
theorem decodeFrom_of_last (last : p.missing = 1) (low : p.low.toNat ≤ n) (high : n ≤ p.high.toNat) :
    decodeFrom (some p) (UInt8.ofNat n :: rest)
      = Char.ofNat (p.bits * 64 + (n - 0x80)) :: decodeFrom none rest := by
  have small : n % 256 = n := Nat.mod_eq_of_lt (Nat.lt_of_le_of_lt high p.high.toNat_lt)
  simp [decodeFrom, next, UInt8.le_iff_toNat_le, small, low, high, last]

/-- An octet between the first and the last adds its bits. -/
theorem decodeFrom_of_more (more : p.missing ≠ 1) (low : p.low.toNat ≤ n)
    (high : n ≤ p.high.toNat) : decodeFrom (some p) (UInt8.ofNat n :: rest)
      = decodeFrom (some ⟨p.bits * 64 + (n - 0x80), p.missing - 1, 0x80, 0xBF⟩) rest := by
  have small : n % 256 = n := Nat.mod_eq_of_lt (Nat.lt_of_le_of_lt high p.high.toNat_lt)
  simp [decodeFrom, next, UInt8.le_iff_toNat_le, small, low, high, more]

/-! ## First octets -/

theorem lead_of_one (h : v ≤ 0x7f) : lead (UInt8.ofNat v) = .whole (Char.ofNat v) := by
  have small : v % 256 = v := Nat.mod_eq_of_lt (by omega)
  have lt : v < 128 := by omega
  simp [lead, UInt8.lt_iff_toNat_lt, small, lt]

theorem lead_of_two (above : 0x7f < v) (below : v ≤ 0x7ff) :
    lead (UInt8.ofNat (v / 64 % 0x20 + 0xc0)) = .opens ⟨v / 64, 1, 0x80, 0xBF⟩ := by
  have leads : ∀ k < 32, 2 ≤ k →
      lead (UInt8.ofNat (k % 0x20 + 0xc0)) = .opens ⟨k, 1, 0x80, 0xBF⟩ := by decide +kernel
  -- a value below 2 would fit into one octet
  exact leads _ (by omega) (by omega)

/-- The bounds on the second octet leave out what two octets can write, and the surrogates. -/
theorem lead_of_three (above : 0x7ff < v) (below : v ≤ 0xffff) (valid : v.isValidChar) :
    ∃ low high, lead (UInt8.ofNat (v / 4096 % 0x10 + 0xe0)) = .opens ⟨v / 4096, 2, low, high⟩ ∧
      low.toNat ≤ v / 64 % 0x40 + 0x80 ∧ v / 64 % 0x40 + 0x80 ≤ high.toNat := by
  have leads : ∀ k < 16, lead (UInt8.ofNat (k % 0x10 + 0xe0)) = .opens ⟨k, 2,
      if k = 0 then 0xA0 else 0x80, if k = 0xD then 0x9F else 0xBF⟩ := by decide +kernel
  refine ⟨_, _, leads (v / 4096) (by omega), ?_, ?_⟩
  · by_cases first : v / 4096 = 0 <;> simp [first] <;> omega
  · by_cases last : v / 4096 = 0xD <;> simp [last]
    · -- `0xD800` to `0xDFFF` are surrogates, and no characters
      simp only [Nat.isValidChar] at valid
      omega
    · omega

/-- The bounds on the second octet leave out what three octets can write, and what is no code point. -/
theorem lead_of_four (above : 0xffff < v) (valid : v.isValidChar) :
    ∃ low high, lead (UInt8.ofNat (v / 262144 % 0x08 + 0xf0))
        = .opens ⟨v / 262144, 3, low, high⟩ ∧
      low.toNat ≤ v / 4096 % 0x40 + 0x80 ∧ v / 4096 % 0x40 + 0x80 ≤ high.toNat := by
  have leads : ∀ k < 5, lead (UInt8.ofNat (k % 0x08 + 0xf0)) = .opens ⟨k, 3,
      if k = 0 then 0x90 else 0x80, if k = 4 then 0x8F else 0xBF⟩ := by decide +kernel
  simp only [Nat.isValidChar] at valid
  refine ⟨_, _, leads (v / 262144) (by omega), ?_, ?_⟩
  · by_cases first : v / 262144 = 0 <;> simp [first] <;> omega
  · by_cases last : v / 262144 = 4 <;> simp [last] <;> omega

/-! ## Whole texts -/

/-- The octets of a character are read as that character. -/
theorem decodeFrom_utf8EncodeChar_append (c : Char) (rest : Bytes) :
    decodeFrom none (String.utf8EncodeChar c ++ rest) = c :: decodeFrom none rest := by
  obtain ⟨v, eq⟩ : ∃ v, c.val.toNat = v := ⟨_, rfl⟩
  have valid : v.isValidChar := eq ▸ c.valid
  have whole : Char.ofNat v = c := eq ▸ Char.ofNat_toNat c
  -- the cases are those of the writer: one octet, two, three, four
  simp only [String.utf8EncodeChar, eq]
  split
  · next below => rw [List.singleton_append, decodeFrom_of_whole (lead_of_one below), whole]
  · next above =>
    split
    · next below =>
      have lead := lead_of_two (by omega) below
      simp only [List.cons_append, List.nil_append]
      rw [decodeFrom_of_opens lead, decodeFrom_of_last rfl (by simp) (by simp; omega)]
      rw [show v / 64 * 64 + (v % 0x40 + 0x80 - 0x80) = v by omega, whole]
    · next above =>
      split
      · next below =>
        obtain ⟨low, high, lead, hl, hh⟩ := lead_of_three (by omega) below valid
        simp only [List.cons_append, List.nil_append]
        rw [decodeFrom_of_opens lead, decodeFrom_of_more (by simp) hl hh,
          decodeFrom_of_last rfl (by simp) (by simp; omega)]
        simp only
        rw [show (v / 4096 * 64 + (v / 64 % 0x40 + 0x80 - 0x80)) * 64
          + (v % 0x40 + 0x80 - 0x80) = v by omega, whole]
      · next above =>
        obtain ⟨low, high, lead, hl, hh⟩ := lead_of_four (by omega) valid
        simp only [List.cons_append, List.nil_append]
        rw [decodeFrom_of_opens lead, decodeFrom_of_more (by simp) hl hh,
          decodeFrom_of_more (by simp) (by simp) (by simp; omega),
          decodeFrom_of_last rfl (by simp) (by simp; omega)]
        simp only
        rw [show ((v / 262144 * 64 + (v / 4096 % 0x40 + 0x80 - 0x80)) * 64
          + (v / 64 % 0x40 + 0x80 - 0x80)) * 64 + (v % 0x40 + 0x80 - 0x80) = v by omega, whole]

/-- What is written is read back. -/
@[simp] theorem decodeLossy_encode (s : String) : decodeLossy (encode s) = s := by
  -- after each character the reader is back where it started
  have all : ∀ cs : List Char, decodeFrom none (cs.flatMap String.utf8EncodeChar) = cs := by
    intro cs
    induction cs with
    | nil => rfl
    | cons c cs ih => rw [List.flatMap_cons, decodeFrom_utf8EncodeChar_append, ih]
  rw [decodeLossy, encode, all, String.ofList_toList]

end RowStore.Utf8
