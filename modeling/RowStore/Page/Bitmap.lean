import RowStore.Text.Utf8

/-! # Bitmaps
One bit for each slot of a page, packed into octets with the lowest slot in the lowest bit. Main
statements: `pack` and `unpack` undo each other on whole octets. -/

namespace RowStore.Bitmap

/-- The bits of an octet, the lowest first. -/
def bitsOf (b : UInt8) : List Bool :=
  let n := b.toNat
  [n.testBit 0, n.testBit 1, n.testBit 2, n.testBit 3, n.testBit 4, n.testBit 5, n.testBit 6,
    n.testBit 7]

/-- The octet of at most eight bits, the lowest first. -/
def octetOf (bits : List Bool) : UInt8 :=
  UInt8.ofNat (bits.foldr (fun bit n => bit.toNat + 2 * n) 0)

/-- The bits of octets, the lowest first. -/
def unpack (bytes : Bytes) : List Bool :=
  bytes.flatMap bitsOf

/-- The octets of bits, eight to an octet; bits that fill no octet are left out. -/
def pack : List Bool → Bytes
  | b₀ :: b₁ :: b₂ :: b₃ :: b₄ :: b₅ :: b₆ :: b₇ :: rest =>
    octetOf [b₀, b₁, b₂, b₃, b₄, b₅, b₆, b₇] :: pack rest
  | _ => []

@[simp] theorem length_unpack (bytes : Bytes) : (unpack bytes).length = 8 * bytes.length := by
  induction bytes with
  | nil => rfl
  | cons b rest ih => simp_all [unpack, bitsOf]; omega

theorem octetOf_bitsOf (b : UInt8) : octetOf (bitsOf b) = b := by
  have all : ∀ n < 256, octetOf (bitsOf (UInt8.ofNat n)) = UInt8.ofNat n := by decide +kernel
  simpa using all b.toNat b.toNat_lt

theorem bitsOf_octetOf (b₀ b₁ b₂ b₃ b₄ b₅ b₆ b₇ : Bool) :
    bitsOf (octetOf [b₀, b₁, b₂, b₃, b₄, b₅, b₆, b₇]) = [b₀, b₁, b₂, b₃, b₄, b₅, b₆, b₇] := by
  revert b₀ b₁ b₂ b₃ b₄ b₅ b₆ b₇
  decide +kernel

@[simp] theorem pack_unpack (bytes : Bytes) : pack (unpack bytes) = bytes := by
  induction bytes with
  | nil => rfl
  | cons b rest ih =>
    have step : pack (unpack (b :: rest)) = octetOf (bitsOf b) :: pack (unpack rest) := rfl
    rw [step, octetOf_bitsOf, ih]

theorem unpack_pack {n : Nat} {bits : List Bool} (h : bits.length = 8 * n) :
    unpack (pack bits) = bits := by
  induction n generalizing bits with
  | zero => rw [List.eq_nil_of_length_eq_zero h]; rfl
  | succ n ih =>
    match bits, h with
    | b₀ :: b₁ :: b₂ :: b₃ :: b₄ :: b₅ :: b₆ :: b₇ :: rest, h =>
      have hr : rest.length = 8 * n := by simp at h; omega
      have step : unpack (pack (b₀ :: b₁ :: b₂ :: b₃ :: b₄ :: b₅ :: b₆ :: b₇ :: rest)) =
        bitsOf (octetOf [b₀, b₁, b₂, b₃, b₄, b₅, b₆, b₇]) ++ unpack (pack rest) := rfl
      rw [step, bitsOf_octetOf, ih hr]
      rfl
    | [], h | [_], h | [_, _], h | [_, _, _], h | [_, _, _, _], h | [_, _, _, _, _], h
    | [_, _, _, _, _, _], h | [_, _, _, _, _, _, _], h =>
      simp only [List.length_cons, List.length_nil] at h
      omega

end RowStore.Bitmap
