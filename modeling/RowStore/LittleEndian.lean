import RowStore.Text.Utf8

/-! # Little-endian numbers
A number as a fixed count of octets, the least significant first. Main statement: what is read writes back
(`write_read`). -/

namespace RowStore.LittleEndian

/-- The lowest `width` octets of a number, the least significant first. -/
def write : Nat → Nat → Bytes
  | 0, _ => []
  | width + 1, n => UInt8.ofNat n :: write width (n / 256)

/-- The number that octets spell, the least significant first. -/
def read : Bytes → Nat
  | [] => 0
  | b :: rest => b.toNat + 256 * read rest

@[simp] theorem length_write (width n : Nat) : (write width n).length = width := by
  induction width generalizing n with
  | zero => rfl
  | succ w ih => simp [write, ih]

theorem write_read (bytes : Bytes) : write bytes.length (read bytes) = bytes := by
  induction bytes with
  | nil => rfl
  | cons b rest ih =>
    have hb : b.toNat < 256 := b.toNat_lt
    have low : UInt8.ofNat (b.toNat + 256 * read rest) = b := by
      apply UInt8.toNat_inj.1
      rw [UInt8.toNat_ofNat']
      omega
    have high : (b.toNat + 256 * read rest) / 256 = read rest := by omega
    simp only [read, List.length_cons, write, low, high, ih]

end RowStore.LittleEndian
