import RowStore.LittleEndian
import RowStore.Text.Utf8
import RowStore.RecordError

/-! # Stored values
A value takes exactly `ColumnType.size` octets. An integer is four octets, the least significant first.
A text is the number of its octets as four octets, the octets themselves, and zeros up to the width of
the column. Reading never fails on the right number of octets: a length beyond the width is cut, and
octets that are not UTF-8 are replaced. -/

namespace RowStore

namespace Value

/-- The octets that store a value in a column of a type. -/
def encode (v : Value) (t : ColumnType) : Except RecordError Bytes :=
  match v, t with
  | int n, .int => .ok (LittleEndian.write 4 n.toUInt32.toNat)
  | text s, .text width =>
    let octets := Utf8.encode s
    if octets.length ≤ width then
      .ok (LittleEndian.write 4 octets.length ++ octets
        ++ List.replicate (width - octets.length) 0)
    else .error (.textTooLong octets.length width)
  | v, t => .error (.typeMismatch t v)

/-- The value that octets store in a column of a type. -/
def read (t : ColumnType) (bytes : Bytes) : Value :=
  match t with
  | .int => int (UInt32.ofNat (LittleEndian.read bytes)).toInt32
  | .text width =>
    let length := min (LittleEndian.read (bytes.take ColumnType.lengthSize)) width
    text (Utf8.decodeLossy ((bytes.drop ColumnType.lengthSize).take length))

/-- Reads a value from exactly as many octets as its type takes. -/
def decode (t : ColumnType) (bytes : Bytes) : Except RecordError Value :=
  if bytes.length = t.size then .ok (read t bytes)
  else .error (.corruptPage t.size bytes.length)

/-- A stored value takes the size of its column. -/
theorem length_encode {v : Value} {t : ColumnType} {bytes : Bytes} (h : v.encode t = .ok bytes) :
    bytes.length = t.size := by
  cases v <;> cases t <;> simp only [encode, reduceCtorEq, Except.ok.injEq] at h
  · simp [← h, ColumnType.size]
  · split at h <;> simp only [reduceCtorEq, Except.ok.injEq] at h
    subst h
    simp only [List.length_append, LittleEndian.length_write, List.length_replicate,
      ColumnType.size, ColumnType.lengthSize]
    omega

end Value

end RowStore
