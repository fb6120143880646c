import RowStore.Csv

/-! # Streams of records
Records read one at a time from a source that may change between two of them. A stream takes octets from
its source in chunks, and takes the next chunk only when a record needs it, so it sees a change of what it
has not taken yet. Main statement: as long as the source stays as it is, a stream yields the records that
reading the source at once yields (`next_eq_some`, `next_eq_none`). -/

namespace RowStore.Csv

/-- A reader with what it has taken from its source. -/
structure Stream where
  delimiter : UInt8
  reader : Reader := {}
  /-- The octets that are taken and not read. -/
  taken : Bytes := []
  /-- The number of octets that have been taken. -/
  offset : Nat := 0

namespace Stream

/-- The most octets that are taken at once. -/
def chunkSize : Nat := 8192

/-- Takes a chunk of the source. A byte order mark at its start is left out. -/
def refill (source : Bytes) (s : Stream) : Stream :=
  let chunk := (source.drop s.offset).take chunkSize
  { s with
    taken := if s.offset = 0 then withoutMark chunk else chunk
    offset := s.offset + chunk.length }

theorem offset_lt_refill {source : Bytes} {s : Stream} (h : s.offset < source.length) :
    s.offset < (s.refill source).offset := by
  simp only [refill, chunkSize, List.length_take, List.length_drop]
  omega

/-- The next record, if there is one, and the stream after it. -/
def next (source : Bytes) (s : Stream) : Stream × Option Record :=
  match s.reader.run s.delimiter s.taken with
  | (reader, taken, some record) => ({ s with reader, taken }, some record)
  | (reader, _, none) =>
    if s.offset < source.length then next source ({ s with reader, taken := [] }.refill source)
    else ({ s with reader := reader.finished, taken := [] }, reader.last?)
termination_by source.length - s.offset
decreasing_by
  have := @offset_lt_refill source { s with reader, taken := [] } (by assumption)
  simp only at this
  omega

/-! ## The records of a source that stays as it is -/

/-- The octets that are not read yet. -/
def unread (source : Bytes) (s : Stream) : Bytes :=
  s.taken ++ if s.offset = 0 then withoutMark source else source.drop s.offset

/-- The records that are not read yet. -/
def records (source : Bytes) (s : Stream) : List Record :=
  readFrom s.delimiter s.reader (s.unread source)

/-- A new stream has all records before it. -/
theorem records_new (delimiter : UInt8) (source : Bytes) :
    Stream.records source { delimiter } = read delimiter source := rfl

theorem withoutMark_cons (x y z : UInt8) (rest : Bytes) :
    withoutMark (x :: y :: z :: rest)
      = if x = 0xEF ∧ y = 0xBB ∧ z = 0xBF then rest else x :: y :: z :: rest := by
  by_cases h : x = 0xEF ∧ y = 0xBB ∧ z = 0xBF
  · obtain ⟨rfl, rfl, rfl⟩ := h
    rfl
  · rw [if_neg h, withoutMark]
    simp only [List.cons.injEq]
    rintro _ ⟨rfl, rfl, rfl, -⟩
    exact h ⟨rfl, rfl, rfl⟩

theorem withoutMark_append {a : Bytes} (h : 3 ≤ a.length) (b : Bytes) :
    withoutMark (a ++ b) = withoutMark a ++ b := by
  match a, h with
  | x :: y :: z :: rest, _ =>
    simp only [List.cons_append, withoutMark_cons]
    split <;> rfl

/-- Taking a chunk leaves the octets that are not read as they are. -/
theorem unread_refill {source : Bytes} {s : Stream} (taken : s.taken = [])
    (h : s.offset < source.length) : (s.refill source).unread source = s.unread source := by
  have pos : (s.refill source).offset ≠ 0 := by
    have := offset_lt_refill h
    omega
  rw [unread, if_neg pos]
  by_cases start : s.offset = 0
  · simp only [refill, unread, start, taken, if_pos, List.drop_zero, List.nil_append, Nat.zero_add,
      List.length_take]
    by_cases short : source.length ≤ chunkSize
    · simp [List.take_of_length_le short, Nat.min_eq_right short]
    · have long : chunkSize ≤ source.length := by omega
      rw [Nat.min_eq_left long,
        ← withoutMark_append (by simp only [List.length_take, chunkSize] at long ⊢; omega),
        List.take_append_drop]
  · simp only [refill, unread, start, taken, if_false, List.nil_append, List.length_take,
      List.length_drop]
    rw [← List.drop_drop, ← List.take_append_drop chunkSize (source.drop s.offset)]
    by_cases short : source.length - s.offset ≤ chunkSize
    · rw [Nat.min_eq_right short]
      simp [List.take_of_length_le, List.drop_of_length_le, short]
    · rw [Nat.min_eq_left (by omega)]
      simp

/-- Taking a chunk leaves the records that are not read as they are. -/
theorem records_refill {source : Bytes} {s : Stream} (taken : s.taken = [])
    (h : s.offset < source.length) : (s.refill source).records source = s.records source := by
  rw [records, unread_refill taken h]
  rfl

/-- Reading the octets that are taken, none of which ends a record, leaves the records that are not read
as they are. -/
theorem records_of_run_none {source : Bytes} {s : Stream} {reader : Reader} {rest : Bytes}
    (ran : s.reader.run s.delimiter s.taken = (reader, rest, none)) :
    s.records source = ({ s with reader, taken := [] } : Stream).records source :=
  readFrom_of_run_none ran _

/-- At the end of the source the last record is the only one left. -/
theorem records_end {source : Bytes} {s : Stream} (taken : s.taken = [])
    (h : ¬ s.offset < source.length) : s.records source = s.reader.last?.toList := by
  have none : s.unread source = [] := by
    simp only [unread, taken, List.nil_append]
    split
    · next start =>
      have : source = [] := List.length_eq_zero_iff.1 (by omega)
      simp [this, withoutMark]
    · exact List.drop_eq_nil_of_le (by omega)
  rw [records, none, readFrom]

/-- A record that a stream yields is the first of those that were not read. -/
theorem next_eq_some {source : Bytes} {s s' : Stream} {r : Record}
    (h : s.next source = (s', some r)) : s.records source = r :: s'.records source := by
  fun_induction next source s with
  | case1 s reader taken record ran =>
    simp only [Prod.mk.injEq, Option.some.injEq] at h
    obtain ⟨rfl, rfl⟩ := h
    exact readFrom_of_run_some ran _
  | case2 s reader taken ran more ih =>
    rw [records_of_run_none ran,
      ← records_refill (s := { s with reader, taken := [] }) rfl more, ih h]
  | case3 s reader taken ran more =>
    simp only [Prod.mk.injEq] at h
    obtain ⟨rfl, last⟩ := h
    rw [records_of_run_none ran, records_end (s := { s with reader, taken := [] }) rfl more,
      records_end (s := { s with reader := reader.finished, taken := [] }) rfl more, last]
    rfl

/-- A stream that yields no record has none left. -/
theorem next_eq_none {source : Bytes} {s s' : Stream} (h : s.next source = (s', none)) :
    s.records source = [] := by
  fun_induction next source s with
  | case1 => simp at h
  | case2 s reader taken ran more ih =>
    rw [records_of_run_none ran,
      ← records_refill (s := { s with reader, taken := [] }) rfl more, ih h]
  | case3 s reader taken ran more =>
    simp only [Prod.mk.injEq] at h
    rw [records_of_run_none ran, records_end (s := { s with reader, taken := [] }) rfl more, h.2]
    rfl

end Stream

end RowStore.Csv
