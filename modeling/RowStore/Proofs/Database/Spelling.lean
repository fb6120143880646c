import Mathlib.Data.List.Forall2
import RowStore.Database.Load
import RowStore.Proofs.Page.Fields

/-! # What records spell
A record spells a row of values: each of its fields, as far as there are columns, is read as the column's
type tells (`Record.values_eq_ok`). Whether the row can be a tuple of the table is another question, which
the schema decides (`Record.tuple_eq`). Records are read up to the first that spells no row
(`leadingRows`), and there are no more of them than octets, but for one (`length_records_le`). What is
shown of loads holds for whatever records a stream yields (`Stream.Yields`); that these are the records of
its source (`Stream.yields_iff`) is only used where the source is read. -/

namespace RowStore.Csv

variable {text : String} {type : ColumnType} {v : Value} {line : Nat} {schema : Schema} {r : Record}
  {records rest : List Record} {row : List Value}

/-! ## Fields -/

/-- Whether a field spells a value of a type: a number stands in digits, perhaps among blanks, and a text
stands for itself. -/
inductive Spells (text : String) : ColumnType → Value → Prop
  | int {n : Int32} (digits : int32? (trimBlanks text) = some n) : Spells text .int (.int n)
  | text {width : Nat} : Spells text (.text width) (.text text)

theorem fieldValue_eq_ok : fieldValue line text type = .ok v ↔ Spells text type v := by
  cases type with
  | int =>
    rw [fieldValue]
    constructor
    · intro h
      split at h
      · next n digits => exact Except.ok.inj h ▸ .int digits
      · cases h
    · rintro ⟨digits⟩
      simp only [digits]
  | text width =>
    constructor
    · intro h
      exact Except.ok.inj h ▸ .text
    · rintro ⟨⟩
      rfl

/-- Fields behind the last column are not looked at. -/
theorem fieldValues_eq_ok {texts : List String} {types : List ColumnType} :
    fieldValues line texts types = .ok row ↔
      List.Forall₂ (fun field v => Spells field.1 field.2 v) (texts.zip types) row := by
  induction texts generalizing types row with
  | nil =>
    rw [fieldValues, List.zip_nil_left, List.forall₂_nil_left_iff]
    · exact ⟨fun h => (Except.ok.inj h).symm, fun h => h ▸ rfl⟩
    · rintro _ _ _ _ ⟨⟩
  | cons text texts ih =>
    cases types with
    | nil =>
      rw [fieldValues, List.zip_nil_right, List.forall₂_nil_left_iff]
      · exact ⟨fun h => (Except.ok.inj h).symm, fun h => h ▸ rfl⟩
      · rintro _ _ _ _ - ⟨⟩
    | cons type types =>
      rw [fieldValues, List.zip_cons_cons, List.forall₂_cons_left_iff]
      simp only [bind_eq_ok, fieldValue_eq_ok, ih]
      constructor
      · rintro ⟨v, first, others, later, eq⟩
        exact ⟨v, others, first, later, (Except.ok.inj eq).symm⟩
      · rintro ⟨v, others, first, later, rfl⟩
        exact ⟨v, first, others, later, rfl⟩

/-! ## Records -/

/-- The values that a record spells. -/
def Record.values (r : Record) (schema : Schema) : Except DatabaseError (List Value) :=
  match r.texts? with
  | none => .error .csv
  | some texts => fieldValues r.line texts schema.types

/-- A record spells what its fields spell, if all of them are texts. -/
theorem Record.values_eq_ok : r.values schema = .ok row ↔ ∃ texts, r.texts? = some texts ∧
    List.Forall₂ (fun field v => Spells field.1 field.2 v) (texts.zip schema.types) row := by
  rw [values]
  cases r.texts? with
  | none => simp
  | some texts => simp [fieldValues_eq_ok]

/-- The tuple of a record has the values that the record spells, if the table allows them. -/
theorem Record.tuple_eq (r : Record) (schema : Schema) : r.tuple schema =
    r.values schema >>= fun row => (Tuple.new schema row).mapError .record := by
  rw [tuple, values]
  cases r.texts? with
  | none => rfl
  | some texts =>
    refine congrArg (fieldValues r.line texts schema.types >>= ·) (funext fun row => ?_)
    cases Tuple.new schema row with
    | ok t => rfl
    | error e => rfl

/-- The rows that records spell, up to the first that spells none. -/
def leadingRows (schema : Schema) : List Record → List (List Value)
  | [] => []
  | r :: rest =>
    match r.values schema with
    | .ok row => row :: leadingRows schema rest
    | .error _ => []

theorem leadingRows_cons (h : r.values schema = .ok row) :
    leadingRows schema (r :: rest) = row :: leadingRows schema rest := by
  rw [leadingRows, h]

theorem leadingRows_cons_of_error {err : DatabaseError} (h : r.values schema = .error err) :
    leadingRows schema (r :: rest) = [] := by
  rw [leadingRows, h]

/-- Behind records that spell rows come the rows of the other records. -/
theorem drop_leadingRows {k : Nat}
    (spell : ∀ r ∈ records.take k, ∃ row, r.values schema = .ok row) :
    (leadingRows schema records).drop k = leadingRows schema (records.drop k) := by
  induction records generalizing k with
  | nil => simp [leadingRows]
  | cons first rest ih =>
    cases k with
    | zero => rfl
    | succ k =>
      obtain ⟨row, h⟩ := spell first (.head _)
      rw [leadingRows_cons h, List.drop_succ_cons, List.drop_succ_cons]
      exact ih fun r mem => spell r (.tail _ mem)

/-- Each row is spelt by the record in the same place. -/
theorem exists_spelling {k : Nat} (here : (leadingRows schema records)[k]? = some row) :
    ∃ r texts, records[k]? = some r ∧ r.texts? = some texts ∧
      List.Forall₂ (fun field v => Spells field.1 field.2 v) (texts.zip schema.types) row := by
  induction records generalizing k with
  | nil => simp [leadingRows] at here
  | cons first rest ih =>
    cases h : first.values schema with
    | error err => simp [leadingRows_cons_of_error h] at here
    | ok row' =>
      rw [leadingRows_cons h] at here
      cases k with
      | zero =>
        obtain rfl := Option.some.inj here
        obtain ⟨texts, whole, spells⟩ := Record.values_eq_ok.mp h
        exact ⟨first, texts, rfl, whole, spells⟩
      | succ k => exact ih here

/-! ## How many records there are -/

/-- Every octet ends one record at most, and so does the end of the text. -/
theorem length_readFrom_le (delimiter : UInt8) (reader : Reader) (bytes : Bytes) :
    (readFrom delimiter reader bytes).length ≤ bytes.length + 1 := by
  have single : ∀ r? : Option Record, r?.toList.length ≤ 1 := by
    rintro (_ | _) <;> simp
  induction bytes generalizing reader with
  | nil => exact single _
  | cons b bytes ih =>
    rw [readFrom, List.length_append, List.length_cons]
    have first := single (reader.next delimiter b).2
    have later := ih (reader.next delimiter b).1
    omega

theorem length_withoutMark_le (bytes : Bytes) : (withoutMark bytes).length ≤ bytes.length := by
  unfold withoutMark
  split
  · simp only [List.length_cons]
    omega
  · exact Nat.le_refl _

/-- A stream has no more records left than octets of its own and of its source, but for one. -/
theorem length_records_le (s : Stream) (source : Bytes) :
    (s.records source).length ≤ s.taken.length + source.length + 1 := by
  have octets : (if s.offset = 0 then withoutMark source else source.drop s.offset).length
      ≤ source.length := by
    split
    · exact length_withoutMark_le source
    · rw [List.length_drop]
      exact Nat.sub_le ..
  have records := length_readFrom_le s.delimiter s.reader (s.unread source)
  rw [Stream.unread, List.length_append] at records
  rw [Stream.records]
  exact Nat.le_trans records (by omega)

/-! ## Records that a stream yields -/

/-- Whether a stream yields these records one after another, and then no more, as long as its source stays
as it is. -/
inductive Stream.Yields (source : Bytes) : Stream → List Record → Prop
  | nil {s s' : Stream} (ends : s.next source = (s', none)) : Yields source s []
  | cons {s s' : Stream} {r : Record} {rest : List Record} (first : s.next source = (s', some r))
      (later : Yields source s' rest) : Yields source s (r :: rest)

/-- A stream yields the records that reading its source at once yields, and no others. -/
theorem Stream.yields_iff {s : Stream} {source : Bytes} {records : List Record} :
    s.Yields source records ↔ s.records source = records := by
  constructor
  · intro yields
    induction yields with
    | nil ends => exact next_eq_none ends
    | cons first _ ih => rw [next_eq_some first, ih]
  · intro left
    induction records generalizing s with
    | nil =>
      rcases read : s.next source with ⟨s', _ | r⟩
      · exact .nil read
      · cases left.symm.trans (next_eq_some read)
    | cons r rest ih =>
      rcases read : s.next source with ⟨s', _ | r'⟩
      · cases left.symm.trans (next_eq_none read)
      · obtain ⟨rfl, later⟩ := List.cons.inj (left.symm.trans (next_eq_some read))
        exact .cons read (ih later.symm)

end RowStore.Csv
