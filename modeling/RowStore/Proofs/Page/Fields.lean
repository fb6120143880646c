import Mathlib.Algebra.Group.Nat.Defs
import RowStore.Proofs.Text.Utf8
import RowStore.Tuple
import RowStore.Value.TypeName

/-! # Records read back
A stored record is its values one after another, and each value takes as many octets as its column is
wide. So a record is read as it was written, if it has a value for each column and the columns are not so
wide that the length of a text would not fit its four octets. Main statement: `values_read_of_encode`. -/

namespace RowStore

/-- Results can be compared. -/
instance decEqExcept {ε α : Type} [DecidableEq ε] [DecidableEq α] : DecidableEq (Except ε α)
  | .ok a, .ok b => decidable_of_iff (a = b) ⟨congrArg Except.ok, Except.ok.inj⟩
  | .error a, .error b => decidable_of_iff (a = b) ⟨congrArg Except.error, Except.error.inj⟩
  | .ok _, .error _ | .error _, .ok _ => isFalse nofun

/-- A computation in two steps yields something if both do. -/
theorem bind_eq_ok {ε α β : Type} {x : Except ε α} {f : α → Except ε β} {b : β} :
    x >>= f = .ok b ↔ ∃ a, x = .ok a ∧ f a = .ok b := by
  cases x <;> simp [bind, Except.bind]

theorem exists_of_map_eq_ok {ε α β : Type} {x : Except ε α} {f : α → β} {b : β}
    (h : f <$> x = .ok b) : ∃ a, x = .ok a ∧ f a = b := by
  cases x with
  | ok a => exact ⟨a, rfl, Except.ok.inj h⟩
  | error err => exact nomatch h

/-- What a computation with a state does in two steps. -/
theorem run_bind {σ ε α β : Type} (x : ExceptT ε (StateM σ) α) (g : α → ExceptT ε (StateM σ) β)
    (s : σ) : (x >>= g).run.run s = match x.run.run s with
      | (.ok a, s) => (g a).run.run s
      | (.error err, s) => (.error err, s) := by
  show (match x.run.run s with | (r, s) => (ExceptT.bindCont g r).run s) = _
  rcases x.run.run s with ⟨_ | _, _⟩ <;> rfl

theorem run_get {σ ε : Type} (s : σ) : (get : ExceptT ε (StateM σ) σ).run.run s = (.ok s, s) := rfl

/-- A number is read as it was written, if it fits. -/
theorem LittleEndian.read_write (width n : Nat) : read (write width n) = n % 256 ^ width := by
  induction width generalizing n with
  | zero => simp [write, read, Nat.mod_one]
  | succ w ih =>
    simp only [write, read, ih, UInt8.toNat_ofNat', Nat.reducePow]
    rw [Nat.pow_succ', Nat.mod_mul]

/-- Whether four octets can store the length of every text of the type. -/
def ColumnType.Storable : ColumnType → Prop
  | .int => True
  | .text width => width ≤ maxWidth

/-- Whether all columns can be stored. -/
def Schema.Storable (s : Schema) : Prop :=
  ∀ t ∈ s.types, t.Storable

/-- A value is read as it was written. -/
theorem Value.read_of_encode {v : Value} {t : ColumnType} {bytes : Bytes} (storable : t.Storable)
    (h : v.encode t = .ok bytes) : Value.read t bytes = v := by
  cases v with
  | int n =>
    cases t with
    | int =>
      obtain rfl := Except.ok.inj h
      have small : n.toUInt32.toNat < 256 ^ 4 := n.toUInt32.toNat_lt
      rw [Value.read, LittleEndian.read_write, Nat.mod_eq_of_lt small]
      simp
    | text width => simp [Value.encode] at h
  | text s =>
    cases t with
    | int => simp [Value.encode] at h
    | text width =>
      simp only [Value.encode] at h
      split at h
      · next fits =>
        obtain rfl := Except.ok.inj h
        have short : (Utf8.encode s).length < 256 ^ 4 := by
          simp only [ColumnType.Storable, ColumnType.maxWidth, UInt32.size] at storable
          omega
        rw [Value.read, List.append_assoc, List.take_left' (by simp [ColumnType.lengthSize]),
          List.drop_left' (by simp [ColumnType.lengthSize]), LittleEndian.read_write,
          Nat.mod_eq_of_lt short, Nat.min_eq_left fits, List.take_left' rfl, Utf8.decodeLossy_encode]
      · cases h

/-- The octets of a record that has a value for each column are as many as its columns take. -/
theorem length_encodeFields {types : List ColumnType} {values : List Value} {bytes : Bytes}
    (complete : values.length = types.length) (h : encodeFields types values = .ok bytes) :
    bytes.length = ColumnType.totalSize types := by
  induction types generalizing values bytes with
  | nil =>
    obtain rfl := List.eq_nil_of_length_eq_zero complete
    obtain rfl := Except.ok.inj h
    rfl
  | cons t types ih =>
    obtain ⟨v, values, rfl⟩ := List.exists_cons_of_length_eq_add_one complete
    obtain ⟨first, hv, h⟩ := bind_eq_ok.mp h
    obtain ⟨others, hvs, h⟩ := bind_eq_ok.mp h
    obtain rfl := Except.ok.inj h
    simp [Value.length_encode hv, ih (by simpa using complete) hvs]

/-- The octets of a record that has a value for each column are read as the values that were written. -/
theorem readFields_of_encodeFields {types : List ColumnType} {values : List Value} {bytes : Bytes}
    (storable : ∀ t ∈ types, t.Storable) (complete : values.length = types.length)
    (h : encodeFields types values = .ok bytes) : readFields types bytes = values := by
  induction types generalizing values bytes with
  | nil =>
    obtain rfl := List.eq_nil_of_length_eq_zero complete
    rfl
  | cons t types ih =>
    obtain ⟨v, values, rfl⟩ := List.exists_cons_of_length_eq_add_one complete
    obtain ⟨first, hv, h⟩ := bind_eq_ok.mp h
    obtain ⟨others, hvs, h⟩ := bind_eq_ok.mp h
    obtain rfl := Except.ok.inj h
    have width := Value.length_encode hv
    rw [readFields, List.take_left' width, List.drop_left' width,
      ih (fun u hu => storable u (.tail _ hu)) (by simpa using complete) hvs,
      Value.read_of_encode (storable t (.head _)) hv]

/-- Which values a record may have is a matter of the types of its columns. -/
theorem Schema.validate_congr {s s' : Schema} (types : s.types = s'.types) (values : List Value) :
    s.validate values = s'.validate values := by
  have size : s.size = s'.size := by
    simpa [Schema.types, Schema.size] using congrArg List.length types
  rw [validate, validate, types, size]

/-- Whether a record has the columns of a schema, and a value for each. -/
def Tuple.Fills (t : Tuple) (s : Schema) : Prop :=
  t.schema.types = s.types ∧ t.values.length = s.size

namespace Tuple

variable {t : Tuple} {s : Schema} {bytes : Bytes}

/-- A record that is made for a schema has its columns, and values that they allow. -/
theorem spec_of_new {values : List Value} (h : new s values = .ok t) :
    t.schema = s ∧ t.values.length = s.size ∧ s.validate t.values = .ok () := by
  obtain ⟨_, valid, h⟩ := bind_eq_ok.mp h
  obtain rfl := Except.ok.inj h
  refine ⟨rfl, ?_, valid⟩
  rw [Schema.validate] at valid
  split at valid
  · next complete => exact complete
  · cases valid

/-- A complete record has as many values as its columns are. -/
theorem Fills.complete (fills : t.Fills s) : t.values.length = s.types.length := by
  simp [fills.2, Schema.size, Schema.types]

theorem length_of_encode (fills : t.Fills s) (h : t.encode = .ok bytes) :
    bytes.length = s.recordSize := by
  rw [encode, fills.1] at h
  exact length_encodeFields fills.complete h

/-- A record is read as it was written. -/
theorem values_read_of_encode (storable : s.Storable) (fills : t.Fills s)
    (h : t.encode = .ok bytes) : (read s bytes).values = t.values := by
  rw [encode, fills.1] at h
  exact readFields_of_encodeFields storable fills.complete h

/-- What is read is complete. -/
theorem fills_read (s : Schema) (bytes : Bytes) : (read s bytes).Fills s :=
  ⟨rfl, by simp [read, Schema.size, Schema.types]⟩

end Tuple

end RowStore
