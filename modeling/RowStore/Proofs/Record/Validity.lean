import Mathlib.Data.List.Forall2
import RowStore.Proofs.Page.Writing

/-! # Valid records
A record is valid if it has a value for each column and every value fits. These are just the records that
can be stored (`Schema.validate_iff`); they are read back as they were, so that records with the same
octets are equal. A tuple stays valid when its values are set in place, and an assignment that fails has
changed nothing (`Tuple.run_assign`). Main statement: `Schema.valid_exact`. -/

namespace RowStore

namespace Schema

variable {s : Schema} {values : List Value}

/-- A record with a value for each column passes the checks if every value fits its column. -/
theorem checkFields_iff {types : List ColumnType} (complete : values.length = types.length) :
    checkFields types values = .ok () ↔
      List.Forall₂ (fun t v => Value.fits v t = true) types values := by
  induction types generalizing values with
  | nil =>
    obtain rfl := List.eq_nil_of_length_eq_zero complete
    simp [checkFields]
  | cons t types ih =>
    obtain ⟨v, values, rfl⟩ := List.exists_cons_of_length_eq_add_one complete
    rw [List.forall₂_cons, ← ih (by simpa using complete), checkFields]
    split
    · next fits => simp [fits]
    · next misfit => simp [misfit]

theorem size_eq (s : Schema) : s.size = s.types.length := by
  simp [size, types]

/-- A record is valid if it has one value for each column, which fits. -/
theorem validate_iff_fits : s.validate values = .ok () ↔
    List.Forall₂ (fun t v => Value.fits v t = true) s.types values := by
  rw [validate, size_eq]
  split
  · next complete => exact checkFields_iff complete
  · next incomplete => exact iff_of_false (by simp) fun all => incomplete all.length_eq.symm

/-- A record is valid if it has one value for each column, which can be stored there. -/
theorem validate_iff : s.validate values = .ok () ↔
    List.Forall₂ (fun t v => ∃ bytes, Value.encode v t = .ok bytes) s.types values := by
  simp only [validate_iff_fits, Value.exists_encode_iff]

/-- A value may be replaced by one that fits its column. -/
theorem validate_set (valid : s.validate values = .ok ()) {i : Nat} {t : ColumnType} {v : Value}
    (column : s.types[i]? = some t) (fits : v.fits t = true) :
    s.validate (values.set i v) = .ok () := by
  rw [validate_iff_fits, List.forall₂_iff_get] at valid ⊢
  obtain ⟨complete, all⟩ := valid
  refine ⟨by simpa using complete, fun j inside inside' => ?_⟩
  rw [List.get_eq_getElem, List.getElem_set]
  split
  · next eq =>
    obtain ⟨_, rfl⟩ := List.getElem?_eq_some_iff.mp column
    subst eq
    exact fits
  · exact all j inside (by simpa using inside')

theorem fieldType_eq_ok {i : Nat} {type : ColumnType} :
    s.fieldType i = .ok type ↔ s.types[i]? = some type := by
  rw [fieldType, column, types, List.getElem?_map]
  cases s.columns[i]? with
  | none => simp [Functor.map, Except.map]
  | some c => simp [Functor.map, Except.map]

end Schema

namespace Tuple

variable {s : Schema} {values values' : List Value}

/-- A valid record can be stored: it takes as many octets as its columns, and is read as it was. -/
theorem exists_encode_of_validate (storable : s.Storable) (valid : s.validate values = .ok ()) :
    ∃ bytes, encode ⟨s, values, none⟩ = .ok bytes ∧ bytes.length = s.recordSize ∧
      decode s bytes = .ok ⟨s, values, none⟩ := by
  have fills : Fills ⟨s, values, none⟩ s :=
    ⟨rfl, (s.size_eq.trans (Schema.validate_iff.mp valid).length_eq).symm⟩
  obtain ⟨bytes, written⟩ := fills.exists_encode_iff.mpr valid
  have length := length_of_encode fills written
  have back : readFields s.types bytes = values := values_read_of_encode storable fills written
  exact ⟨bytes, written, length, by rw [decode, if_pos length, read, back]⟩

/-- Valid records that are stored in the same octets are equal. -/
theorem eq_of_encode_eq (storable : s.Storable) (valid : s.validate values = .ok ())
    (valid' : s.validate values' = .ok ())
    (same : encode ⟨s, values, none⟩ = encode ⟨s, values', none⟩) : values = values' := by
  obtain ⟨bytes, written, -, back⟩ := exists_encode_of_validate storable valid
  obtain ⟨bytes', written', -, back'⟩ := exists_encode_of_validate storable valid'
  obtain rfl : bytes = bytes' := Except.ok.inj (written.symm.trans (same.trans written'))
  exact congrArg Tuple.values (Except.ok.inj (back.symm.trans back'))

/-! ## Assignments -/

/-- Sets a value of a tuple in place. -/
def assign (i : Nat) (v : Value) : ExceptT RecordError (StateM Tuple) Unit := do
  let type ← (← get).schema.fieldType i
  if v.fits type then modify fun t => { t with values := t.values.set i v }
  else throw (.typeMismatch type v)

/-- The tuple after assignments one after another, some of which may have failed. -/
def assigned (t : Tuple) (assignments : List (Nat × Value)) : Tuple :=
  assignments.foldl (fun t a => ((assign a.1 a.2).run.run t).2) t

/-- What an assignment leads to. -/
structure Assigns (t : Tuple) (i : Nat) (v : Value) (result : Except RecordError Unit) (t' : Tuple) :
    Prop where
  /-- `set` makes the tuple that is left, or fails with the same error. -/
  set_eq : t.set i v = (fun _ => t') <$> result
  done_iff : result = .ok () ↔
    ∃ type bytes, t.schema.types[i]? = some type ∧ v.encode type = .ok bytes
  done : result = .ok () → t' = { t with values := t.values.set i v }
  failed : result ≠ .ok () → t' = t

variable {t t' : Tuple} {i : Nat} {v : Value} {result : Except RecordError Unit}

/-- The tuple is written only when all has been checked. -/
theorem run_assign (t : Tuple) (i : Nat) (v : Value) :
    (assign i v).run.run t = match t.schema.fieldType i with
      | .error e => (.error e, t)
      | .ok type =>
        if v.fits type then (.ok (), { t with values := t.values.set i v })
        else (.error (.typeMismatch type v), t) := by
  rw [assign, run_bind, run_get]
  dsimp only
  rw [run_bind]
  cases t.schema.fieldType i with
  | error e => rfl
  | ok type =>
    exact apply_ite (fun m : ExceptT RecordError (StateM Tuple) Unit => m.run.run t) _ _ _

theorem assigns (t : Tuple) (i : Nat) (v : Value) :
    t.Assigns i v ((assign i v).run.run t).1 ((assign i v).run.run t).2 := by
  rw [run_assign]
  cases column : t.schema.fieldType i with
  | error e =>
    have nowhere : ∀ type, t.schema.types[i]? ≠ some type := fun type found =>
      nomatch column.symm.trans (Schema.fieldType_eq_ok.mpr found)
    exact {
      set_eq := by rw [set, column]; rfl
      done_iff := iff_of_false nofun fun ⟨type, _, found, _⟩ => nowhere type found
      done := nofun
      failed := fun _ => rfl }
  | ok type =>
    have here : t.schema.types[i]? = some type := Schema.fieldType_eq_ok.mp column
    by_cases fits : v.fits type = true
    · obtain ⟨bytes, written⟩ := Value.exists_encode_iff.mpr fits
      simp only [if_pos fits]
      exact {
        set_eq := by rw [set, column]; exact if_pos fits
        done_iff := iff_of_true rfl ⟨type, bytes, here, written⟩
        done := fun _ => rfl
        failed := fun failed => absurd rfl failed }
    · have misfit : ∀ other bytes, t.schema.types[i]? = some other → v.encode other ≠ .ok bytes := by
        intro other bytes found written
        obtain rfl := Option.some.inj (here.symm.trans found)
        exact fits (Value.exists_encode_iff.mp ⟨bytes, written⟩)
      simp only [if_neg fits]
      exact {
        set_eq := by rw [set, column]; exact if_neg fits
        done_iff := iff_of_false nofun fun ⟨other, bytes, found, written⟩ =>
          misfit other bytes found written
        done := nofun
        failed := fun _ => rfl }

theorem Assigns.schema (h : t.Assigns i v result t') : t'.schema = t.schema := by
  by_cases done : result = .ok ()
  · rw [h.done done]
  · rw [h.failed done]

/-- An assignment keeps a record valid. -/
theorem Assigns.valid (h : t.Assigns i v result t') (valid : t.schema.validate t.values = .ok ()) :
    t'.schema.validate t'.values = .ok () := by
  by_cases done : result = .ok ()
  · obtain ⟨type, bytes, column, written⟩ := h.done_iff.mp done
    rw [h.done done]
    exact Schema.validate_set valid column (Value.exists_encode_iff.mp ⟨bytes, written⟩)
  · rw [h.failed done]
    exact valid

/-- Any assignments keep a record valid. -/
theorem valid_assigned (valid : t.schema.validate t.values = .ok ())
    (assignments : List (Nat × Value)) :
    (t.assigned assignments).schema = t.schema ∧
      t.schema.validate (t.assigned assignments).values = .ok () := by
  induction assignments generalizing t with
  | nil => exact ⟨rfl, valid⟩
  | cons a rest ih =>
    have first := t.assigns a.1 a.2
    have others := ih (first.valid valid)
    rw [first.schema] at others
    exact others

end Tuple

/-- **Valid records are those that can be stored.** A record is valid just if it has one value for each
column and each value can be stored in its column. Then it takes exactly the octets of its columns and is
read as it was, so that two valid records that are stored in the same octets are equal. A tuple that is
valid stays so through any assignments; an assignment succeeds just if the value can be stored in the
column, and it changes nothing otherwise. -/
theorem Schema.valid_exact (s : Schema) (storable : s.Storable) :
    (∀ values, s.validate values = .ok () ↔
      List.Forall₂ (fun t v => ∃ bytes, Value.encode v t = .ok bytes) s.types values) ∧
    (∀ values, s.validate values = .ok () → ∃ bytes, Tuple.encode ⟨s, values, none⟩ = .ok bytes ∧
      bytes.length = s.recordSize ∧ Tuple.decode s bytes = .ok ⟨s, values, none⟩) ∧
    (∀ values values', s.validate values = .ok () → s.validate values' = .ok () →
      Tuple.encode ⟨s, values, none⟩ = Tuple.encode ⟨s, values', none⟩ → values = values') ∧
    ∀ t : Tuple, t.schema = s → s.validate t.values = .ok () →
      (∀ i v, t.Assigns i v ((Tuple.assign i v).run.run t).1 ((Tuple.assign i v).run.run t).2) ∧
      ∀ assignments, (t.assigned assignments).schema = s ∧
        s.validate (t.assigned assignments).values = .ok () := by
  refine ⟨fun values => validate_iff, fun values => Tuple.exists_encode_of_validate storable,
    fun values values' => Tuple.eq_of_encode_eq storable, ?_⟩
  rintro t rfl valid
  exact ⟨t.assigns, Tuple.valid_assigned valid⟩

/-- Columns for a number and two texts. -/
def numberAndTexts : Schema := ⟨[⟨"n", .int⟩, ⟨"padded", .text 6⟩, ⟨"full", .text 5⟩]⟩

/-- A record whose first text holds a zero and ends with one, and whose second text, of letters that take
two octets and three, fills its column. -/
def zerosAndLetters : Tuple :=
  ⟨numberAndTexts, [.int (-42), .text "a\x00b\x00", .text "é€"], none⟩

/-- The record is read back from 23 octets. A text of six octets is refused for its last column, and a
number is taken for its first. -/
theorem Schema.valid_exact_zerosAndLetters :
    numberAndTexts.Storable ∧ numberAndTexts.validate zerosAndLetters.values = .ok () ∧
    (∃ bytes, zerosAndLetters.encode = .ok bytes ∧ bytes.length = 23 ∧
      Tuple.decode numberAndTexts bytes = .ok zerosAndLetters) ∧
    zerosAndLetters.assigned [(2, .text "€uro"), (0, .int 7)]
      = { zerosAndLetters with values := zerosAndLetters.values.set 0 (.int 7) } ∧
    numberAndTexts.validate (zerosAndLetters.values.set 0 (.int 7)) = .ok () := by
  have storable : numberAndTexts.Storable := by
    simp [Storable, numberAndTexts, types, ColumnType.Storable, ColumnType.maxWidth]
  have valid : numberAndTexts.validate zerosAndLetters.values = .ok () := by decide +kernel
  obtain ⟨-, stored, -, kept⟩ := valid_exact numberAndTexts storable
  have assigned : zerosAndLetters.assigned [(2, .text "€uro"), (0, .int 7)]
      = { zerosAndLetters with values := zerosAndLetters.values.set 0 (.int 7) } := by
    decide +kernel
  refine ⟨storable, valid, stored _ valid, assigned, ?_⟩
  have still := ((kept zerosAndLetters rfl valid).2 [(2, .text "€uro"), (0, .int 7)]).2
  rwa [assigned] at still

end RowStore
