import RowStore.Database
import RowStore.Proofs.Scan.Advance

/-! # All tuples of a scan
A transaction that is alone may take all tuples of a scan, page by page. If it can read the table, and
the columns under which the tuples are shown allow every row, it gets one tuple for each row, in the
order of the rows (`exists_tuplesOf`). -/

namespace RowStore

namespace Scan

/-- Whether the columns under which a scan shows the tuples allow these values. -/
def Shows (s : Scan) (values : List Value) : Prop :=
  ∀ v ∈ s.view?, v.schema.validate values = .ok ()

/-- A tuple that can be shown is shown with its values and its record id. -/
theorem exists_present {s : Scan} {t : Tuple} (shows : s.Shows t.values) :
    ∃ shown, s.present t = .ok shown ∧ shown.row = t.row := by
  obtain ⟨cursor, view?⟩ := s
  cases view? with
  | none => exact ⟨t, rfl, rfl⟩
  | some v =>
    have fits : v.schema.validate t.values = .ok () := shows v rfl
    simp only [present, Tuple.new, fits]
    exact ⟨_, rfl, rfl⟩

/-- All tuples that a cursor holds are taken if each of them can be shown. -/
theorem exists_takeFrom (s : Scan) (n : Nat) {buffered : List Tuple}
    (shows : ∀ t ∈ buffered, s.Shows t.values) :
    ∃ taken, s.takeFrom n buffered = (s.moveTo ⟨n, []⟩, .ok taken) ∧
      taken.map Tuple.row = buffered.map Tuple.row := by
  induction buffered with
  | nil => exact ⟨[], rfl, rfl⟩
  | cons t rest ih =>
    obtain ⟨shown, first, same⟩ := exists_present (shows t (.head _))
    obtain ⟨taken, others, rows⟩ := ih fun u mem => shows u (.tail _ mem)
    refine ⟨shown :: taken, ?_, by rw [List.map_cons, List.map_cons, same, rows]⟩
    simp only [takeFrom, first, others]
    rfl

end Scan

namespace Engine

variable {e : Engine} {t : TxnId} {f : HeapFile} {n m : Nat}

/-- From a later page on there are no more rows than from an earlier one. -/
theorem length_rowsFrom_le (later : m ≤ n) :
    (e.rowsFrom f n).length ≤ (e.rowsFrom f m).length := by
  induction later with
  | refl => exact Nat.le_refl _
  | @step n _ ih =>
    refine Nat.le_trans ?_ ih
    by_cases inside : n < e.numPages f
    · rw [rowsFrom_of_lt inside, List.length_append]
      exact Nat.le_add_left ..
    · rw [rowsFrom_of_le (Nat.le_succ_of_le (Nat.not_lt.mp inside))]
      exact Nat.zero_le _

/-- A cursor that holds tuples has fetched a page more than before, and there was one. -/
theorem lt_of_left {reached : CursorPosition} (holds : reached.buffered ≠ [])
    (left : reached.left e f = (⟨n, []⟩ : CursorPosition).left e f) :
    n < reached.nextPage ∧ n < e.numPages f := by
  have lengths := congrArg List.length left
  have some_held := List.length_pos_iff.mpr holds
  simp only [CursorPosition.left, List.length_append, List.length_map, List.length_nil] at lengths
  refine ⟨Nat.lt_of_not_le fun before => ?_, Nat.lt_of_not_le fun past => ?_⟩
  · have more := length_rowsFrom_le (e := e) (f := f) before
    omega
  · rw [rowsFrom_of_le past, List.length_nil] at lengths
    omega

/-- From a page on, all rows are taken. -/
theorem exists_drain (h : e.Readable t f) (view? : Option View) {bound : Nat}
    (enough : e.numPages f - n < bound) (taken : List Tuple)
    (shows : ∀ row ∈ (⟨n, []⟩ : CursorPosition).left e f,
      (⟨⟨f, some ⟨n, []⟩⟩, view?⟩ : Scan).Shows row.2) :
    ∃ e' tuples, e.drain t bound ⟨⟨f, some ⟨n, []⟩⟩, view?⟩ taken = (e', .ok (taken ++ tuples)) ∧
      e.Calm e' t f ∧ tuples.map Tuple.row = (⟨n, []⟩ : CursorPosition).left e f := by
  induction bound generalizing e n taken with
  | zero => exact absurd enough (Nat.not_lt_zero _)
  | succ bound ih =>
    obtain ⟨e₁, reached, last, ran, calm, left, ready⟩ := run_advance h ⟨n, []⟩
    have called : e.call t (.advance ⟨f, some ⟨n, []⟩⟩) = (e₁, .ok (.advanced ⟨f, some reached⟩
        (!((⟨n, []⟩ : CursorPosition).left e f).isEmpty))) := by
      rw [call, ran]
    by_cases nothing : (⟨n, []⟩ : CursorPosition).left e f = []
    · rw [nothing, List.isEmpty_nil] at called
      refine ⟨e₁, [], ?_, calm, nothing.symm⟩
      rw [List.append_nil, drain]
      simp only [called, Bool.not_true]
    · -- the tuples that the cursor holds are taken, and the rest is what it has yet to yield
      have some_left : (!((⟨n, []⟩ : CursorPosition).left e f).isEmpty) = true := by
        simp [nothing]
      rw [some_left] at called
      have holds : reached.buffered ≠ [] := fun empty => nothing (ready empty)
      obtain ⟨m, buffered⟩ := reached
      obtain ⟨further, inside⟩ : n < m ∧ n < e.numPages f :=
        lt_of_left holds ((calm.left ⟨m, buffered⟩).symm.trans left)
      rw [← left] at shows ⊢
      simp only [CursorPosition.left] at shows ⊢
      have held : ∀ t ∈ buffered, (⟨⟨f, some ⟨m, buffered⟩⟩, view?⟩ : Scan).Shows t.values :=
        fun t mem => shows t.row (List.mem_append_left _ (List.mem_map_of_mem mem))
      obtain ⟨shown, took, rows⟩ := Scan.exists_takeFrom _ m held
      have enough' : e₁.numPages f - m < bound := by
        rw [calm.numPages]
        omega
      obtain ⟨e', tuples, drained, calm', others⟩ := ih calm.readable enough' (taken ++ shown)
        fun row mem => shows row (List.mem_append_right _ mem)
      refine ⟨e', shown ++ tuples, ?_, calm.trans calm', by rw [List.map_append, rows, others]; rfl⟩
      rw [← List.append_assoc, ← drained, drain]
      simp only [called, Scan.takeAll, took]
      rfl

/-- **All tuples of a scan.** Whoever can read a table gets one tuple for each of its rows, in their
order, if the scan can show them. -/
theorem exists_tuplesOf (h : e.Readable t f) {scan : Scan} (file : scan.cursor.file = f)
    (shows : ∀ row ∈ e.listing f, scan.Shows row.2) :
    ∃ e' tuples, e.tuplesOf t scan = (e', .ok tuples) ∧ e.Calm e' t f ∧
      tuples.map Tuple.row = (e.listing f).map PlacedRow.told := by
  obtain ⟨⟨_, position?⟩, view?⟩ := scan
  subst file
  refine exists_drain h view? (n := 0) (Nat.lt_succ_of_le (Nat.sub_le ..)) [] ?_
  intro row mem
  obtain ⟨placed, listed, rfl⟩ := List.mem_map.mp mem
  exact shows placed listed

end Engine

end RowStore
