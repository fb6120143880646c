import RowStore.Engine.Call
import RowStore.Proofs.Scan.Reading

/-! # What a cursor yields
An open cursor has yet to yield the records that it holds and the rows of the pages that it has not
fetched (`CursorPosition.left`). To look for more records fetches pages until one has any, and changes
nothing of this (`run_advance`); to take a record takes the first of these rows
(`Scan.take_of_left`). -/

namespace RowStore

/-- The rows that an open cursor has yet to yield. -/
def CursorPosition.left (place : CursorPosition) (e : Engine) (f : HeapFile) :
    List (Option RecordId × List Value) :=
  place.buffered.map Tuple.row ++ (e.rowsFrom f place.nextPage).map PlacedRow.told

namespace Engine

variable {e e' : Engine} {t : TxnId} {f : HeapFile} {n : Nat} {start : CursorPosition}

/-- What is left is the same while the engine shows the same rows. -/
theorem Calm.left (h : e.Calm e' t f) (place : CursorPosition) : place.left e' f = place.left e f := by
  rw [CursorPosition.left, h.rowsFrom, CursorPosition.left]

/-- Behind the last page nothing is left but what the cursor holds. -/
theorem left_of_le (past : e.numPages f ≤ n) : (⟨n, []⟩ : CursorPosition).left e f = [] := by
  rw [CursorPosition.left, rowsFrom_of_le past]
  rfl

/-- The step that fetches a page for a cursor. -/
theorem step_turn (h : e.Readable t f) (inside : n < e.numPages f) :
    ∃ (e' : Engine) (next : CursorPosition), e.step t (.turn ⟨f, some ⟨n, []⟩⟩ n)
        = (e', .goesOn (.advance ⟨f, some next⟩)) ∧ next.nextPage = n + 1 ∧ e.Calm e' t f ∧
      next.left e' f = (⟨n, []⟩ : CursorPosition).left e f := by
  obtain ⟨e', ref, fetched⟩ := h.loads n inside
  obtain ⟨page, here, current, -⟩ := current?_of_fetched h.coherent fetched
  have calm := calm_getPage h fetched
  have rows := calm.readable.coherent.rows_tuples calm.readable.registered
    (current?_of_resident current)
  refine ⟨e', ⟨n + 1, page.tuples⟩, ?_, rfl, calm, ?_⟩
  · simp only [step, stepCursor, withPage, fetched, here]
  · simp only [CursorPosition.left, rows, calm.rowsOn, calm.rowsFrom, rowsFrom_of_lt inside,
      List.map_nil, List.nil_append, List.map_append]

/-- A search for records is over where the cursor holds some, and behind the last page. -/
theorem runSteps_advance_of_ended (fuel : Nat)
    (ended : start.buffered = [] → e.numPages f ≤ start.nextPage) :
    runSteps t (fuel + 1) e (.advance ⟨f, some start⟩) = (e, .over (.advance ⟨f, some start⟩)
        (.ok (.advanced ⟨f, some start⟩ (!(start.left e f).isEmpty)))) ∧
      (start.buffered = [] → start.left e f = []) := by
  obtain ⟨n, buffered⟩ := start
  cases buffered with
  | cons t ts => exact ⟨rfl, nofun⟩
  | nil =>
    have past : e.numPages f ≤ n := ended rfl
    have nothing := left_of_le past
    refine ⟨?_, fun _ => nothing⟩
    simp only [runSteps, step, checkCursor, if_neg (Nat.not_lt.mpr past), nothing]
    rfl

/-- A search for records goes on for as long as there are pages to fetch. -/
theorem runSteps_advance (pages : Nat) (h : e.Readable t f)
    (few : e.numPages f - start.nextPage ≤ pages) {fuel : Nat} (enough : 2 * pages + 1 ≤ fuel) :
    ∃ (e' : Engine) (reached : CursorPosition) (last : Call),
      runSteps t fuel e (.advance ⟨f, some start⟩)
        = (e', .over last (.ok (.advanced ⟨f, some reached⟩ (!(start.left e f).isEmpty)))) ∧
      e.Calm e' t f ∧ reached.left e' f = start.left e f ∧
      (reached.buffered = [] → start.left e f = []) := by
  induction pages generalizing e start fuel with
  | zero =>
    obtain ⟨fuel, rfl⟩ := Nat.exists_eq_add_of_le' enough
    have ended : start.buffered = [] → e.numPages f ≤ start.nextPage :=
      fun _ => Nat.le_of_sub_eq_zero (Nat.le_zero.mp few)
    obtain ⟨ran, ready⟩ := runSteps_advance_of_ended (t := t) fuel ended
    exact ⟨e, start, _, ran, h.calm, rfl, ready⟩
  | succ pages ih =>
    obtain ⟨fuel, rfl⟩ := Nat.exists_eq_add_of_le' (show 2 ≤ fuel by omega)
    by_cases ended : start.buffered = [] → e.numPages f ≤ start.nextPage
    · obtain ⟨ran, ready⟩ := runSteps_advance_of_ended (t := t) (fuel + 1) ended
      exact ⟨e, start, _, ran, h.calm, rfl, ready⟩
    · -- the next page is fetched, and the search goes on with its records
      obtain ⟨n, buffered⟩ := start
      obtain ⟨rfl, inside⟩ := Classical.not_imp.mp ended
      have inside : n < e.numPages f := Nat.not_le.mp inside
      obtain ⟨e₁, next, turned, behind, calm, left⟩ := step_turn h inside
      have few' : e₁.numPages f - next.nextPage ≤ pages := by
        rw [calm.numPages, behind, Nat.sub_succ]
        exact Nat.pred_le_pred few
      have enough' : 2 * pages + 1 ≤ fuel := by omega
      obtain ⟨e', reached, last, ran, calm', left', ready⟩ := ih calm.readable few' enough'
      rw [left] at ran left' ready
      refine ⟨e', reached, last, ?_, calm.trans calm', left', ready⟩
      have begun : e.step t (.advance ⟨f, some ⟨n, []⟩⟩)
          = (e, .goesOn (.turn ⟨f, some ⟨n, []⟩⟩ n)) := by
        simp only [step, checkCursor, if_pos inside]
      rw [runSteps, begun]
      dsimp only
      rw [runSteps, turned]
      exact ran

/-- **To look for records.** It always ends, tells whether any row is left, leaves the cursor with a
record if so, and changes neither what is left nor the rows of the table. -/
theorem run_advance (h : e.Readable t f) (start : CursorPosition) :
    ∃ (e' : Engine) (reached : CursorPosition) (last : Call),
      e.run t (.advance ⟨f, some start⟩)
        = (e', .over last (.ok (.advanced ⟨f, some reached⟩ (!(start.left e f).isEmpty)))) ∧
      e.Calm e' t f ∧ reached.left e' f = start.left e f ∧
      (reached.buffered = [] → start.left e f = []) :=
  runSteps_advance (e.numPages f) h (Nat.sub_le ..) (by simp only [stepBound]; omega)

end Engine

namespace Scan

variable {e : Engine} {s : Scan} {f : HeapFile} {place : CursorPosition}

/-- When no row is left, no record can be taken. -/
theorem take_of_left_eq_nil (file : s.cursor = ⟨f, some place⟩) (left : place.left e f = []) :
    s.take = (s, .error .noSuchElement) := by
  have nothing : place.buffered = [] := List.map_eq_nil_iff.mp (List.append_eq_nil_iff.mp left).1
  obtain ⟨n, buffered⟩ := place
  subst nothing
  rw [take, file]

/-- The record that is taken is the first of the rows that are left. -/
theorem take_of_left {row : Option RecordId × List Value}
    {rest : List (Option RecordId × List Value)} (file : s.cursor = ⟨f, some place⟩)
    (plain : s.view? = none) (left : place.left e f = row :: rest) (ready : place.buffered ≠ []) :
    ∃ t after, s.take = ({ s with cursor := ⟨f, some after⟩ }, .ok t) ∧ t.row = row ∧
      after.left e f = rest := by
  obtain ⟨n, buffered⟩ := place
  cases buffered with
  | nil => exact absurd rfl ready
  | cons t ts =>
    obtain ⟨first, others⟩ := List.cons.inj left
    refine ⟨t, ⟨n, ts⟩, ?_, first, others⟩
    rw [take, file]
    simp only [present, plain, moveTo, file]

end Scan

end RowStore
