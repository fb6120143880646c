import Mathlib.Data.List.Sort
import RowStore.Proofs.Traffic.Filling

/-! # How much one transaction can write
A transaction inserts records one after another into a table without rows (`Engine.insertAll`), and the
first of them, as many as fit into as many pages as fit into memory, fill the table; all others are
refused. Main statement: `Vacant.filled_to_capacity`, with what a commit and what an abort makes of
them. -/

namespace RowStore

/-! ## Rows in their places -/

/-- No record is stored before itself. -/
instance : Std.Irrefl fun a b : PlacedRow => a.1.Precedes b.1 :=
  ⟨fun a before => by simp [RecordId.Precedes] at before⟩

/-- Of two records of a table only one is stored before the other. -/
instance : Std.Antisymm fun a b : PlacedRow => a.1.Precedes b.1 :=
  ⟨fun a b before after => by
    simp only [RecordId.Precedes] at before after
    omega⟩

namespace HeapFile

variable {f : HeapFile} {first : Rows} {rows : List (List Value)} {values : List Value} {r : RecordId}
  {m n : Nat}

theorem pagesFor_mono (le : m ≤ n) : f.pagesFor m ≤ f.pagesFor n :=
  pagesFor_le_iff.mpr (Nat.le_trans le (pagesFor_le_iff.mp (Nat.le_refl _)))

/-- What is found after insertions has been inserted, or was there before. -/
theorem after_insertions_eq_some (h : first.after (f.insertions rows) r = some values) :
    values ∈ rows ∨ first r = some values := by
  induction rows using List.reverseRecOn with
  | nil => exact .inr h
  | append_singleton rows last ih =>
    rw [insertions_concat, Rows.after_append, Rows.after_singleton] at h
    split at h
    · exact .inl (Option.some.inj h ▸ List.mem_append_right _ (.head _))
    · exact (ih h).imp_left (List.mem_append_left _)

theorem precedes_place (lt : m < n) : (f.place m).Precedes (f.place n) := by
  have le := Nat.div_le_div_right (c := f.layout.slotCount) (Nat.le_of_lt lt)
  rcases Nat.eq_or_lt_of_le le with eq | before
  · refine .inr ⟨eq, ?_⟩
    have hm := Nat.div_add_mod' m f.layout.slotCount
    have hn := Nat.div_add_mod' n f.layout.slotCount
    rw [eq] at hm
    simp only [place]
    omega
  · exact .inl before

/-- Rows with the record ids of their places. -/
def placed (f : HeapFile) (rows : List (List Value)) : List PlacedRow :=
  rows.zipIdx.map fun (values, i) => (f.place i, values)

theorem getElem?_placed (f : HeapFile) (rows : List (List Value)) (i : Nat) :
    (f.placed rows)[i]? = rows[i]?.map (f.place i, ·) := by
  rw [placed, List.getElem?_map, List.getElem?_zipIdx, Option.map_map, Nat.zero_add]
  rfl

/-- They are in the order of their places. -/
theorem placed_ordered (f : HeapFile) (rows : List (List Value)) :
    (f.placed rows).Pairwise fun a b => a.1.Precedes b.1 := by
  have numbered : (rows.zipIdx.map Prod.snd).Pairwise (· < ·) := by
    rw [List.zipIdx_map_snd]
    exact List.pairwise_lt_range'
  exact (List.pairwise_map.mp numbered).map _ fun a b lt => precedes_place lt

end HeapFile

namespace Engine

variable {start e e' : Engine} {t : TxnId} {f : HeapFile} {rows : List (List Value)} {tuple : Tuple}
  {done tuples : List Tuple}

/-- A table with rows in its first places, and nowhere else, is listed in the order of the places. -/
theorem Coherent.listing_eq_placed (h : e.Coherent) (found : e.catalog.file? f.id = some f)
    (enough : f.pagesFor rows.length ≤ e.numPages f)
    (holds : ∀ n slot, slot < f.layout.slotCount →
      e.currentRow ⟨⟨f.id, n⟩, slot⟩ = rows[n * f.layout.slotCount + slot]?) :
    e.listing f = f.placed rows := by
  refine (listing_ordered e f).eq_of_mem_iff (f.placed_ordered rows) fun row => ?_
  obtain ⟨r, values⟩ := row
  simp only [HeapFile.placed, List.mem_map, List.mem_zipIdx_iff_getElem?, Prod.mk.injEq, Prod.exists]
  constructor
  · intro mem
    simp only [listing, rowsFrom, List.mem_flatMap, mem_rowsOn] at mem
    obtain ⟨n, -, at_page, inside, row⟩ := mem
    obtain ⟨_, slot⟩ := r
    obtain rfl := at_page
    rw [holds n slot inside] at row
    exact ⟨values, _, row, ((HeapFile.place_eq_iff inside).mpr rfl).symm, rfl⟩
  · rintro ⟨_, i, row, rfl, rfl⟩
    have pos := f.layout.slotCount_pos
    have lt : i < rows.length := (List.getElem?_eq_some_iff.mp row).1
    refine (h.mem_listing found).mpr ⟨rfl, ?_, ?_⟩
    · refine Nat.lt_of_lt_of_le (HeapFile.lt_pagesFor_iff.mpr ?_) enough
      exact Nat.lt_of_le_of_lt (Nat.div_mul_le_self ..) lt
    · rw [HeapFile.place, holds _ _ (Nat.mod_lt _ pos), Nat.div_add_mod', row]

/-! ## Many insertions -/

/-- Inserts records one after another for a transaction that is alone, and goes on when one is refused. -/
def insertAll (t : TxnId) (table : TableId) :
    Engine → List Tuple → Engine × List (Except FileError Reply)
  | e, [] => (e, [])
  | e, tuple :: tuples =>
    let (e, result) := e.call t (.insert table tuple)
    let (e, results) := insertAll t table e tuples
    (e, result :: results)

end Engine

/-- What comes of an insertion after `i` others, if there is room for so many rows. -/
def HeapFile.Answers (f : HeapFile) (room i : Nat) (result : Except FileError Reply) : Prop :=
  if i < room then ∃ ref, result = .ok (.inserted (f.place i) ref) else result = .error .poolFull

namespace Engine

variable {start e e' : Engine} {t : TxnId} {f : HeapFile} {rows : List (List Value)} {tuple : Tuple}
  {done tuples : List Tuple}

/-- Where a transaction stands that has tried to insert records into a table without rows. -/
structure Attempted (start : Engine) (t : TxnId) (f : HeapFile) (done : List Tuple) (e : Engine) :
    Prop where
  filling : Filling start t f ((done.take (start.rowsInMemory f)).map Tuple.values) e
  pages : e.numPages f
    = max (start.numPages f) (f.pagesFor (min done.length (start.rowsInMemory f + 1)))

theorem Vacant.attempted (v : start.Vacant t f) : Attempted start t f [] start where
  filling := by
    rw [List.take_nil]
    exact v.filling
  pages := by
    have none_needed : f.pagesFor 0 = 0 := Nat.le_zero.mp (HeapFile.pagesFor_le_iff.mpr (Nat.zero_le _))
    rw [List.length_nil, Nat.zero_min, none_needed, Nat.max_eq_left (Nat.zero_le _)]

namespace Attempted

variable (v : start.Vacant t f) (h : Attempted start t f done e)

include v h

/-- One more record is inserted if it is one of the first. -/
theorem exists_call (accepts : f.Accepts tuple) : ∃ e' result,
    e.call t (.insert f.id tuple) = (e', result) ∧ Attempted start t f (done ++ [tuple]) e' ∧
      f.Answers (start.rowsInMemory f) done.length result := by
  obtain ⟨e', result, called, ends, pages⟩ := h.filling.exists_call v accepts
  have count : ((done.take (start.rowsInMemory f)).map Tuple.values).length
      = min done.length (start.rowsInMemory f) := by
    rw [List.length_map, List.length_take, Nat.min_comm]
  have grown : e'.numPages f = max (start.numPages f)
      (f.pagesFor (min (done ++ [tuple]).length (start.rowsInMemory f + 1))) := by
    have fewer : f.pagesFor (min done.length (start.rowsInMemory f + 1))
        ≤ f.pagesFor (min done.length (start.rowsInMemory f) + 1) :=
      HeapFile.pagesFor_mono (by omega)
    rw [pages, h.pages, count, ← HeapFile.pagesFor_succ, Nat.max_assoc, Nat.max_eq_right fewer,
      List.length_append, List.length_singleton, Nat.add_min_add_right]
  cases ends with
  | @inserted ref room filling =>
    rw [count] at room
    have inside : done.length < start.rowsInMemory f := by omega
    have all : (done ++ [tuple]).take (start.rowsInMemory f) = done ++ [tuple] := by
      refine List.take_of_length_le ?_
      rw [List.length_append, List.length_singleton]
      exact inside
    rw [List.take_of_length_le (Nat.le_of_lt inside)] at filling
    refine ⟨e', _, called, ⟨?_, grown⟩, ?_⟩
    · rw [all, List.map_append]
      exact filling
    · rw [HeapFile.Answers, if_pos inside, count, Nat.min_eq_left (Nat.le_of_lt inside)]
      exact ⟨ref, rfl⟩
  | refused full filling =>
    rw [count] at full
    have past : start.rowsInMemory f ≤ done.length := by omega
    refine ⟨e', _, called, ⟨?_, grown⟩, ?_⟩
    · rwa [List.take_append_of_le_length past]
    · rw [HeapFile.Answers, if_neg (Nat.not_lt.mpr past)]

/-- Records that are inserted one after another are answered in turn. -/
theorem exists_insertAll (accepts : ∀ tuple ∈ tuples, f.Accepts tuple) : ∃ e' results,
    e.insertAll t f.id tuples = (e', results) ∧ Attempted start t f (done ++ tuples) e' ∧
      results.length = tuples.length ∧ ∀ i result, results[i]? = some result →
        f.Answers (start.rowsInMemory f) (done.length + i) result := by
  induction tuples generalizing e done with
  | nil => exact ⟨e, [], rfl, by rwa [List.append_nil], rfl, nofun⟩
  | cons tuple tuples ih =>
    obtain ⟨e₁, result, called, h₁, answer⟩ := h.exists_call v (accepts tuple (.head _))
    obtain ⟨e', results, ran, h', length, answers⟩ := ih h₁ fun u mem => accepts u (.tail _ mem)
    refine ⟨e', result :: results, ?_, ?_, by rw [List.length_cons, length, List.length_cons], ?_⟩
    · simp only [insertAll, called, ran]
    · rwa [List.append_cons]
    · intro i later here
      cases i with
      | zero => exact Option.some.inj here ▸ answer
      | succ i =>
        have answer := answers i later here
        rwa [List.length_append, List.length_singleton, Nat.add_assoc, Nat.add_comm 1 i] at answer

end Attempted

/-! ## The end of the transaction -/

namespace Filling

variable (v : start.Vacant t f) (h : Filling start t f rows e)

include v h

/-- Rows that fit their columns can be committed, and are on the disk then. -/
theorem exists_committed (fits : ∀ values ∈ rows, f.schema.validate values = .ok ()) :
    ∃ e', e.complete t true = (e', .ok ()) ∧ e'.storedRow = e.currentRow := by
  have valid : ∀ p, e.owner? p = some t → e.Fits p := by
    intro p owner g found slot values row
    obtain ⟨table, -⟩ := (h.owned p).mp (by rw [owner]; rfl)
    obtain rfl : g = f := Option.some.inj (found.symm.trans (table ▸ h.registered v))
    rw [h.current] at row
    refine fits values ((HeapFile.after_insertions_eq_some row).resolve_right fun old => ?_)
    have none_old := v.empty p.number slot
    rw [← table] at none_old
    cases old.symm.trans none_old
  have done := complete_eq_ok h.alone.sound valid
  rcases hc : e.complete t true with ⟨e', result⟩
  obtain rfl : result = .ok () := by rwa [hc] at done
  obtain ⟨written, torn?, completes, -, all, whole⟩ := completes_complete h.alone.sound hc
  obtain rfl := whole rfl
  refine ⟨e', rfl, funext fun r => ?_⟩
  rw [completes.stored r nofun]
  split
  · rfl
  · next unwritten =>
    -- what has not been written has not been changed
    have clean := (h.alone.owner?_cases r.page).resolve_right
      fun mine => unwritten (all rfl rfl r.page mine)
    exact (h.alone.sound.currentRow_of_owner? clean r.slot).symm

/-- When the transaction is aborted, nothing has been stored, and the table is empty for everybody. -/
theorem exists_aborted : ∃ e', e.complete t false = (e', .ok ()) ∧ e'.storedRow = start.storedRow ∧
    ∀ (u : TxnId) (scan : Scan), scan.cursor.file = f → (e'.tuplesOf u scan).2 = .ok [] := by
  rcases hc : e.complete t false with ⟨e', result⟩
  obtain ⟨written, torn?, completes, aborted, -, whole⟩ := completes_complete h.alone.sound hc
  obtain ⟨rfl, rfl⟩ := aborted rfl
  obtain rfl := whole rfl
  obtain ⟨alone, clean⟩ := h.alone.complete false ∅
  rw [hc] at alone clean
  have stored : e'.storedRow = start.storedRow := by
    funext r
    rw [completes.stored r nofun, if_neg List.not_mem_nil, h.stored]
  refine ⟨e', rfl, stored, fun u scan file => ?_⟩
  have files : e.Extends e' := .of_lengths completes.catalog completes.lengths
  have found : e'.catalog.file? f.id = some f := files.catalog ▸ h.registered v
  have readable := (alone u).readable found (files.whole (h.registered v) (h.whole v)) clean
  have nothing : e'.listing f = [] := by
    rw [List.eq_nil_iff_forall_not_mem]
    rintro ⟨r, values⟩ mem
    obtain ⟨table, -, row⟩ := ((alone u).sound.mem_listing found).mp mem
    rw [(alone u).sound.currentRow_of_owner? (clean r.page), stored] at row
    have none_there := v.empty r.page.number r.slot
    rw [← table] at none_there
    cases row.symm.trans none_there
  obtain ⟨e'', tuples, taken, -, rows⟩ := exists_tuplesOf readable file (by simp [nothing])
  rw [nothing] at rows
  rw [taken, List.map_eq_nil_iff.mp rows]

end Filling

/-- **How much one transaction can write.** Let a transaction be alone with a table without rows, while
nobody has unwritten changes, and let it insert valid records one after another. The first of them, as
many as fit into the pages that fit into memory, are inserted, the `i`-th in the `i`-th place, and all
others are refused for want of room. What is changed is what the first ones have put there; the file grows
by the pages that they take, and by one page at most when one is refused. A commit then stores just these
rows, and after an abort the table is empty. -/
theorem Vacant.filled_to_capacity (v : e.Vacant t f) (accepts : ∀ tuple ∈ tuples, f.Accepts tuple) :
    ∃ e' results, e.insertAll t f.id tuples = (e', results) ∧ results.length = tuples.length ∧
      (∀ i result, results[i]? = some result → f.Answers (e.rowsInMemory f) i result) ∧
      e'.currentRow = Rows.after e.storedRow
        (f.insertions ((tuples.take (e.rowsInMemory f)).map Tuple.values)) ∧
      e'.storedRow = e.storedRow ∧
      e'.numPages f = max (e.numPages f)
        (if tuples.length ≤ e.rowsInMemory f then f.pagesFor tuples.length else e.pool.capacity + 1) ∧
      (∃ committed, e'.complete t true = (committed, .ok ()) ∧
        committed.storedRow = e'.currentRow) ∧
      ∃ aborted, e'.complete t false = (aborted, .ok ()) ∧ aborted.storedRow = e.storedRow ∧
        ∀ (u : TxnId) (scan : Scan), scan.cursor.file = f → (aborted.tuplesOf u scan).2 = .ok [] := by
  obtain ⟨e', results, ran, h, length, answers⟩ := v.attempted.exists_insertAll v accepts
  simp only [List.nil_append, List.length_nil, Nat.zero_add] at h answers
  have fits : ∀ values ∈ (tuples.take (e.rowsInMemory f)).map Tuple.values,
      f.schema.validate values = .ok () := by
    intro values mem
    obtain ⟨tuple, taken, rfl⟩ := List.mem_map.mp mem
    exact (accepts tuple (List.mem_of_mem_take taken)).fits
  refine ⟨e', results, ran, length, answers, h.filling.current, h.filling.stored, ?_,
    h.filling.exists_committed v fits, h.filling.exists_aborted v⟩
  rw [h.pages]
  split
  · next few => rw [Nat.min_eq_left (Nat.le_succ_of_le few)]
  · next many =>
    rw [Nat.min_eq_right (Nat.succ_le_of_lt (Nat.not_le.mp many)), HeapFile.pagesFor_succ, rowsInMemory,
      Nat.mul_div_cancel _ f.layout.slotCount_pos]

/-- Two records fit a page of `Engine.sample`, and one page fits memory. So of three records the last one
is refused, and the file has got a page without rows for it. -/
theorem filled_to_capacity_sample : ∃ e' results,
    sample.insertAll ⟨1⟩ numbers.id [numberRecord 7, numberRecord 8, numberRecord 9]
      = (e', results) ∧
    (∃ ref, results[1]? = some (.ok (.inserted ⟨⟨.file ["t"], 0⟩, 1⟩ ref))) ∧
    results[2]? = some (.error .poolFull) ∧ e'.numPages numbers = 2 ∧
    ∃ committed, e'.complete ⟨1⟩ true = (committed, .ok ()) ∧
      committed.storedRow ⟨⟨.file ["t"], 0⟩, 1⟩ = some [.int 8] ∧
      committed.storedRow ⟨⟨.file ["t"], 1⟩, 0⟩ = none := by
  have v : sample.Vacant ⟨1⟩ numbers :=
    (fresh_sample.alone ⟨1⟩).vacant rfl fresh_sample.owner?_eq_none rfl
  have accepts : ∀ tuple ∈ [numberRecord 7, numberRecord 8, numberRecord 9],
      numbers.Accepts tuple := by
    intro tuple mem
    obtain rfl | rfl | rfl : tuple = numberRecord 7 ∨ tuple = numberRecord 8 ∨
        tuple = numberRecord 9 := by simpa using mem
    all_goals exact ⟨rfl, rfl⟩
  obtain ⟨e', results, ran, length, answers, current, -, pages, ⟨committed, commit, stored⟩, -⟩ :=
    v.filled_to_capacity accepts
  refine ⟨e', results, ran, ?_, ?_, pages, committed, commit, ?_, ?_⟩
  · obtain ⟨result, here⟩ : ∃ result, results[1]? = some result :=
      ⟨_, List.getElem?_eq_getElem (by rw [length]; decide)⟩
    obtain ⟨ref, rfl⟩ := answers 1 result here
    exact ⟨ref, here⟩
  · obtain ⟨result, here⟩ : ∃ result, results[2]? = some result :=
      ⟨_, List.getElem?_eq_getElem (by rw [length]; decide)⟩
    obtain rfl : result = .error .poolFull := answers 2 result here
    exact here
  · rw [stored, current]
    rfl
  · rw [stored, current]
    rfl

end Engine

namespace Traffic

/-- In any run a table without octets is such a table for a transaction if the others hold no locks, and
nobody has unwritten changes. -/
theorem vacant_of_run {e : Engine} (fresh : e.Fresh) {es : List TrafficEvent} {s : Traffic}
    (h : (quiet e).run es = some s) {t : TxnId} {f : HeapFile}
    (others : ∀ u ≠ t, ∀ p mode, s.engine.locks.holds u p mode = false)
    (clean : ∀ p, s.engine.owner? p = none) (found : s.engine.catalog.file? f.id = some f)
    (nothing : s.engine.octets f = []) : s.engine.Vacant t f :=
  (alone_of_run fresh h others).vacant found clean nothing

end Traffic

end RowStore
