import RowStore.Proofs.Engine.Fetch

/-! # The rows of a table, in order
A table is listed page by page, and each page slot by slot (`listing`). What is listed is each row that
there is, once, in the order of the pages and slots (`mem_listing`, `listing_ordered`). The records that
a page yields are the rows that are listed for it (`rows_tuples`). -/

namespace RowStore

/-- The values that are stored at a record id. -/
abbrev PlacedRow := RecordId × List Value

/-- What a tuple tells of the row that it has been read from. -/
def Tuple.row (t : Tuple) : Option RecordId × List Value :=
  (t.id?, t.values)

/-- A row as a tuple tells it. -/
def PlacedRow.told (row : PlacedRow) : Option RecordId × List Value :=
  (some row.1, row.2)

/-- Whether a record is stored before another one of its table. -/
def RecordId.Precedes (r s : RecordId) : Prop :=
  r.page.number < s.page.number ∨ r.page.number = s.page.number ∧ r.slot < s.slot

/-! ## Pages -/

namespace Page

variable {p : Page}

/-- The rows of a page, in the order of the slots. -/
def placed (p : Page) : List PlacedRow :=
  (List.range p.slotCount).filterMap fun slot => (p.row? slot).map (⟨p.id, slot⟩, ·)

/-- A sound page yields its rows, in the order of the slots. -/
theorem Sound.rows_tuples (h : p.Sound) : p.tuples.map Tuple.row = p.placed.map PlacedRow.told := by
  rw [tuples_eq, placed, List.map_filterMap, List.map_filterMap]
  refine List.filterMap_congr fun slot _ => ?_
  rw [row?]
  cases here : p.tuple? slot with
  | none => rfl
  | some t =>
    obtain ⟨-, id⟩ := h.fills_of_tuple? here
    simp [Tuple.row, PlacedRow.told, id]

end Page

/-! ## Tables -/

namespace Engine

variable {e : Engine} {f : HeapFile} {n : Nat}

/-- The rows of a page of a file as they are fetched, in the order of the slots. -/
def rowsOn (e : Engine) (f : HeapFile) (n : Nat) : List PlacedRow :=
  (List.range f.layout.slotCount).filterMap fun slot =>
    (e.currentRow ⟨⟨f.id, n⟩, slot⟩).map (⟨⟨f.id, n⟩, slot⟩, ·)

/-- The rows of the pages of a file from one on. -/
def rowsFrom (e : Engine) (f : HeapFile) (n : Nat) : List PlacedRow :=
  (List.range' n (e.numPages f - n)).flatMap (e.rowsOn f)

/-- The rows of a table as they are fetched, in the order of the pages and their slots. -/
def listing (e : Engine) (f : HeapFile) : List PlacedRow :=
  e.rowsFrom f 0

theorem rowsFrom_of_lt (inside : n < e.numPages f) :
    e.rowsFrom f n = e.rowsOn f n ++ e.rowsFrom f (n + 1) := by
  have more : e.numPages f - n = (e.numPages f - (n + 1)) + 1 := by omega
  rw [rowsFrom, more, List.range'_succ, List.flatMap_cons, rowsFrom]

theorem rowsFrom_of_le (past : e.numPages f ≤ n) : e.rowsFrom f n = [] := by
  rw [rowsFrom, Nat.sub_eq_zero_of_le past]
  rfl

/-- The records of the page that is fetched are the rows that are listed for it. -/
theorem Coherent.rows_tuples (h : e.Coherent) (found : e.catalog.file? f.id = some f) {page : Page}
    (here : e.current? ⟨f.id, n⟩ = some page) :
    page.tuples.map Tuple.row = (e.rowsOn f n).map PlacedRow.told := by
  obtain ⟨id, sound, layout⟩ := h.spec_of_current? found here
  have same : e.rowsOn f n = page.placed := by
    simp only [rowsOn, Page.placed, Page.slotCount, layout, id, currentRow, here, Option.bind_some]
  rw [same, sound.rows_tuples]

theorem mem_rowsOn {r : RecordId} {values : List Value} : (r, values) ∈ e.rowsOn f n ↔
    r.page = ⟨f.id, n⟩ ∧ r.slot < f.layout.slotCount ∧ e.currentRow r = some values := by
  simp only [rowsOn, List.mem_filterMap, List.mem_range, Option.map_eq_some_iff, Prod.mk.injEq]
  constructor
  · rintro ⟨slot, inside, _, row, rfl, rfl⟩
    exact ⟨rfl, inside, row⟩
  · rintro ⟨at_page, inside, row⟩
    refine ⟨r.slot, inside, values, ?_⟩
    rw [← at_page]
    exact ⟨row, rfl, rfl⟩

/-- **What is listed**: the rows at all record ids in pages of the file. -/
theorem Coherent.mem_listing (h : e.Coherent) (found : e.catalog.file? f.id = some f) {r : RecordId}
    {values : List Value} : (r, values) ∈ e.listing f ↔
      r.page.table = f.id ∧ r.page.number < e.numPages f ∧ e.currentRow r = some values := by
  simp only [listing, rowsFrom, List.mem_flatMap, mem_rowsOn, List.mem_range'_1, Nat.zero_le,
    true_and, Nat.zero_add, Nat.sub_zero]
  constructor
  · rintro ⟨n, inside, at_page, -, row⟩
    rw [at_page]
    exact ⟨rfl, inside, row⟩
  · rintro ⟨table, inside, row⟩
    have at_page : r.page = ⟨f.id, r.page.number⟩ := by rw [← table]
    refine ⟨r.page.number, inside, at_page, ?_, row⟩
    -- where there is a row, there is a slot
    rw [currentRow, Option.bind_eq_some_iff] at row
    obtain ⟨page, here, row⟩ := row
    obtain ⟨-, -, layout⟩ := h.spec_of_current? (p := r.page) (table ▸ found) here
    rw [← layout]
    apply Classical.byContradiction
    intro outside
    have free : page.isUsed r.slot = false := by
      rw [Bool.eq_false_iff]
      exact fun used => outside (Page.isUsed_iff.mp used).1
    rw [Page.row?_of_not_isUsed free] at row
    cases row

theorem rowsOn_ordered : (e.rowsOn f n).Pairwise fun a b => a.1.Precedes b.1 := by
  refine List.Pairwise.filterMap _ ?_ List.pairwise_lt_range
  intro slot slot' lt a ha b hb
  simp only [Option.map_eq_some_iff] at ha hb
  obtain ⟨_, -, rfl⟩ := ha
  obtain ⟨_, -, rfl⟩ := hb
  exact .inr ⟨rfl, lt⟩

/-- The rows are listed in the order of their pages and slots, so none is listed twice. -/
theorem listing_ordered (e : Engine) (f : HeapFile) :
    (e.listing f).Pairwise fun a b => a.1.Precedes b.1 := by
  rw [listing, rowsFrom, List.pairwise_flatMap]
  refine ⟨fun n _ => rowsOn_ordered, ?_⟩
  refine List.Pairwise.imp ?_ List.pairwise_lt_range'
  rintro m n lt ⟨r, _⟩ hr ⟨s, _⟩ hs
  rw [mem_rowsOn] at hr hs
  left
  rw [hr.1, hs.1]
  exact lt

end Engine

end RowStore
