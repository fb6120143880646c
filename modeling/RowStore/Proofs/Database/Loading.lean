import RowStore.Database.Load
import RowStore.Proofs.Traffic.Threshold

/-! # Loading records
A load into a table without rows fills it with the tuples that the records spell, one after another, and
ends at the first record that spells none, or whose tuple finds no room (`Filling.exists_loadRecords`).
When it is committed, whoever opens the file finds the tuples in their order (`Filling.exists_listed`). -/

namespace RowStore

variable {f : HeapFile} {tuple : Tuple}

/-- A record of a file spells tuples that can be inserted into the table. -/
theorem Csv.Record.accepts_of_tuple {r : Record} (h : r.tuple f.schema = .ok tuple) :
    f.Accepts tuple := by
  rw [Record.tuple] at h
  split at h
  · cases h
  · obtain ⟨values, -, h⟩ := bind_eq_ok.mp h
    split at h
    · next new =>
      obtain rfl := Except.ok.inj h
      obtain ⟨columns, -, fits⟩ := Tuple.spec_of_new new
      exact ⟨congrArg Schema.types columns, fits⟩
    · cases h

namespace Engine

variable {start e e' : Engine} {t : TxnId} {rows : List (List Value)}

/-- Records spell tuples, each of which is the row in the next place. -/
theorem Filling.exists_loadRecords (v : start.Vacant t f) (h : Filling start t f rows e)
    (records : List Csv.Record) :
    ∃ e' result, ∃ tuples : List Tuple, loadRecords t f.id f.schema e records = (e', result) ∧
      Filling start t f (rows ++ tuples.map Tuple.values) e' ∧ ∀ n, result = .ok n →
        n = records.length ∧ records.map (·.tuple f.schema) = tuples.map .ok := by
  induction records generalizing e rows with
  | nil =>
    refine ⟨e, .ok 0, [], rfl, by rwa [List.map_nil, List.append_nil], fun n eq => ?_⟩
    exact ⟨(Except.ok.inj eq).symm, rfl⟩
  | cons r rest ih =>
    rw [loadRecords]
    cases spelt : r.tuple f.schema with
    | error err => exact ⟨e, _, [], rfl, by rwa [List.map_nil, List.append_nil], nofun⟩
    | ok tuple =>
      obtain ⟨e₁, result, called, ends, -⟩ := h.exists_call v (Csv.Record.accepts_of_tuple spelt)
      cases ends with
      | refused full filling =>
        refine ⟨e₁, .error (.file .poolFull), [], ?_, by rwa [List.map_nil, List.append_nil], nofun⟩
        simp only [called]
      | @inserted ref room filling =>
        obtain ⟨e', count, tuples, ran, h', done⟩ := ih filling
        refine ⟨e', (· + 1) <$> count, tuple :: tuples, ?_, ?_, fun n eq => ?_⟩
        · simp only [called, ran]
        · rwa [List.append_assoc] at h'
        · obtain ⟨m, rfl, rfl⟩ := exists_of_map_eq_ok eq
          obtain ⟨rfl, spelt'⟩ := done m rfl
          exact ⟨rfl, by rw [List.map_cons, List.map_cons, spelt, spelt']⟩

/-- The records of a file that spell tuples are loaded into a table without rows, or the load fails. -/
theorem Vacant.exists_load (v : start.Vacant t f) (p : Path) (delimiter : UInt8) :
    ∃ e' result, ∃ tuples : List Tuple, start.load t f.id p delimiter = (e', result) ∧
      Filling start t f (tuples.map Tuple.values) e' ∧ ∀ n, result = .ok n → ∃ bytes,
        start.disk.read p = .ok bytes ∧ n = (Csv.read delimiter bytes).length ∧
          (Csv.read delimiter bytes).map (·.tuple f.schema) = tuples.map .ok := by
  have columns : start.schema f.id = .ok f.schema := by
    obtain ⟨entry, found, eq⟩ := Option.map_eq_some_iff.mp v.registered
    rw [schema, CatalogState.schema, CatalogState.entry, found, ← eq]
    rfl
  rw [load, columns]
  cases readable : start.disk.read p with
  | error err => exact ⟨start, _, [], rfl, v.filling, nofun⟩
  | ok bytes =>
    obtain ⟨e', result, tuples, ran, filling, done⟩ :=
      v.filling.exists_loadRecords v (Csv.read delimiter bytes)
    exact ⟨e', result, tuples, ran, filling, fun n eq => ⟨bytes, rfl, done n eq⟩⟩

namespace Filling

variable (v : start.Vacant t f) (h : Filling start t f rows e)

include v h

/-- What is not committed is not in the file. -/
theorem tuples_eq_nil {p : PageId} {page : Page} (read : f.readPage (e.octets f) p = .ok page) :
    page.tuples = [] := by
  obtain ⟨table, number⟩ := p
  obtain rfl : table = f.id := (HeapFile.readPage_eq_ok.mp read).1
  have stored : e.stored? ⟨f.id, number⟩ = some page :=
    stored?_eq_some.mpr ⟨f, h.registered v, read⟩
  rw [Page.tuples_eq, List.filterMap_eq_nil_iff]
  intro slot _
  have row := congrFun h.stored ⟨⟨f.id, number⟩, slot⟩
  rw [v.empty, storedRow, stored, Option.bind_some] at row
  exact Option.map_eq_none_iff.mp row

/-- A commit leaves a file in which everybody finds the rows in their places. -/
theorem exists_listed (fits : ∀ values ∈ rows, f.schema.validate values = .ok ()) :
    ∃ e', e.complete t true = (e', .ok ()) ∧
      start.disk.Rewrites e'.disk start.catalog.Places ∧
      ∀ new : Engine, new.Fresh → new.disk = e'.disk → new.catalog = start.catalog →
        ∀ u, new.Readable u f ∧ new.listing f = f.placed rows := by
  obtain ⟨e', done, stored⟩ := h.exists_committed v fits
  obtain ⟨written, torn?, completes, -⟩ := completes_complete h.alone.sound done
  have files := h.files.trans (.of_lengths completes.catalog completes.lengths)
  have wrote := rewrites_complete h.alone.sound.storable t true ∅
  rw [done, h.files.catalog] at wrote
  refine ⟨e', done, h.disk.trans wrote, fun new fresh disk catalog u => ?_⟩
  have found : new.catalog.file? f.id = some f := catalog ▸ v.registered
  have octets : new.octets f = e'.octets f := by rw [Engine.octets, Engine.octets, disk]
  have length := completes.lengths f.id f (h.registered v)
  have whole : new.Whole f := by
    have whole := files.whole v.registered v.whole
    rwa [Whole, ← octets] at whole
  refine ⟨(fresh.alone u).readable found whole fresh.owner?_eq_none, ?_⟩
  refine fresh.sound.listing_eq_placed found ?enough ?holds
  case enough =>
    rw [numPages_eq, octets, HeapFile.numPages, length]
    exact h.pagesFor_le_numPages v
  case holds =>
    intro n slot inside
    rw [fresh.sound.currentRow_of_owner? (fresh.owner?_eq_none _),
      storedRow_congr disk (catalog.trans files.catalog.symm), stored, h.currentRow_eq v inside]

end Filling

end Engine

end RowStore
