import RowStore.Proofs.Traffic.Sound

/-! # The disk is the committed history
Files only get longer, and a file of whole pages stays one (`extends_run`), so a page that is in a file can
be read at any later time. Main statement: `stored_eq_history`, what is read there is what the committed
transactions have made of the first rows, one transaction after another. -/

namespace RowStore

namespace Engine.Extends

variable {e e' : Engine} {f : HeapFile} {p : PageId} (h : e.Extends e')

include h

/-- A page that can be read can be read later. -/
theorem exists_readPage (read : ∃ page, e.readPage p = .ok page) :
    ∃ page, e'.readPage p = .ok page := by
  obtain ⟨page, read⟩ := read
  obtain ⟨f, found, here⟩ := stored?_eq_some.mp (toOption_eq_some.mpr read)
  obtain ⟨table, covers, -⟩ := HeapFile.readPage_eq_ok.mp here
  -- the file still reaches to the end of the page, and octets of this number can be read
  have covered : f.Covers (e'.octets f) p.number := Nat.le_trans covers (h.longer _ f found)
  obtain ⟨later, here⟩ := HeapFile.exists_readPage table covered
  exact ⟨later, toOption_eq_some.mp (stored?_eq_some.mpr ⟨f, h.catalog ▸ found, here⟩)⟩

/-- Every page of a file of whole pages can be read later, those that are appended too. -/
theorem exists_readPage_of_whole (found : e.catalog.file? p.table = some f) (whole : e.Whole f)
    (inside : p.number < e'.numPages f) : ∃ page, e'.readPage p = .ok page := by
  have whole' : f.offset (e'.numPages f) = (e'.octets f).length := h.whole found whole
  have covers : f.Covers (e'.octets f) p.number := by
    rw [HeapFile.Covers, ← whole']
    exact Nat.mul_le_mul_right _ inside
  obtain ⟨later, here⟩ := HeapFile.exists_readPage (Catalog.id_of_file? found).symm covers
  exact ⟨later, toOption_eq_some.mp (stored?_eq_some.mpr ⟨f, h.catalog ▸ found, here⟩)⟩

end Engine.Extends

namespace Traffic

variable {first : Rows} {s s' : Traffic}

/-- Nothing that happens makes a file shorter. -/
theorem extends_next (h : s.Sound first) {ev : TrafficEvent} (hs : s.next? ev = some s') :
    s.engine.Extends s'.engine := by
  cases next_of_next? hs with
  | start _ _ => exact .of_disk rfl rfl
  | step turn => exact (Engine.steps_step h.engine (h.calls _ _ turn) rfl).1.files
  | complete _ =>
    obtain ⟨written, torn?, completes, -⟩ := Engine.completes_complete h.engine rfl
    exact .of_lengths completes.catalog completes.lengths

/-- No run makes a file shorter. -/
theorem extends_run {e : Engine} (fresh : e.Fresh) {es : List TrafficEvent}
    (h : (quiet e).run es = some s) : e.Extends s.engine := by
  refine ((sound_quiet fresh).run_induction (motive := fun _ s => e.Extends s.engine) ?_ h
    (.of_disk rfl rfl)).2
  intro done mid last ev _ sound step files
  exact files.trans (extends_next sound step)

/-- **The disk is the committed history.** In any run in which no commit has failed, a page that is read
from its file has the rows that the committed transactions have made of those in the first file, one
transaction after another in the order of their commits. Where there is no page yet, they have put no
rows; and a page that could be read at first, or is in a file of whole pages, can be read. -/
theorem stored_eq_history {e : Engine} (fresh : e.Fresh) {es : List TrafficEvent}
    (h : (quiet e).run es = some s) (ok : s.failed = []) (p : PageId) :
    (∀ page, s.engine.readPage p = .ok page →
      ∀ slot, page.row? slot = Rows.after e.storedRow s.history.flatten ⟨p, slot⟩) ∧
    ((∀ page, s.engine.readPage p ≠ .ok page) →
      ∀ slot, Rows.after e.storedRow s.history.flatten ⟨p, slot⟩ = none) ∧
    ((∃ page, e.readPage p = .ok page) → ∃ page, s.engine.readPage p = .ok page) ∧
    ∀ f, e.catalog.file? p.table = some f → e.Whole f → p.number < s.engine.numPages f →
      ∃ page, s.engine.readPage p = .ok page := by
  have stored := (Sound.run fresh h).history ok
  have files := extends_run fresh h
  refine ⟨?_, ?_, files.exists_readPage, ?_⟩
  · intro page read slot
    have on_disk : s.engine.stored? p = some page := Engine.toOption_eq_some.mpr read
    rw [← stored, Engine.storedRow, on_disk, Option.bind_some]
  · intro unread slot
    have nothing : s.engine.stored? p = none := by
      rw [Option.eq_none_iff_forall_ne_some]
      intro page on_disk
      exact unread page (Engine.toOption_eq_some.mp on_disk)
    rw [← stored, Engine.storedRow, nothing, Option.bind_none]
  · intro f found whole inside
    exact files.exists_readPage_of_whole found whole inside

/-- One transaction is committed, one is aborted, and one goes on. -/
def threeInsertions : List TrafficEvent :=
  inserting ⟨1⟩ 7 5 ++ [.complete ⟨1⟩ true ∅] ++ inserting ⟨2⟩ 8 4 ++ [.complete ⟨2⟩ false ∅]
    ++ inserting ⟨3⟩ 9 4

/-- After `threeInsertions` the row of the first transaction is on the disk, and no other. -/
theorem stored_eq_history_threeInsertions : ∃ s page,
    (quiet .sample).run threeInsertions = some s ∧ s.failed = [] ∧
      s.engine.readPage ⟨.file ["t"], 0⟩ = .ok page ∧ page.row? 0 = some [.int 7] ∧
      page.row? 1 = none := by
  have ran : ((quiet .sample).run threeInsertions).map (fun s => (s.failed,
      (s.engine.readPage ⟨.file ["t"], 0⟩).isOk,
      Rows.after Engine.sample.storedRow s.history.flatten ⟨⟨.file ["t"], 0⟩, 0⟩,
      Rows.after Engine.sample.storedRow s.history.flatten ⟨⟨.file ["t"], 0⟩, 1⟩))
        = some ([], true, some [.int 7], none) := by decide +kernel
  obtain ⟨s, run, told⟩ := Option.map_eq_some_iff.mp ran
  simp only [Prod.mk.injEq] at told
  obtain ⟨ok, readable, committed, others⟩ := told
  cases read : s.engine.readPage ⟨.file ["t"], 0⟩ with
  | error err => exact nomatch read ▸ readable
  | ok page =>
    have rows := (stored_eq_history Engine.fresh_sample run ok ⟨.file ["t"], 0⟩).1 page read
    exact ⟨s, page, run, ok, read, (rows 0).trans committed, (rows 1).trans others⟩

end Traffic

end RowStore
