import RowStore.Proofs.Traffic.Sound

/-! # What is left of a transaction
However a transaction ends, nothing of it is left in the engine but what it has written, and the others
keep what they have (`Clears`). Main statement: `complete_clears`, which also tells the rows of the pages
that the transaction had changed: after an abort, after a commit, and after a commit that has failed at one
of several pages. The write of this one may have stopped anywhere, and the page is then neither what it
was nor what it was to be (`mixed_of_stopped`). -/

namespace RowStore

namespace Engine

/-- A transaction is over, and the others have what they had. -/
structure Clears (e e' : Engine) (t : TxnId) : Prop where
  unlocked : ∀ p mode, e'.locks.holds t p mode = false
  unlisted : e'.locks.pagesOf t = []
  forgotten : e'.pool.dirtied.get? t = none
  unmarked : ∀ p page, e'.pool.page? p = some page → page.dirtiedBy ≠ some t
  locks : ∀ u ≠ t, ∀ p mode, e'.locks.holds u p mode = e.locks.holds u p mode
  listed : ∀ u ≠ t, e'.locks.pagesOf u = e.locks.pagesOf u
  dirtied : ∀ u ≠ t, e'.pool.dirtied.get? u = e.pool.dirtied.get? u
  marks : ∀ u ≠ t, ∀ p, e'.owner? p = some u ↔ e.owner? p = some u
  current : ∀ p, e.owner? p ≠ some t →
    ∀ slot, e'.currentRow ⟨p, slot⟩ = e.currentRow ⟨p, slot⟩
  stored : ∀ p, e.owner? p ≠ some t →
    ∀ slot, e'.storedRow ⟨p, slot⟩ = e.storedRow ⟨p, slot⟩

namespace Completes

variable {e e' : Engine} {t : TxnId} {written : List PageId} {torn? : Option PageId}
  {faults : Faults} (h : e.Completes e' t written torn? faults)

include h

/-- A page that could be read before the end of a transaction can be read after it. -/
theorem exists_stored? {p : PageId} {page : Page} (stored : e.stored? p = some page) :
    ∃ page', e'.stored? p = some page' := by
  obtain ⟨-, -, -, f, found, -, covers⟩ := spec_of_stored? stored
  have covers : f.Covers (e'.octets f) p.number := by
    rwa [HeapFile.Covers, h.lengths p.table f found]
  obtain ⟨page', read⟩ := HeapFile.exists_readPage (Catalog.id_of_file? found).symm covers
  exact ⟨page', stored?_eq_some.mpr ⟨f, h.catalog ▸ found, read⟩⟩

theorem clears : e.Clears e' t where
  unlocked p mode := by rw [h.locks, if_pos rfl]
  unlisted := by rw [h.unlisted, if_pos rfl]
  forgotten := h.forgotten
  unmarked p page here mine := by
    have owner : e'.owner? p = some t := by rw [owner?, here, Option.bind_some, mine]
    exact (h.owner?_eq_some.mp owner).1 rfl
  locks u ne p mode := by rw [h.locks, if_neg ne]
  listed u ne := by rw [h.unlisted, if_neg ne]
  dirtied := h.dirtied
  marks u ne p := by rw [h.owner?_eq_some, and_iff_right ne]
  current p other slot := by rw [h.current, if_neg other]
  stored p other := h.storedRow_of_owner?_ne other

end Completes

end Engine

namespace Traffic

variable {first : Rows} {s : Traffic} {t : TxnId} {p : PageId} {rows : Nat → Option (List Value)}

namespace Sound

variable (h : s.Sound first)

include h

/-- The record has the rows that each changed page had before. -/
theorem contains_before {c : Change} (mem : c ∈ s.changes t) :
    (s.log t).before.contains c.id.page = true :=
  (h.kept t c.id.page).mp (h.owned t c mem)

/-- A page whose rows the record has is one that the transaction has changed. -/
theorem owner?_of_before (hb : (s.log t).before.get? p = some rows) :
    s.engine.owner? p = some t := by
  rw [h.kept, FinMap.contains, hb, Option.isSome_some]

variable {e' : Engine} {written : List PageId} {torn? : Option PageId} {faults : Faults}
  (completes : s.engine.Completes e' t written torn? faults)

include completes

/-- When a transaction is over, the pages that it has changed can be read. -/
theorem exists_stored?_of_completes (hb : (s.log t).before.get? p = some rows) :
    ∃ page, e'.stored? p = some page := by
  obtain ⟨page, here, -⟩ := Option.bind_eq_some_iff.mp (h.owner?_of_before hb)
  obtain ⟨-, stored, on_disk, -⟩ := h.engine.resident p page here
  exact completes.exists_stored? on_disk

/-- When a transaction is over, the pages that it has changed are in memory as they are on the disk. -/
theorem currentRow_of_completes (hb : (s.log t).before.get? p = some rows) (slot : Nat) :
    e'.currentRow ⟨p, slot⟩ = e'.storedRow ⟨p, slot⟩ := by
  rw [completes.current, if_pos (h.owner?_of_before hb)]

/-- A page that has not been written is on the disk as it was before the transaction changed it. -/
theorem storedRow_of_unwritten (hb : (s.log t).before.get? p = some rows) (out : p ∉ written)
    (whole : torn? ≠ some p) (slot : Nat) : e'.storedRow ⟨p, slot⟩ = rows slot := by
  rw [completes.stored _ whole, if_neg out, h.before t p rows hb]

omit h in
/-- A page that has been written is on the disk as the transaction has left it. -/
theorem storedRow_of_written (mem : p ∈ written) (whole : torn? ≠ some p) (slot : Nat) :
    e'.storedRow ⟨p, slot⟩ = s.engine.currentRow ⟨p, slot⟩ := by
  rw [completes.stored _ whole, if_pos mem]

end Sound

/-- **The end of a transaction.** In any run, whether a transaction is committed or aborted, and whatever
the file system refuses on the way: no lock, no mark and no unwritten change of it is left, and the others
keep theirs. The pages that it has changed can be read, and are in memory as they are on the disk. After
an abort they are as they were just before its first change, and after a commit as it has left them; after
a commit that has failed each of them is one or the other, but for one page at most: of a page whose write
has stopped early, the first octets are those of the transaction, and the rest those from before. -/
theorem complete_clears {e : Engine} (fresh : e.Fresh) {es : List TrafficEvent}
    (h : (quiet e).run es = some s) {commit : Bool} {faults : Faults} {e' : Engine}
    {result : Except FileError Unit} (hc : s.engine.complete t commit faults = (e', result)) :
    s.engine.Clears e' t ∧
    (∀ c ∈ s.changes t, (s.log t).before.contains c.id.page = true) ∧
    (commit = false → result = .ok ()) ∧
    ∃ torn? : Option PageId, (result = .ok () → torn? = none) ∧
      ∀ p rows, (s.log t).before.get? p = some rows →
        (∃ page, e'.stored? p = some page) ∧
        (∀ slot, e'.currentRow ⟨p, slot⟩ = e'.storedRow ⟨p, slot⟩) ∧
        (commit = false → ∀ slot, e'.storedRow ⟨p, slot⟩ = rows slot) ∧
        (commit = true → result = .ok () →
          ∀ slot, e'.storedRow ⟨p, slot⟩ = s.engine.currentRow ⟨p, slot⟩) ∧
        (torn? ≠ some p → (∀ slot, e'.storedRow ⟨p, slot⟩ = s.engine.currentRow ⟨p, slot⟩) ∨
          ∀ slot, e'.storedRow ⟨p, slot⟩ = rows slot) ∧
        (torn? = some p →
          ∃ fault, faults.write? p = some fault ∧ s.engine.Torn e' p fault.octets) := by
  have sound := Sound.run fresh h
  obtain ⟨written, torn?, completes, aborted, committed, whole⟩ :=
    Engine.completes_complete sound.engine hc
  refine ⟨completes.clears, fun c mem => sound.contains_before mem, fun abort => (aborted abort).2,
    torn?, whole, ?_⟩
  intro p rows hb
  refine ⟨sound.exists_stored?_of_completes completes hb, sound.currentRow_of_completes completes hb,
    ?aborted, ?committed, ?either, fun torn => (completes.torn p torn).2⟩
  case aborted =>
    intro abort
    obtain ⟨rfl, ok⟩ := aborted abort
    obtain rfl := whole ok
    exact sound.storedRow_of_unwritten completes hb List.not_mem_nil nofun
  case committed =>
    intro commit ok
    obtain rfl := whole ok
    exact Sound.storedRow_of_written completes (committed commit ok p (sound.owner?_of_before hb)) nofun
  -- a commit that fails has written some of the pages, and the others were read again
  case either =>
    intro whole
    by_cases mem : p ∈ written
    · exact .inl (Sound.storedRow_of_written completes mem whole)
    · exact .inr (sound.storedRow_of_unwritten completes hb mem whole)

/-- Rows are told by their values. A tuple that was inserted under other column names than those of its
table loses these when its page is read again. -/
example : ((quiet .sample).run
      (.start ⟨1⟩ (.insert (.file ["t"]) ⟨⟨[⟨"m", .int⟩]⟩, [.int 7], none⟩)
        :: List.replicate 5 (.step ⟨1⟩) ++ [.complete ⟨1⟩ true ∅] ++ inserting ⟨2⟩ 8 4)).map (fun s =>
      let schema? (e : Engine) := ((e.current? ⟨.file ["t"], 0⟩).bind (·.tuple? 0)).map (·.schema)
      (schema? s.engine, schema? (s.engine.complete ⟨2⟩ false).1))
    = some (some ⟨[⟨"m", .int⟩]⟩, some ⟨[⟨"n", .int⟩]⟩) := by
  decide +kernel

/-- The file system stops every write after one octet, as it may when a medium is taken away. -/
def stopping : Faults where
  write? _ := some ⟨.notFound, 1⟩

/-- One transaction has been committed, and another one inserts into the same page; the write of its
commit stops behind the bitmap. The row of the second one is there then, with the octets that were in its
place before. -/
theorem exists_stopped : ∃ s e' err rows, (quiet .sample).run
      (inserting ⟨1⟩ 7 5 ++ [.complete ⟨1⟩ true ∅] ++ inserting ⟨2⟩ 8 4) = some s ∧
    s.engine.complete ⟨2⟩ true stopping = (e', .error err) ∧
    (s.log ⟨2⟩).before.get? ⟨.file ["t"], 0⟩ = some rows ∧
    e'.storedRow ⟨⟨.file ["t"], 0⟩, 1⟩ = some [.int 0] ∧
    ¬ ((∀ slot, e'.storedRow ⟨⟨.file ["t"], 0⟩, slot⟩
        = s.engine.currentRow ⟨⟨.file ["t"], 0⟩, slot⟩) ∨
      ∀ slot, e'.storedRow ⟨⟨.file ["t"], 0⟩, slot⟩ = rows slot) := by
  have ran : ((quiet .sample).run
      (inserting ⟨1⟩ 7 5 ++ [.complete ⟨1⟩ true ∅] ++ inserting ⟨2⟩ 8 4)).map (fun s =>
      ((s.engine.complete ⟨2⟩ true stopping).2.isOk,
      ((s.log ⟨2⟩).before.get? ⟨.file ["t"], 0⟩).map (· 1),
      [s.engine.currentRow ⟨⟨.file ["t"], 0⟩, 1⟩,
        (s.engine.complete ⟨2⟩ true stopping).1.storedRow ⟨⟨.file ["t"], 0⟩, 1⟩]))
        = some (false, some none, [some [.int 8], some [.int 0]]) := by
    decide +kernel
  obtain ⟨s, run, told⟩ := Option.map_eq_some_iff.mp ran
  simp only [Prod.mk.injEq, List.cons.injEq, Option.map_eq_some_iff] at told
  obtain ⟨refused, ⟨rows, before, old⟩, own, mixed, -⟩ := told
  rcases hc : s.engine.complete ⟨2⟩ true stopping with ⟨e', result⟩
  rw [hc] at refused mixed
  cases result with
  | ok _ => cases refused
  | error err =>
    refine ⟨s, e', err, rows, run, hc, before, mixed, ?_⟩
    -- the row is neither what was inserted nor missing
    rintro (new | kept)
    · exact absurd ((own.symm.trans (new 1).symm).trans mixed) (by decide)
    · exact absurd ((old.symm.trans (kept 1).symm).trans mixed) (by decide)

/-- After such a commit no lock is left, the page is in memory as it is on the disk, and one octet of it
is new. -/
theorem complete_clears_stopping : ∃ s e', (quiet .sample).run
      (inserting ⟨1⟩ 7 5 ++ [.complete ⟨1⟩ true ∅] ++ inserting ⟨2⟩ 8 4) = some s ∧
    (s.engine.complete ⟨2⟩ true stopping).1 = e' ∧
    (∀ p mode, e'.locks.holds ⟨2⟩ p mode = false) ∧
    e'.currentRow ⟨⟨.file ["t"], 0⟩, 1⟩ = some [.int 0] ∧
    s.engine.Torn e' ⟨.file ["t"], 0⟩ 1 := by
  obtain ⟨s, e', err, rows, run, hc, before, mixed, neither⟩ := exists_stopped
  obtain ⟨clears, -, -, torn?, -, pages⟩ := complete_clears Engine.fresh_sample run hc
  obtain ⟨-, current, -, -, whole, torn⟩ := pages _ rows before
  have here : torn? = some ⟨.file ["t"], 0⟩ := Decidable.byContradiction fun ne => neither (whole ne)
  obtain ⟨fault, given, torn⟩ := torn here
  obtain rfl : ⟨.notFound, 1⟩ = fault := Option.some.inj given
  exact ⟨s, e', run, congrArg Prod.fst hc, clears.unlocked, (current 1).trans mixed, torn⟩

/-- Such a commit leaves a page that is neither what its transaction had made of it nor what it was
before. -/
theorem mixed_of_stopped : ∃ s e' err rows, (quiet .sample).run
      (inserting ⟨1⟩ 7 5 ++ [.complete ⟨1⟩ true ∅] ++ inserting ⟨2⟩ 8 4) = some s ∧
    s.engine.complete ⟨2⟩ true stopping = (e', .error err) ∧
    (s.log ⟨2⟩).before.get? ⟨.file ["t"], 0⟩ = some rows ∧
    ¬ ((∀ slot, e'.storedRow ⟨⟨.file ["t"], 0⟩, slot⟩
        = s.engine.currentRow ⟨⟨.file ["t"], 0⟩, slot⟩) ∨
      ∀ slot, e'.storedRow ⟨⟨.file ["t"], 0⟩, slot⟩ = rows slot) := by
  obtain ⟨s, e', err, rows, run, hc, before, -, neither⟩ := exists_stopped
  exact ⟨s, e', err, rows, run, hc, before, neither⟩

end Traffic

end RowStore
