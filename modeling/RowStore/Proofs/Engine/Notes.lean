import RowStore.Proofs.Engine.Ending

/-! # What the pool's notes decide
The pool notes who has changed which page, and pages are marked as well. Only the end of a transaction
reads the notes: every other operation does the same whatever has been noted (`getPage_noting`,
`flush_noting`). So what the end of a transaction does can be told of the pages that have been noted for
it, if everything else is as it should be (`ends_noted`). -/

namespace RowStore

namespace Pool

variable {p : Pool} {page : Page} {t u : TxnId} {id : PageId} {notes : FinMap TxnId (List PageId)}

/-- The pool with other notes of who has changed which page. -/
def noting (p : Pool) (notes : FinMap TxnId (List PageId)) : Pool :=
  { p with dirtied := notes }

theorem makeRoom_noting : (p.noting notes).makeRoom = p.makeRoom.map (·.noting notes) := by
  have victim : (p.noting notes).victim? = p.victim? := rfl
  have room : (p.noting notes).resident.length < (p.noting notes).capacity ↔
    p.resident.length < p.capacity := Iff.rfl
  simp only [makeRoom, victim, room]
  split
  · rfl
  · cases p.victim? <;> rfl

theorem load_noting :
    (p.noting notes).load page = (p.load page).map fun (q, i) => (q.noting notes, i) := by
  rw [load, makeRoom_noting, load]
  cases p.makeRoom <;> rfl

/-- A note that a page has been changed changes the notes only. -/
theorem noteDirtied_eq_noting (t : TxnId) (id : PageId) :
    p.noteDirtied t id = p.noting (p.noteDirtied t id).dirtied := by
  rw [noteDirtied]
  split <;> rfl

theorem noteWritten_eq_noting (t : TxnId) (id : PageId) :
    p.noteWritten t id = p.noting (p.noteWritten t id).dirtied := by
  rw [noteWritten]
  split <;> rfl

theorem dirtied_noteDirtied_of_ne (ne : u ≠ t) :
    (p.noteDirtied t id).dirtied.get? u = p.dirtied.get? u := by
  rw [noteDirtied]
  split
  · rfl
  · exact FinMap.get?_insert_of_ne _ _ ne

/-- What is noted of a transaction depends on what was noted of it before. -/
theorem dirtied_noteDirtied_congr {q : Pool} (h : q.dirtied.get? u = p.dirtied.get? u) :
    (q.noteDirtied t id).dirtied.get? u = (p.noteDirtied t id).dirtied.get? u := by
  by_cases eq : u = t
  · subst eq
    have pages : q.dirtied.getD u [] = p.dirtied.getD u [] := by rw [FinMap.getD, h, FinMap.getD]
    rw [noteDirtied, noteDirtied, pages]
    split
    · exact h
    · rw [FinMap.get?_insert_self, FinMap.get?_insert_self]
  · rw [dirtied_noteDirtied_of_ne eq, dirtied_noteDirtied_of_ne eq, h]

theorem dirtied_noteWritten_congr {q : Pool} (h : q.dirtied.get? u = p.dirtied.get? u) :
    (q.noteWritten t id).dirtied.get? u = (p.noteWritten t id).dirtied.get? u := by
  by_cases eq : u = t
  · subst eq
    rw [noteWritten, noteWritten, h]
    cases listed : p.dirtied.get? u with
    | none => exact h
    | some pages => rw [FinMap.get?_insert_self, FinMap.get?_insert_self]
  · rw [dirtied_noteWritten_of_ne eq, dirtied_noteWritten_of_ne eq, h]

end Pool

namespace Engine

variable {e e' : Engine} {t : TxnId} {p : PageId} {permission : Permission} {faults : Faults}
  {page : Page} {notes : FinMap TxnId (List PageId)}

/-- The engine with other notes of who has changed which page. -/
def noting (e : Engine) (notes : FinMap TxnId (List PageId)) : Engine :=
  { e with pool := e.pool.noting notes }

/-- Whether memory and disk fit together does not depend on the notes. -/
theorem coherent_noting : (e.noting notes).Coherent ↔ e.Coherent := by
  constructor
  · exact fun h => ⟨h.storable, h.locks, h.pool.congr rfl rfl, h.resident, h.clean⟩
  · exact fun h => ⟨h.storable, h.locks, h.pool.congr rfl rfl, h.resident, h.clean⟩

/-! ## Fetching and changing -/

theorem bring_noting :
    (e.noting notes).bring p = (e.bring p).map fun (e', i) => (e'.noting notes, i) := by
  have pool : (e.noting notes).pool = e.pool.noting notes := rfl
  have frame : (e.pool.noting notes).frame? p = e.pool.frame? p := rfl
  have read : (e.noting notes).readPage p = e.readPage p := rfl
  simp only [bring, pool, frame, read, Pool.load_noting]
  cases e.pool.frame? p with
  | some i => rfl
  | none =>
    cases e.readPage p with
    | error err => rfl
    | ok page =>
      simp only [bind, Except.bind]
      cases e.pool.load page <;> rfl

theorem getPage_noting : (e.noting notes).getPage t p permission =
    ((e.getPage t p permission).1.noting notes, (e.getPage t p permission).2) := by
  have locks : (e.noting notes).locks = e.locks := rfl
  rw [getPage, locks, getPage]
  rcases e.locks.acquire t p permission.mode with ⟨locks, reply⟩
  cases reply with
  | waiting | deadlock => rfl
  | granted =>
    have same : ({ e.noting notes with locks } : Engine) = ({ e with locks } : Engine).noting notes :=
      rfl
    simp only [same, bring_noting]
    cases ({ e with locks } : Engine).bring p <;> rfl

/-! ## Ending -/

/-- Notes beside those of an engine: of one transaction both change in the same way, of the others the
first stay as they are. -/
structure Beside (t : TxnId) (notes notes' : FinMap TxnId (List PageId)) (e e' : Engine) : Prop where
  same : notes.get? t = e.pool.dirtied.get? t → notes'.get? t = e'.pool.dirtied.get? t
  others : ∀ u ≠ t, notes'.get? u = notes.get? u

theorem writeBack_noting (e : Engine) (notes : FinMap TxnId (List PageId)) (p : PageId)
    (faults : Faults) : ∃ notes', (e.noting notes).writeBack p faults =
        ((e.writeBack p faults).1.noting notes', (e.writeBack p faults).2) ∧
      ∀ t, (∀ u, e.owner? p = some u → u = t) →
        Beside t notes notes' e (e.writeBack p faults).1 := by
  have same : (e.noting notes).owner? p = e.owner? p := rfl
  cases owner : e.owner? p with
  | none =>
    rw [writeBack_of_owner?_eq_none owner, writeBack_of_owner?_eq_none (same.trans owner)]
    exact ⟨notes, rfl, fun t _ => ⟨id, fun _ _ => rfl⟩⟩
  | some t =>
    obtain ⟨page, here, dirty⟩ := Option.bind_eq_some_iff.mp owner
    obtain ⟨frame, resident, -⟩ := Pool.page?_eq_some.mp here
    have here' : (e.noting notes).pool.page? p = some page := here
    have resident' : (e.noting notes).pool.frame? p = some frame := resident
    have disk : (e.noting notes).disk = e.disk := rfl
    have writing : (e.noting notes).writing p page faults = e.writing p page faults :=
      writing_congr disk rfl p page faults
    rcases wrote : e.writing p page faults with ⟨disk, _ | _⟩
    · -- a write that fails notes nothing
      rw [writeBack_of_failed resident here dirty wrote,
        writeBack_of_failed resident' here' dirty (writing.trans wrote)]
      exact ⟨notes, rfl, fun t _ => ⟨id, fun _ _ => rfl⟩⟩
    · rw [writeBack_of_dirty resident here dirty wrote,
        writeBack_of_dirty resident' here' dirty (writing.trans wrote)]
      refine ⟨((e.noting notes).written disk t p frame page).pool.dirtied, ?_, fun u mine => ?_⟩
      · simp only [Engine.written]
        rw [Pool.noteWritten_eq_noting, Pool.noteWritten_eq_noting (p := e.pool.setFrame frame _)]
        rfl
      · obtain rfl := mine t rfl
        exact ⟨fun same => Pool.dirtied_noteWritten_congr same,
          fun v ne => Pool.dirtied_noteWritten_of_ne ne⟩

/-- Pages are written in the same way whatever has been noted. -/
theorem writeBackAll_noting (h : e.Sound) (notes : FinMap TxnId (List PageId)) (ps : List PageId)
    (faults : Faults) : ∃ notes', (e.noting notes).writeBackAll faults ps =
        ((e.writeBackAll faults ps).1.noting notes', (e.writeBackAll faults ps).2) ∧
      ∀ t, (∀ p ∈ ps, ∀ u, e.owner? p = some u → u = t) →
        Beside t notes notes' e (e.writeBackAll faults ps).1 := by
  induction ps generalizing e notes with
  | nil => exact ⟨notes, rfl, fun t _ => ⟨id, fun _ _ => rfl⟩⟩
  | cons p ps ih =>
    obtain ⟨noted, wrote, beside⟩ := writeBack_noting e notes p faults
    rw [writeBackAll, wrote, writeBackAll]
    rcases hw : e.writeBack p faults with ⟨e₁, _ | _⟩
    · rw [hw] at beside
      exact ⟨noted, rfl, fun t mine => beside t (mine p (.head _))⟩
    · rw [hw] at beside
      rcases writes_writeBack h hw with ⟨-, writes⟩ | ⟨failed, -⟩
      · obtain ⟨notes', all, later⟩ := ih writes.sound noted
        refine ⟨notes', all, fun t mine => ?_⟩
        have first := beside t (mine p (.head _))
        have rest := later t fun q mem u owner => by
          rw [writes.owner] at owner
          split at owner
          · cases owner
          · exact mine q (.tail _ mem) u owner
        exact ⟨fun same => rest.same (first.same same),
          fun u ne => (rest.others u ne).trans (first.others u ne)⟩
      · exact absurd rfl failed

theorem flush_noting (h : e.Sound) (notes : FinMap TxnId (List PageId)) (ps : List PageId)
    (faults : Faults) : ∃ notes', (e.noting notes).flush ps faults =
        ((e.flush ps faults).1.noting notes', (e.flush ps faults).2) ∧
      ∀ t, (∀ p ∈ ps, ∀ u, e.owner? p = some u → u = t) →
        Beside t notes notes' e (e.flush ps faults).1 := by
  obtain ⟨notes', wrote, beside⟩ := writeBackAll_noting h notes ps faults
  have unwritten : (e.noting notes).isUnwritten = e.isUnwritten := rfl
  rw [flush_fst]
  refine ⟨notes', ?_, beside⟩
  rw [flush, wrote, unwritten, flush]
  rcases e.writeBackAll faults ps with ⟨e₁, result⟩
  cases result with
  | error err => rfl
  | ok _ =>
    cases faults.sync? with
    | none => rfl
    | some err =>
      dsimp only
      split <;> rfl

/-- Pages are read again in the same way whatever has been noted. -/
theorem foldl_revertPage_noting (e : Engine) (notes : FinMap TxnId (List PageId)) (ps : List PageId)
    (faults : Faults) : ps.foldl (revertPage faults) (e.noting notes)
      = (ps.foldl (revertPage faults) e).noting notes := by
  induction ps generalizing e with
  | nil => rfl
  | cons p ps ih =>
    have first : (e.noting notes).revertPage faults p = (e.revertPage faults p).noting notes := by
      have frame : (e.noting notes).pool.frame? p = e.pool.frame? p := rfl
      have read : (e.noting notes).readPage p = e.readPage p := rfl
      rw [revertPage, frame, read, revertPage]
      split
      · rfl
      · split <;> rfl
    rw [List.foldl_cons, first, ih, List.foldl_cons]

/-- A transaction ends in the same way whatever has been noted of the others. -/
theorem complete_noting (h : e.Sound) (same : notes.get? t = e.pool.dirtied.get? t) (commit : Bool)
    (faults : Faults) : ∃ notes', (e.noting notes).complete t commit faults =
        ((e.complete t commit faults).1.noting notes', (e.complete t commit faults).2) ∧
      notes'.get? t = none ∧ ∀ u ≠ t, notes'.get? u = notes.get? u := by
  have pages : ∀ {e : Engine} {notes : FinMap TxnId (List PageId)},
      notes.get? t = e.pool.dirtied.get? t → (e.noting notes).pool.dirtiedBy t = e.pool.dirtiedBy t := by
    intro e notes same
    have listed : (e.noting notes).pool.dirtied.getD t [] = e.pool.dirtied.getD t [] :=
      congrArg (Option.getD · []) same
    rw [Pool.dirtiedBy, listed, Pool.dirtiedBy]
  have forget : ∀ notes' : FinMap TxnId (List PageId), (∀ u ≠ t, notes'.get? u = notes.get? u) →
      (notes'.erase t).get? t = none ∧ ∀ u ≠ t, (notes'.erase t).get? u = notes.get? u :=
    fun notes' others => ⟨FinMap.get?_erase_self ..,
      fun u ne => (FinMap.get?_erase_of_ne _ ne).trans (others u ne)⟩
  cases commit with
  | false =>
    have reverted : (e.noting notes).revert t faults = (e.revert t faults).noting notes := by
      rw [revert, pages same, foldl_revertPage_noting, revert]
    refine ⟨notes.erase t, ?_, forget notes fun _ _ => rfl⟩
    rw [complete, if_neg (by simp), reverted, complete, if_neg (by simp)]
    rfl
  | true =>
    obtain ⟨notes', flushed, beside⟩ := flush_noting h notes (e.pool.dirtiedBy t) faults
    have mine : ∀ p ∈ e.pool.dirtiedBy t, ∀ u, e.owner? p = some u → u = t :=
      fun p mem u owner => Option.some.inj (owner.symm.trans (h.mem_dirtiedBy.mp mem))
    obtain ⟨still, others⟩ := beside t mine
    refine ⟨notes'.erase t, ?_, forget notes' others⟩
    rw [complete, if_pos rfl, flushPagesOf, pages same, flushed, complete, if_pos rfl, flushPagesOf]
    rcases hf : e.flush (e.pool.dirtiedBy t) faults with ⟨e₁, result⟩
    cases result with
    | ok _ => rfl
    | error err =>
      replace still := still same
      rw [hf] at still
      have reverted : (e₁.noting notes').revert t faults = (e₁.revert t faults).noting notes' := by
        rw [revert, pages still, foldl_revertPage_noting, revert]
      dsimp only
      rw [reverted]
      rfl

/-- **The end of a transaction, by what has been noted.** If everything is as it should be but for the
notes, a commit that succeeds writes the pages that have been noted for the transaction, an abort reads
them again, and all others stay as they are, with their marks. -/
theorem ends_noted {commit : Bool} (h : e.Sound)
    (hc : (e.noting notes).complete t commit faults = (e', .ok ())) :
    (∀ r, e'.storedRow r =
      if commit = true ∧ r.page ∈ notes.getD t [] then e.currentRow r else e.storedRow r) ∧
    (∀ r, e'.currentRow r =
      if commit = false ∧ r.page ∈ notes.getD t [] then e.storedRow r else e.currentRow r) ∧
    ∀ p, e'.owner? p = if p ∈ notes.getD t [] then none else e.owner? p := by
  have listed : ∀ p, p ∈ (e.noting notes).pool.dirtiedBy t ↔ p ∈ notes.getD t [] :=
    fun p => Pool.mem_dirtiedBy
  simp only [← listed]
  cases commit with
  | true =>
    obtain ⟨notes', flushed, -⟩ := flush_noting h notes ((e.noting notes).pool.dirtiedBy t) faults
    rw [complete, if_pos rfl, flushPagesOf, flushed] at hc
    rcases hf : e.flush ((e.noting notes).pool.dirtiedBy t) faults with ⟨e₁, result⟩
    obtain ⟨written, torn?, -, writes, -, all⟩ := writes_flush h hf
    rw [hf] at hc
    cases result with
    | error err => cases (Prod.mk.inj hc).2
    | ok _ =>
      obtain rfl := (Prod.mk.inj hc).1
      obtain ⟨rfl, rfl⟩ := all rfl
      have stored : ((e₁.noting notes').finish t).storedRow = e₁.storedRow := storedRow_congr rfl rfl
      have current : ((e₁.noting notes').finish t).currentRow = e₁.currentRow := rfl
      refine ⟨fun r => ?_, fun r => ?_, writes.owner⟩
      · rw [stored, writes.stored r (by simp)]
        simp only [true_and]
      · rw [current, writes.current, if_neg (by simp)]
  | false =>
    have coherent : (e.noting notes).Coherent := coherent_noting.mpr h.toCoherent
    have reverts := reverts_foldl coherent faults ((e.noting notes).pool.dirtiedBy t)
    obtain rfl := (Prod.mk.inj hc).1
    have stored : (((e.noting notes).revert t faults).finish t).storedRow
        = ((e.noting notes).revert t faults).storedRow := storedRow_congr rfl rfl
    have current : (((e.noting notes).revert t faults).finish t).currentRow
        = ((e.noting notes).revert t faults).currentRow := rfl
    have same : (e.noting notes).storedRow = e.storedRow := storedRow_congr rfl rfl
    refine ⟨fun r => ?_, fun r => ?_, reverts.owner⟩
    · rw [stored, revert, reverts.storedRow, if_neg (by simp), same]
    · rw [current, revert, reverts.current, same]
      simp only [true_and]
      rfl

end Engine

end RowStore
