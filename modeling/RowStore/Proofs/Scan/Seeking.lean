import RowStore.Proofs.Engine.Alike
import RowStore.Proofs.Scan.Advance

/-! # Searches for records that fail
A cursor that looks for records may fail to fetch a page: because waiting for its lock would never end,
because no page in memory can make room, or because the file ends inside the page. It may also have to
wait for the lock. Where the table shows the same rows to whoever can fetch its pages (`Shows`), it makes
no difference to the rows that are left how a search ends (`run_seeks`). -/

namespace RowStore

/-- The rows that a cursor has yet to yield, where an engine shows what the pages hold. -/
def Cursor.left (c : Cursor) (base : Engine) : List (Option RecordId × List Value) :=
  match c.position? with
  | none => []
  | some place => place.left base c.file

namespace Engine

variable {base e e' : Engine} {t u : TxnId} {f : HeapFile} {n : Nat}
  {rest : List (Option RecordId × List Value)}

/-! ## What a transaction can see -/

/-- Whether a table has its rows as in a base engine, as far as a transaction can see: it has as many
pages, and each of them that is on the disk as a whole, and that nobody else has for himself, has the same
rows. -/
structure Shows (base e : Engine) (t : TxnId) (f : HeapFile) : Prop where
  coherent : e.Coherent
  file : ∀ g, e.catalog.file? f.id = some g → g = f
  numPages : e.numPages f = base.numPages f
  rows : ∀ n < base.numPages f, (∀ u, e.locks.holds u ⟨f.id, n⟩ .exclusive = true → u = t) →
    ∀ page, e.stored? ⟨f.id, n⟩ = some page → e.rowsOn f n = base.rowsOn f n

/-- Whatever pages anybody fetches, the table shows the same rows. -/
theorem Shows.of_fetches (h : base.Shows e t f) (fetches : e.Fetches e' u) : base.Shows e' t f where
  coherent := fetches.coherent
  file := fetches.catalog ▸ h.file
  numPages := by rw [← h.numPages, Engine.numPages, Engine.numPages, fetches.disk]
  rows n inside alone page stored := by
    have rows : e'.rowsOn f n = e.rowsOn f n := by simp only [rowsOn, fetches.current]
    rw [rows]
    refine h.rows n inside (fun v held => alone v ?_) page ?_
    · -- whoever has the page for himself keeps it
      by_cases own : v = u
      · exact own ▸ fetches.own (own ▸ held)
      · rwa [fetches.others own]
    · rwa [← stored?_congr fetches.disk fetches.catalog]

/-- To forget which pages were released changes no rows. -/
theorem Shows.unnotified (h : base.Shows e t f) : base.Shows { e with locks.notified := [] } t f where
  coherent := ⟨h.coherent.storable, h.coherent.locks.congr rfl fun _ _ _ => rfl, h.coherent.pool,
    h.coherent.resident, h.coherent.clean⟩
  file := h.file
  numPages := h.numPages
  rows := h.rows

/-- To latch frames for writing changes no rows. -/
theorem Shows.latched (h : base.Shows e t f) (frames : List Nat) :
    base.Shows { e with pool.latched := frames } t f where
  coherent := ⟨h.coherent.storable, h.coherent.locks, ⟨h.coherent.pool.distinct, h.coherent.pool.framed⟩,
    h.coherent.resident, h.coherent.clean⟩
  file := h.file
  numPages := h.numPages
  rows := h.rows

/-! ## Searches for records -/

/-- More steps than a search for records can take to the end of the table. -/
def toGo (base : Engine) (c : Cursor) : Nat :=
  match c.position? with
  | none => 1
  | some place => 2 * (base.numPages c.file - place.nextPage) + 1

/-- A place in a search for records, with these rows before it and at most so many steps to go. -/
inductive Seeks (base : Engine) (f : HeapFile) (rest : List (Option RecordId × List Value)) :
    Nat → Call → Prop
  | advance {c : Cursor} (file : c.file = f) (left : c.left base = rest) :
    Seeks base f rest (base.toGo c) (.advance c)
  | turn {n : Nat} (inside : n < base.numPages f)
      (left : (⟨n, []⟩ : CursorPosition).left base f = rest) :
    Seeks base f rest (2 * (base.numPages f - n)) (.turn ⟨f, some ⟨n, []⟩⟩ n)

/-- How a search for records with these rows before it can end. -/
inductive Stops (base : Engine) (f : HeapFile) (rest : List (Option RecordId × List Value)) :
    RunEnd → Prop
  /-- The cursor holds the next records, if any row is left. -/
  | found {c : Cursor} {last : Call} (file : c.file = f) (left : c.left base = rest)
      (ready : ∀ n, c.position? = some ⟨n, []⟩ → rest = []) :
    Stops base f rest (.over last (.ok (.advanced c (!rest.isEmpty))))
  /-- A page cannot be fetched, and the cursor stands before it. -/
  | failed {n : Nat} {err : FileError} (left : (⟨n, []⟩ : CursorPosition).left base f = rest)
      (kind : err ≠ .noSuchElement) :
    Stops base f rest (.over (.turn ⟨f, some ⟨n, []⟩⟩ n) (.error err))
  /-- The search waits, to go on from the same rows. -/
  | waits {call : Call} {toGo : Nat} {p : PageId} (seeks : base.Seeks f rest toGo call) :
    Stops base f rest (.waits call p)

/-- To read a page does not fail for want of records. -/
theorem readPage_ne_noSuchElement (e : Engine) (p : PageId) :
    e.readPage p ≠ .error .noSuchElement := by
  rw [readPage, file]
  cases e.catalog.file? p.table with
  | none => rintro ⟨⟩
  | some f =>
    show f.readPage _ p ≠ _
    rw [HeapFile.readPage_eq]
    split
    · split
      · cases Page.decode p f.layout _ with
        | ok page => rintro ⟨⟩
        | error err => rintro ⟨⟩
      · rintro ⟨⟩
    · rintro ⟨⟩

theorem ne_noSuchElement_of_getPage (h : e.Coherent) {p : PageId} {permission : Permission}
    {err : FileError} (failed : e.getPage t p permission = (e', .failed err)) :
    err ≠ .noSuchElement := by
  have gets := gets_of_getPage failed
  generalize (e.locks.acquire t p permission.mode).2 = reply at gets
  cases gets with
  | deadlock => exact nofun
  | unserved unbrought =>
    have pool := (fetches_asking h t p permission.mode).coherent.pool
    rcases bring_eq_error pool unbrought with rfl | ⟨-, unread⟩
    · exact nofun
    · rintro rfl
      exact readPage_ne_noSuchElement _ p unread

/-- What one step of a search for records leads to. -/
inductive Leads (base : Engine) (f : HeapFile) (rest : List (Option RecordId × List Value))
    (toGo : Nat) (c : Call) : Progress → Prop
  | done {result : Except FileError Reply} (stops : base.Stops f rest (.over c result)) :
    Leads base f rest toGo c (.done result)
  | waits {p : PageId} (stops : base.Stops f rest (.waits c p)) : Leads base f rest toGo c (.waits p)
  | goesOn {next : Call} {left : Nat} (seeks : base.Seeks f rest left next) (fewer : left < toGo) :
    Leads base f rest toGo c (.goesOn next)

/-- The step that fetches a page for a cursor either comes before the rows of the next page, with the
records of this one, or leaves the cursor where it was. -/
theorem leads_turn (h : base.Shows e t f) (inside : n < base.numPages f)
    (left : (⟨n, []⟩ : CursorPosition).left base f = rest) :
    ∃ e' progress, e.step t (.turn ⟨f, some ⟨n, []⟩⟩ n) = (e', progress) ∧ base.Shows e' t f ∧
      base.Leads f rest (2 * (base.numPages f - n)) (.turn ⟨f, some ⟨n, []⟩⟩ n) progress := by
  rcases got : e.getPage t ⟨f.id, n⟩ .readOnly with ⟨e', fetch⟩
  obtain ⟨fetches, granted⟩ := fetches_getPage h.coherent got
  have shows := h.of_fetches fetches
  simp only [step, stepCursor, withPage, got]
  cases fetch with
  | waiting => exact ⟨e', _, rfl, shows, .waits (.waits (.turn inside left))⟩
  | failed err =>
    exact ⟨e', _, rfl, shows, .done (.failed left (ne_noSuchElement_of_getPage h.coherent got))⟩
  | fetched ref =>
    obtain ⟨page, here, resident, -⟩ := current?_of_fetched h.coherent got
    obtain ⟨-, stored, on_disk, -⟩ := shows.coherent.resident _ _ resident
    obtain ⟨-, -, held⟩ := granted ref rfl
    -- the page is the transaction's to read, so its rows are those of the base
    have alone : ∀ u, e'.locks.holds u ⟨f.id, n⟩ .exclusive = true → u = t :=
      fun u alone => (shows.coherent.locks.alone alone held).symm
    have found : e'.catalog.file? f.id = some f := by
      obtain ⟨-, -, -, g, found, -⟩ := spec_of_stored? on_disk
      rwa [shows.file g found] at found
    have rows : page.tuples.map Tuple.row = (base.rowsOn f n).map PlacedRow.told := by
      rw [← shows.rows n inside alone stored on_disk]
      exact shows.coherent.rows_tuples found (current?_of_resident resident)
    have next : (⟨f, some ⟨n + 1, page.tuples⟩⟩ : Cursor).left base = rest := by
      rw [← left]
      simp only [Cursor.left, CursorPosition.left, rows, rowsFrom_of_lt inside, List.map_nil,
        List.nil_append, List.map_append]
    simp only [here]
    refine ⟨e', _, rfl, shows, .goesOn (.advance rfl next) ?_⟩
    simp only [toGo]
    omega

/-- A search for records is over where the cursor holds some, and behind the last page. -/
theorem leads_advance (h : base.Shows e t f) {c : Cursor} (file : c.file = f)
    (left : c.left base = rest) : ∃ progress, e.step t (.advance c) = (e, progress) ∧
      base.Leads f rest (base.toGo c) (.advance c) progress := by
  obtain ⟨_, position?⟩ := c
  subst file
  match position? with
  | none =>
    subst left
    exact ⟨_, rfl, .done (.found rfl rfl nofun)⟩
  | some ⟨n, tuple :: tuples⟩ =>
    subst left
    exact ⟨_, rfl, .done (.found rfl rfl nofun)⟩
  | some ⟨n, []⟩ =>
    simp only [step, checkCursor, h.numPages]
    split
    · next inside =>
      refine ⟨_, rfl, .goesOn (.turn inside left) ?_⟩
      simp only [toGo]
      omega
    · next past =>
      have nothing : rest = [] := left ▸ left_of_le (Nat.not_lt.mp past)
      subst nothing
      exact ⟨_, rfl, .done (.found rfl left fun _ _ => rfl)⟩

/-- A call takes no more steps than its search can take. -/
theorem Seeks.toGo_le {toGo : Nat} {c : Call} (seeks : base.Seeks f rest toGo c)
    (h : base.Shows e t f) : 0 < toGo ∧ toGo ≤ e.stepBound c := by
  cases seeks with
  | advance file left =>
    subst file
    simp only [Engine.toGo, stepBound, h.numPages]
    split <;> omega
  | turn inside left =>
    simp only [stepBound, h.numPages]
    omega

/-- A search for records ends, or waits, before the rows that were left. -/
theorem runSteps_seeks {fuel toGo : Nat} {c : Call} (h : base.Shows e t f)
    (seeks : base.Seeks f rest toGo c) (enough : toGo ≤ fuel) :
    ∃ e' ended, runSteps t fuel e c = (e', ended) ∧ base.Shows e' t f ∧ base.Stops f rest ended := by
  induction fuel generalizing e toGo c with
  | zero => exact absurd (Nat.le_zero.mp enough) (Nat.ne_of_gt (seeks.toGo_le h).1)
  | succ fuel ih =>
    have turned : ∃ e' progress, e.step t c = (e', progress) ∧ base.Shows e' t f ∧
        base.Leads f rest toGo c progress := by
      cases seeks with
      | advance file left =>
        obtain ⟨progress, stepped, leads⟩ := leads_advance h file left
        exact ⟨e, progress, stepped, h, leads⟩
      | turn inside left => exact leads_turn h inside left
    obtain ⟨e', progress, stepped, shows, leads⟩ := turned
    rw [runSteps, stepped]
    cases leads with
    | done stops | waits stops => exact ⟨e', _, rfl, shows, stops⟩
    | goesOn seeks fewer => exact ih shows seeks (by omega)

/-- **A search for records loses none.** Whether it finds some, fails, or waits, the same rows are left.
-/
theorem run_seeks {toGo : Nat} {c : Call} (h : base.Shows e t f) (seeks : base.Seeks f rest toGo c) :
    ∃ e' ended, e.run t c = (e', ended) ∧ base.Shows e' t f ∧ base.Stops f rest ended :=
  runSteps_seeks h seeks (seeks.toGo_le h).2

end Engine

end RowStore
