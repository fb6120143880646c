import RowStore.Proofs.Traffic.Growth
import RowStore.Proofs.Traffic.Rescan

/-! # Where an insertion puts its record
An insertion that never has to wait looks into the pages of its file from the first one on, and keeps
each of them locked, so those that it has passed are full (`Searching`). It fills the first slot that is
free, and appends a page only if there is none; nothing else changes, in memory or on the disk
(`Inserts`). Main statement: `inserts_of_call`. -/

namespace RowStore.Engine

variable {start e e' e'' e₁ : Engine} {t : TxnId} {f : HeapFile} {p : PageId} {n slot : Nat}
  {permission : Permission} {page : Page} {ref : PageRef} {tuple : Tuple} {id : RecordId}
  {reply : Reply} {stage : InsertStage} {next : Call}

/-! ## Free slots -/

/-- A slot of a file that is found free by whoever fetches its page. -/
structure Free (e : Engine) (f : HeapFile) (r : RecordId) : Prop where
  table : r.page.table = f.id
  page : r.page.number < e.numPages f
  slot : r.slot < f.layout.slotCount
  empty : e.currentRow r = none

/-- The first free slot of a file: it is on the first page that has one. -/
structure FirstFree (e : Engine) (f : HeapFile) (r : RecordId) : Prop extends e.Free f r where
  first : ∀ other, e.Free f other → r.page.number < other.page.number ∨
    r.page.number = other.page.number ∧ r.slot ≤ other.slot

/-- A page that can be fetched is one of its file. -/
theorem Coherent.lt_numPages_of_current? (h : e.Coherent) (found : e.catalog.file? f.id = some f)
    (here : e.current? ⟨f.id, n⟩ = some page) : n < e.numPages f := by
  cases resident : e.pool.page? ⟨f.id, n⟩ with
  | some page' => exact h.lt_numPages found resident
  | none =>
    rw [current?_of_not_resident resident] at here
    obtain ⟨-, -, -, g, found', -, covers⟩ := spec_of_stored? here
    obtain rfl : g = f := Option.some.inj (found'.symm.trans found)
    exact covers.lt_numPages

/-- Behind the last page of a file there are no rows. -/
theorem Coherent.currentRow_eq_none (h : e.Coherent) (found : e.catalog.file? f.id = some f)
    (past : e.numPages f ≤ n) : e.currentRow ⟨⟨f.id, n⟩, slot⟩ = none := by
  cases here : e.current? ⟨f.id, n⟩ with
  | some page => exact absurd (h.lt_numPages_of_current? found here) (Nat.not_lt.mpr past)
  | none => rw [currentRow, here, Option.bind_none]

/-- No slot of a full page is free. -/
theorem Crowded.not_free (h : e.Crowded f n) {r : RecordId} (number : r.page.number = n) :
    ¬ e.Free f r := by
  intro free
  have row := h r.slot free.slot
  rw [← number, ← free.table, free.empty] at row
  cases row

/-- A free slot is the first one if there are rows in all slots before it. -/
theorem Free.firstFree (h : e.Free f id) (pages : ∀ m < id.page.number, e.Crowded f m)
    (slots : ∀ i < id.slot, (e.currentRow ⟨id.page, i⟩).isSome = true) : e.FirstFree f id where
  toFree := h
  first other free := by
    rcases Nat.lt_trichotomy id.page.number other.page.number with before | same | behind
    · exact .inl before
    · refine .inr ⟨same, Nat.le_of_not_lt fun before => ?_⟩
      have page : id.page = other.page := congrArg₂ PageId.mk (h.table.trans free.table.symm) same
      have row := slots other.slot before
      rw [page, free.empty] at row
      cases row
    · exact absurd free ((pages _ behind).not_free rfl)

/-! ## The record in its slot -/

/-- What an insertion does that puts a record into a slot. -/
structure Fills (e e' : Engine) (t : TxnId) (f : HeapFile) (tuple : Tuple) (id : RecordId) : Prop where
  /-- The record is in the slot, under the slot's record id, and not written yet. -/
  filled : ∃ page, e'.pool.page? id.page = some page ∧ page.dirtiedBy = some t ∧
    page.tuple? id.slot = some { tuple with id? := some id }
  others : ∀ r ≠ id, e'.currentRow r = e.currentRow r
  noted : e'.pool.Noted t id.page
  locked : e'.locks.holds t id.page .exclusive = true
  passed : ∀ n < id.page.number, e'.locks.holdsAny t ⟨f.id, n⟩ = true

/-- A record that has been put into a page is in the first slot that was not used. -/
theorem fills_of_place (h : e₁.Coherent) (current : e₁.currentRow = e.currentRow)
    (resident : e₁.pool.frame? page.id = some ref.frame) (here : e₁.page? ref = some page)
    (write : ref.permission = .readWrite) (locked : e₁.locks.holds t page.id .exclusive = true)
    (passed : ∀ n < page.id.number, e₁.locks.holdsAny t ⟨f.id, n⟩ = true)
    (hs : e₁.place t ⟨f, tuple, true, stage⟩ ref page = (e', .done (.ok reply))) :
    ∃ id, reply = .inserted id ref ∧ e.Fills e' t f tuple id ∧ e'.disk = e₁.disk ∧
      e'.catalog = e₁.catalog ∧ id.page = page.id ∧ id.slot < page.slotCount ∧
      page.isUsed id.slot = false ∧ ∀ i < id.slot, page.isUsed i = true := by
  rw [place] at hs
  split at hs
  · cases hs
  · next id new inserted =>
    obtain ⟨-, at_page, inside, same, layout, -, bits, slots⟩ := Page.insert_cases inserted
    have resident' : e₁.pool.frame? new.id = some ref.frame := same ▸ resident
    rw [endChange_of_resident h.pool resident' write] at hs
    obtain ⟨rfl, eq⟩ := Prod.mk.inj hs
    obtain rfl := Except.ok.inj (Progress.done.inj eq)
    refine ⟨id, rfl, ⟨?filled, ?others, ?noted, at_page ▸ locked, at_page ▸ passed⟩, rfl, rfl,
      at_page, inside, Page.first_of_insert inserted⟩
    case filled =>
      refine ⟨new.mark (some t), ?_, rfl, ?_⟩
      · rw [page?_changed resident' h.pool, if_pos (at_page.trans same.symm)]
      · have row := Page.tuple?_of_set layout inside bits slots id.slot
        rwa [if_pos rfl, if_pos rfl] at row
    case others =>
      rintro ⟨q, slot⟩ ne
      rw [currentRow_changed resident' h, same, ← current]
      split
      · next eq =>
        have here' : e₁.current? page.id = some page :=
          current?_of_resident (Pool.page?_eq_some.mpr ⟨_, resident, here⟩)
        have other : slot ≠ id.slot := by
          rintro rfl
          exact ne (congrArg (⟨·, id.slot⟩ : PageId → RecordId) (eq.trans at_page.symm))
        rw [Page.row?_of_insert inserted, if_neg other, currentRow, eq, here', Option.bind_some]
      · rfl
    case noted => exact Pool.noted_noteDirtied.mpr (.inl ⟨rfl, at_page.trans same.symm⟩)

/-! ## The search -/

theorem Fetches.trans (h : e.Fetches e' t) (h' : e'.Fetches e'' t) : e.Fetches e'' t where
  coherent := h'.coherent
  disk := h'.disk.trans h.disk
  catalog := h'.catalog.trans h.catalog
  dirtied := h'.dirtied.trans h.dirtied
  owner := h'.owner.trans h.owner
  current := h'.current.trans h.current
  kept i page here := h'.kept i page (h.kept i page here)
  others ne := (h'.others ne).trans (h.others ne)
  own held := h'.own (h.own held)

/-- A fetch appends no page. -/
theorem Fetches.numPages (h : e.Fetches e' t) (f : HeapFile) : e'.numPages f = e.numPages f := by
  rw [Engine.numPages, Engine.numPages, h.disk]

theorem Fetches.whole (h : e.Fetches e' t) (whole : e.Whole f) : e'.Whole f := by
  rwa [Whole, octets, h.disk]

/-- A page that is barred stays so while its transaction fetches others. -/
theorem Fetches.barred (h : e.Fetches e' t) (barred : e.Barred t f n) : e'.Barred t f n := by
  refine ⟨h.own barred.1, fun slot inside => ?_⟩
  rw [h.current]
  exact barred.2 slot inside

/-- Where an insertion stands that has not had to wait: the pages before the next one are full, and
nothing has been changed but that a page may have been appended. -/
inductive Searching (start : Engine) (t : TxnId) (f : HeapFile) : Engine → InsertStage → Prop where
  | check {e : Engine} (fetches : start.Fetches e t) : Searching start t f e .check
  | probe {e : Engine} {n : Nat} (fetches : start.Fetches e t) (within : n ≤ start.numPages f)
    (full : ∀ m < n, e.Barred t f m) : Searching start t f e (.probe n (start.numPages f))
  | fill {e : Engine} {n : Nat} (fetches : start.Fetches e t) (inside : n < start.numPages f)
    (full : ∀ m < n, e.Barred t f m) : Searching start t f e (.fill n (start.numPages f))
  | grow {e : Engine} (fetches : start.Fetches e t) (full : ∀ m < start.numPages f, e.Barred t f m) :
    Searching start t f e .grow
  | settle {e : Engine} (fetches : start.Fetches e t)
    (full : ∀ m < start.numPages f, e.Barred t f m) :
    Searching start t f (e.allocate f).1 (.settle (start.numPages f))

/-- A page that has just been appended is fetched without rows. -/
theorem Fetches.isUsed_of_allocate (h : start.Fetches e t) (found : start.catalog.file? f.id = some f)
    (whole : start.Whole f) (fetched : (e.allocate f).1.getPage t ⟨f.id, start.numPages f⟩ permission
      = (e₁, .fetched ref))
    (here : e₁.page? ref = some page) (slot : Nat) : page.isUsed slot = false := by
  have found' : e.catalog.file? f.id = some f := h.catalog ▸ found
  have grown := coherent_allocate h.coherent found' (h.whole whole)
  obtain ⟨fetches, -⟩ := fetches_getPage grown fetched
  obtain ⟨page', here', resident, -⟩ := current?_of_fetched grown fetched
  obtain rfl := Option.some.inj (here'.symm.trans here)
  have row : page'.row? slot = none := by
    rw [← h.coherent.currentRow_eq_none found' (Nat.le_of_eq (h.numPages f)),
      ← currentRow_allocate h.coherent.storable found' (h.whole whole), ← fetches.current, currentRow,
      current?_of_resident resident, Option.bind_some]
  rw [← (fetches.coherent.resident _ _ resident).1.isSome_row?, row]
  rfl

/-- A call that yields something after a fetch has got its page. -/
theorem done_of_withPage {use : Engine → PageRef → Page → Engine × Progress}
    (hs : e.withPage t p permission use = (e', .done (.ok reply))) :
    ∃ e₁ ref page, e.getPage t p permission = (e₁, .fetched ref) ∧ e₁.page? ref = some page ∧
      use e₁ ref page = (e', .done (.ok reply)) := by
  rw [withPage] at hs
  split at hs
  · cases hs
  · cases hs
  · next e₁ ref fetched =>
    split at hs
    · next page here => exact ⟨e₁, ref, page, fetched, here, hs⟩
    · cases hs

section Step

variable (found : start.catalog.file? f.id = some f) (whole : start.Whole f)

include found whole

/-- A step that goes on passes a page that is full, or comes to one with a free slot. -/
theorem Searching.step (h : Searching start t f e stage)
    (hs : e.step t (.insertInto ⟨f, tuple, true, stage⟩) = (e', .goesOn next)) :
    ∃ stage', next = .insertInto ⟨f, tuple, true, stage'⟩ ∧ Searching start t f e' stage' := by
  cases h with
  | check fetches =>
    simp only [Engine.step, stepInsert] at hs
    split at hs
    · cases hs
      exact ⟨_, rfl, fetches.numPages f ▸ .probe fetches (Nat.zero_le _)
        fun _ lt => absurd lt (Nat.not_lt_zero _)⟩
    · cases hs
  | @probe _ n fetches within full =>
    simp only [Engine.step, stepInsert] at hs
    split at hs
    · next inside =>
      obtain ⟨e₁, ref, page, fetched, here, hs⟩ := goesOn_of_withPage hs
      have fetches₁ := (fetches_getPage fetches.coherent fetched).1
      have full₁ : ∀ m < n, e₁.Barred t f m := fun m lt => fetches₁.barred (full m lt)
      cases hs
      cases passed : page.isFull with
      | true =>
        have barred := fetches.coherent.barred_of_fetched (fetches.catalog ▸ found) fetched here passed
        exact ⟨_, rfl, .probe (fetches.trans fetches₁) inside (barred_succ full₁ barred)⟩
      | false => exact ⟨_, rfl, .fill (fetches.trans fetches₁) inside full₁⟩
    · next last =>
      cases hs
      obtain rfl : n = start.numPages f := Nat.le_antisymm within (Nat.not_lt.mp last)
      exact ⟨_, rfl, .grow fetches full⟩
  | @fill _ n fetches inside full =>
    simp only [Engine.step, stepInsert] at hs
    obtain ⟨e₁, ref, page, fetched, here, hs⟩ := goesOn_of_withPage hs
    have fetches₁ := (fetches_getPage fetches.coherent fetched).1
    have full₁ : ∀ m < n, e₁.Barred t f m := fun m lt => fetches₁.barred (full m lt)
    split at hs
    · next passed =>
      cases hs
      have barred := fetches.coherent.barred_of_fetched (fetches.catalog ▸ found) fetched here passed
      exact ⟨_, rfl, .probe (fetches.trans fetches₁) inside (barred_succ full₁ barred)⟩
    · exact absurd hs place_ne_goesOn
  | grow fetches full =>
    obtain ⟨rfl, eq⟩ := Prod.mk.inj hs
    obtain rfl := Progress.goesOn.inj eq
    have last : (e.allocate f).2.number = start.numPages f := fetches.numPages f
    exact ⟨_, rfl, last ▸ .settle fetches full⟩
  | @settle e fetches full =>
    simp only [Engine.step, stepInsert] at hs
    obtain ⟨e₁, ref, page, fetched, here, hs⟩ := goesOn_of_withPage hs
    split at hs
    · next passed =>
      -- the page that has been appended has no rows, so it is not full
      have used := Page.isFull_iff.mp passed 0 page.layout.slotCount_pos
      rw [fetches.isUsed_of_allocate found whole fetched here] at used
      cases used
    · exact absurd hs place_ne_goesOn

/-- What an insertion that has not had to wait leads to. -/
structure Inserts (e e' : Engine) (t : TxnId) (f : HeapFile) (tuple : Tuple) (id : RecordId) : Prop
    extends e.Fills e' t f tuple id where
  /-- The slot is the first free one of the file, or the first of a new page if there is none. -/
  place : e.FirstFree f id ∧ e'.disk = e.disk ∨
    (∀ r, ¬ e.Free f r) ∧ id = ⟨⟨f.id, e.numPages f⟩, 0⟩ ∧ e'.numPages f = e.numPages f + 1 ∧
      e'.disk = e.disk.write f.location (e.octets f ++ f.layout.emptyPage)
  /-- The pages that were on the disk are there as they were. -/
  stored : ∀ p page, e.stored? p = some page → e'.stored? p = some page

omit whole in
/-- A record that is put into a page of the file, behind pages that are full, is in the first free
slot. -/
theorem inserts_of_fill (fetches : start.Fetches e t) (inside : n < start.numPages f)
    (full : ∀ m < n, e.Barred t f m)
    (fetched : e.getPage t ⟨f.id, n⟩ .readWrite = (e₁, .fetched ref)) (here : e₁.page? ref = some page)
    (hs : e₁.place t ⟨f, tuple, true, stage⟩ ref page = (e', .done (.ok reply))) :
    ∃ id ref, reply = .inserted id ref ∧ start.Inserts e' t f tuple id := by
  obtain ⟨fetches₁, spec⟩ := fetches_getPage fetches.coherent fetched
  obtain ⟨write, frame, held⟩ := spec ref rfl
  obtain ⟨page', here', resident, same⟩ := current?_of_fetched fetches.coherent fetched
  obtain rfl := Option.some.inj (here'.symm.trans here)
  have since := fetches.trans fetches₁
  have current := current?_of_resident resident
  obtain ⟨-, sound, layout⟩ := since.coherent.spec_of_current? (since.catalog ▸ found) current
  have full₁ : ∀ m < n, e₁.Barred t f m := fun m lt => fetches₁.barred (full m lt)
  have passed : ∀ m < page'.id.number, e₁.locks.holdsAny t ⟨f.id, m⟩ = true := by
    rw [same]
    exact fun m lt => (full₁ m lt).1
  obtain ⟨id, rfl, fills, disk, catalog, at_page, slot, unused, used⟩ :=
    fills_of_place since.coherent since.current (same.symm ▸ frame) here write (same.symm ▸ held) passed hs
  rw [same] at at_page
  -- what is in the slots of the page is what was in the slots of the file
  have row : ∀ i, start.currentRow ⟨id.page, i⟩ = page'.row? i := by
    intro i
    rw [at_page, ← since.current, currentRow, current, Option.bind_some]
  refine ⟨id, ref, rfl, fills, .inl ⟨Free.firstFree ⟨?table, ?page, ?slot, ?empty⟩ ?pages ?slots, ?disk⟩,
    ?stored⟩
  case table => rw [at_page]
  case page => rwa [at_page]
  case slot => rwa [← layout]
  case empty => exact (row id.slot).trans (Page.row?_of_not_isUsed unused)
  case pages =>
    rw [at_page]
    exact fun m lt slot inside => since.current ▸ (full₁ m lt).2 slot inside
  case slots =>
    intro i before
    rw [row, sound.isSome_row?, used i before]
  case disk => exact disk.trans since.disk
  case stored =>
    intro p old there
    rwa [stored?_congr (disk.trans since.disk) (catalog.trans since.catalog)]

/-- A record that is put into a page that has been appended, because all others are full, is in the first
slot of it. -/
theorem inserts_of_settle (fetches : start.Fetches e t)
    (full : ∀ m < start.numPages f, e.Barred t f m)
    (fetched : (e.allocate f).1.getPage t ⟨f.id, start.numPages f⟩ .readWrite = (e₁, .fetched ref))
    (here : e₁.page? ref = some page)
    (hs : e₁.place t ⟨f, tuple, true, stage⟩ ref page = (e', .done (.ok reply))) :
    ∃ id ref, reply = .inserted id ref ∧ start.Inserts e' t f tuple id := by
  have unused := fetches.isUsed_of_allocate found whole fetched here
  have found' : e.catalog.file? f.id = some f := fetches.catalog ▸ found
  have storable := fetches.coherent.storable
  have grown := coherent_allocate fetches.coherent found' (fetches.whole whole)
  obtain ⟨since, spec⟩ := fetches_getPage grown fetched
  obtain ⟨write, frame, held⟩ := spec ref rfl
  obtain ⟨page', here', resident, same⟩ := current?_of_fetched grown fetched
  obtain rfl := Option.some.inj (here'.symm.trans here)
  have rows : e₁.currentRow = start.currentRow := by
    rw [since.current, currentRow_allocate storable found' (fetches.whole whole), fetches.current]
  have passed : ∀ m < page'.id.number, e₁.locks.holdsAny t ⟨f.id, m⟩ = true := by
    rw [same]
    exact fun m lt => since.own (full m lt).1
  obtain ⟨id, rfl, fills, disk, catalog, at_page, slot, -, used⟩ :=
    fills_of_place since.coherent rows (same.symm ▸ frame) here write (same.symm ▸ held) passed hs
  -- the first slot of the page is not used, so no slot before the record's is
  have first : id.slot = 0 := by
    refine Nat.eq_zero_of_not_pos fun pos => ?_
    have taken := used 0 pos
    rw [unused] at taken
    cases taken
  have grown_disk : e'.disk = start.disk.write f.location (start.octets f ++ f.layout.emptyPage) := by
    rw [disk, since.disk, allocate_eq (fetches.whole whole), octets, octets, fetches.disk]
  refine ⟨id, ref, rfl, fills, .inr ⟨fun r free => ?none_free, ?place, ?pages, grown_disk⟩, ?stored⟩
  case none_free =>
    have crowded : start.Crowded f r.page.number := fun slot inside =>
      fetches.current ▸ (full _ free.page).2 slot inside
    exact crowded.not_free rfl free
  case place => exact congrArg₂ RecordId.mk (at_page.trans same) first
  case pages =>
    have place := (storable.of_file? found').1
    rw [numPages_eq, octets, grown_disk, FileTree.content_write place,
      HeapFile.numPages_append whole, numPages_eq]
  case stored =>
    intro p old there
    rw [stored?_congr (disk.trans since.disk) (catalog.trans since.catalog)]
    refine stored?_allocate storable found' (fetches.whole whole) ?_
    rwa [stored?_congr fetches.disk fetches.catalog]

/-- A step that yields something has filled the first free slot, or the first of a new page. -/
theorem Searching.inserts (h : Searching start t f e stage)
    (hs : e.step t (.insertInto ⟨f, tuple, true, stage⟩) = (e', .done (.ok reply))) :
    ∃ id ref, reply = .inserted id ref ∧ start.Inserts e' t f tuple id := by
  cases h with
  | check =>
    simp only [Engine.step, stepInsert] at hs
    split at hs
    · cases hs
    · cases hs
  | probe =>
    simp only [Engine.step, stepInsert] at hs
    split at hs
    · obtain ⟨e₁, ref, page, -, -, hs⟩ := done_of_withPage hs
      cases hs
    · cases hs
  | grow => cases hs
  | @fill _ n fetches inside full =>
    simp only [Engine.step, stepInsert] at hs
    obtain ⟨e₁, ref, page, fetched, here, hs⟩ := done_of_withPage hs
    split at hs
    · cases hs
    · exact inserts_of_fill found fetches inside full fetched here hs
  | @settle e fetches full =>
    simp only [Engine.step, stepInsert] at hs
    obtain ⟨e₁, ref, page, fetched, here, hs⟩ := done_of_withPage hs
    split at hs
    · cases hs
    · exact inserts_of_settle found whole fetches full fetched here hs

/-- A run of an insertion that yields something has not had to wait. -/
theorem Searching.run {fuel : Nat} {last : Call} (h : Searching start t f e stage)
    (ran : runSteps t fuel e (.insertInto ⟨f, tuple, true, stage⟩) = (e', .over last (.ok reply))) :
    ∃ id ref, reply = .inserted id ref ∧ start.Inserts e' t f tuple id := by
  induction fuel generalizing e stage with
  | zero => cases ran
  | succ fuel ih =>
    rw [runSteps] at ran
    split at ran
    · next e₁ result hs =>
      cases ran
      exact h.inserts found whole hs
    · next e₁ next hs =>
      obtain ⟨stage', rfl, h'⟩ := h.step found whole hs
      exact ih h' ran
    · cases ran

end Step

/-- **Where a record goes.** In a file of whole pages, whatever is in memory: an insertion that yields a
record id, and so has not had to wait, has put the record there. The place is the first free slot of the
file, or, if no slot is free, the first slot of one more page. The record is an unwritten change of its
transaction, which has locked the page for itself, and has locked all pages before it. No other slot of any
table has changed, nor has any page that was on the disk. -/
theorem inserts_of_call {table : TableId} (h : e.Coherent) (found : e.catalog.file? table = some f)
    (whole : e.Whole f) (called : e.call t (.insert table tuple) = (e', .ok reply)) :
    ∃ id ref, reply = .inserted id ref ∧ e.Inserts e' t f tuple id := by
  obtain rfl := Catalog.id_of_file? found
  rw [call] at called
  split at called
  · next e₁ last result ran =>
    obtain ⟨rfl, rfl⟩ := Prod.mk.inj called
    obtain ⟨fuel, enough⟩ : ∃ fuel, e.stepBound (.insert f.id tuple) = fuel + 1 := ⟨_, rfl⟩
    have insert : e.step t (.insert f.id tuple)
        = (e, .goesOn (.insertInto ⟨f, tuple, true, .check⟩)) := by
      rw [step, file_eq_ok.mpr found]
    rw [run, enough, runSteps, insert] at ran
    exact Searching.run found whole (.check (.refl h)) ran
  · cases called

/-- Two pages are filled and committed, and then the first slot of the second page is freed. -/
def gapped : List TrafficEvent :=
  Traffic.inserting ⟨1⟩ 5 5 ++ Traffic.inserting ⟨1⟩ 3 4 ++ [.complete ⟨1⟩ true ∅]
    ++ Traffic.inserting ⟨1⟩ 4 6 ++ [.complete ⟨1⟩ true ∅]
    ++ Traffic.inserting ⟨1⟩ 6 5 ++ [.complete ⟨1⟩ true ∅]
    ++ [.start ⟨1⟩ (.delete (some ⟨⟨.file ["t"], 1⟩, 0⟩)), .step ⟨1⟩, .step ⟨1⟩, .step ⟨1⟩,
      .complete ⟨1⟩ true ∅]

/-- After `gapped` one page fits memory, and another transaction puts its record into the gap. -/
theorem inserts_of_call_gapped : ∃ s e' ref, (Traffic.quiet .sample).run gapped = some s ∧
    s.engine.Coherent ∧ s.engine.catalog.file? (.file ["t"]) = some numbers ∧
    s.engine.Whole numbers ∧
    s.engine.call ⟨2⟩ (.insert (.file ["t"]) ⟨numbers.schema, [.int 9], none⟩)
      = (e', .ok (.inserted ⟨⟨.file ["t"], 1⟩, 0⟩ ref)) ∧
    s.engine.Inserts e' ⟨2⟩ numbers ⟨numbers.schema, [.int 9], none⟩
      ⟨⟨.file ["t"], 1⟩, 0⟩ := by
  have ran : ((Traffic.quiet .sample).run gapped).map (fun s =>
      (s.engine.catalog.file? (.file ["t"]), (s.engine.octets numbers).length,
        (s.engine.call ⟨2⟩ (.insert (.file ["t"]) ⟨numbers.schema, [.int 9], none⟩)).2.toOption))
      = some (some numbers, 18, some (.inserted ⟨⟨.file ["t"], 1⟩, 0⟩ ⟨5, .readWrite⟩)) := by
    decide +kernel
  obtain ⟨s, run, told⟩ := Option.map_eq_some_iff.mp ran
  simp only [Prod.mk.injEq] at told
  obtain ⟨found, length, yields⟩ := told
  have coherent := (Traffic.Sound.run fresh_sample run).engine.toCoherent
  have whole : s.engine.Whole numbers := by
    rw [Whole, HeapFile.Whole, HeapFile.numPages, length]
    decide
  have called : s.engine.call ⟨2⟩ (.insert (.file ["t"]) ⟨numbers.schema, [.int 9], none⟩)
      = (_, .ok (.inserted ⟨⟨.file ["t"], 1⟩, 0⟩ ⟨5, .readWrite⟩)) :=
    Prod.ext rfl (toOption_eq_some.mp yields)
  obtain ⟨id, ref, eq, inserts⟩ := inserts_of_call coherent found whole called
  obtain ⟨rfl, rfl⟩ := Reply.inserted.inj eq
  exact ⟨s, _, _, run, coherent, found, whole, called, inserts⟩

end RowStore.Engine
