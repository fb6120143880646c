import Mathlib.Data.List.Induction
import RowStore.Proofs.Scan.Draining
import RowStore.Proofs.Traffic.Files
import RowStore.Proofs.Traffic.Rescan
import RowStore.Proofs.Traffic.Room

/-! # How much one transaction can write
A page with unwritten changes cannot leave memory, so what one transaction can insert is bounded by the
pages that fit there. A transaction that is alone with a table without rows (`Vacant`) fills it slot by
slot and page by page (`Filling`), and each insertion either fills the next slot or, when as many pages
are full as fit memory, changes nothing (`InsertEnd`, `Filling.exists_call`). -/

namespace RowStore

namespace HeapFile

variable {f : HeapFile} {n slot count : Nat} {first : Rows} {rows : List (List Value)}
  {values : List Value}

/-! ## Places -/

/-- The record id of the `i`-th of the rows that fill a table from its first page on. -/
def place (f : HeapFile) (i : Nat) : RecordId :=
  ⟨⟨f.id, i / f.layout.slotCount⟩, i % f.layout.slotCount⟩

/-- The number of pages that so many rows take. -/
def pagesFor (f : HeapFile) (count : Nat) : Nat :=
  (count + f.layout.slotCount - 1) / f.layout.slotCount

theorem lt_pagesFor_iff : n < f.pagesFor count ↔ n * f.layout.slotCount < count := by
  have pos := f.layout.slotCount_pos
  rw [pagesFor, Nat.lt_iff_add_one_le, Nat.le_div_iff_mul_le pos, Nat.succ_mul]
  omega

theorem pagesFor_le_iff : f.pagesFor count ≤ n ↔ count ≤ n * f.layout.slotCount := by
  rw [← Nat.not_lt, lt_pagesFor_iff, Nat.not_lt]

theorem pagesFor_succ : f.pagesFor (count + 1) = count / f.layout.slotCount + 1 := by
  have pos := f.layout.slotCount_pos
  rw [pagesFor, Nat.add_right_comm, Nat.add_sub_cancel, Nat.add_div_right _ pos]

theorem div_le_pagesFor (f : HeapFile) (count : Nat) : count / f.layout.slotCount ≤ f.pagesFor count := by
  have pos := f.layout.slotCount_pos
  exact Nat.div_le_div_right (by omega)

/-- One row more takes the page of its place. -/
theorem lt_pagesFor_succ_iff : n < f.pagesFor (count + 1) ↔
    n = count / f.layout.slotCount ∨ n < f.pagesFor count := by
  have pos := f.layout.slotCount_pos
  rw [pagesFor_succ, Nat.lt_succ_iff]
  constructor
  · intro le
    rcases Nat.eq_or_lt_of_le le with eq | lt
    · exact .inl eq
    · refine .inr (lt_pagesFor_iff.mpr ?_)
      exact Nat.lt_of_lt_of_le (Nat.mul_lt_mul_of_pos_right lt pos) (Nat.div_mul_le_self ..)
  · rintro (rfl | lt)
    · exact Nat.le_refl _
    · exact (Nat.le_div_iff_mul_le pos).mpr (Nat.le_of_lt (lt_pagesFor_iff.mp lt))

theorem place_eq_iff (inside : slot < f.layout.slotCount) {i : Nat} :
    (⟨⟨f.id, n⟩, slot⟩ : RecordId) = f.place i ↔ n * f.layout.slotCount + slot = i := by
  have pos := f.layout.slotCount_pos
  simp only [place, RecordId.mk.injEq, PageId.mk.injEq, true_and]
  constructor
  · rintro ⟨rfl, rfl⟩
    exact Nat.div_add_mod' ..
  · rintro rfl
    refine ⟨?_, (Nat.mul_add_mod_of_lt inside).symm⟩
    rw [Nat.add_comm, Nat.add_mul_div_right _ _ pos, Nat.div_eq_of_lt inside, Nat.zero_add]

/-- Rows that are inserted, each in its place. -/
def insertions (f : HeapFile) (rows : List (List Value)) : List Change :=
  rows.zipIdx.map fun (values, i) => ⟨f.place i, some values⟩

theorem insertions_concat : f.insertions (rows ++ [values])
    = f.insertions rows ++ [⟨f.place rows.length, some values⟩] := by
  simp [insertions, List.zipIdx_append]

/-- The row in a slot after insertions. -/
theorem after_insertions (inside : slot < f.layout.slotCount) :
    first.after (f.insertions rows) ⟨⟨f.id, n⟩, slot⟩
      = rows[n * f.layout.slotCount + slot]?.or (first ⟨⟨f.id, n⟩, slot⟩) := by
  induction rows using List.reverseRecOn with
  | nil => rfl
  | append_singleton rows values ih =>
    rw [insertions_concat, Rows.after_append, Rows.after_singleton, ih]
    split
    · next here =>
      rw [(place_eq_iff inside).mp here, List.getElem?_concat_length, Option.some_or]
    · next other =>
      have apart : n * f.layout.slotCount + slot ≠ rows.length := mt (place_eq_iff inside).mpr other
      rcases Nat.lt_or_gt_of_ne apart with lt | gt
      · rw [List.getElem?_append_left lt]
      · rw [List.getElem?_eq_none (Nat.le_of_lt gt), List.getElem?_eq_none]
        rw [List.length_append, List.length_singleton]
        exact gt

/-- Whether a record can be inserted into a table: its columns have the types of those of the table, which
allow its values. -/
structure Accepts (f : HeapFile) (tuple : Tuple) : Prop where
  types : tuple.schema.types = f.schema.types
  fits : f.schema.validate tuple.values = .ok ()

end HeapFile

namespace Engine

variable {start e e' : Engine} {t : TxnId} {f : HeapFile} {rows : List (List Value)} {tuple : Tuple}
  {n : Nat} {c : Call} {progress : Progress} {result : Except FileError Reply}

/-- A table without rows that a transaction has for itself, while nobody has unwritten changes. -/
structure Vacant (e : Engine) (t : TxnId) (f : HeapFile) : Prop where
  alone : e.Alone t
  registered : e.catalog.file? f.id = some f
  whole : e.Whole f
  empty : ∀ n slot, e.storedRow ⟨⟨f.id, n⟩, slot⟩ = none
  clean : ∀ p, e.owner? p = none

/-- A file without octets is a table without rows. -/
theorem Alone.vacant (h : e.Alone t) (found : e.catalog.file? f.id = some f)
    (clean : ∀ p, e.owner? p = none) (nothing : e.octets f = []) : e.Vacant t f where
  alone := h
  registered := found
  whole := by
    have pos := f.pageSize_pos
    have no_pages : f.numPages [] = 0 := by
      rw [HeapFile.numPages, List.length_nil, Nat.zero_add]
      exact Nat.div_eq_of_lt (Nat.sub_one_lt_of_lt pos)
    rw [Whole, HeapFile.Whole, nothing, no_pages, HeapFile.offset, Nat.zero_mul, List.length_nil]
  empty n slot := by
    have unstored : e.stored? ⟨f.id, n⟩ = none := by
      rw [Option.eq_none_iff_forall_ne_some]
      intro page here
      obtain ⟨-, -, -, g, found', -, covers⟩ := spec_of_stored? here
      obtain rfl : g = f := Option.some.inj (found'.symm.trans found)
      have pos := g.pageSize_pos
      rw [nothing, HeapFile.Covers, HeapFile.offset_succ, List.length_nil] at covers
      omega
    rw [storedRow, unstored, Option.bind_none]
  clean := clean

/-- The number of rows that fit into the pages that fit into memory. -/
def rowsInMemory (e : Engine) (f : HeapFile) : Nat :=
  e.pool.capacity * f.layout.slotCount

/-! ## Filling a table -/

/-- Where a transaction stands that has put rows into a table without rows, and has changed nothing else
since it has begun. -/
structure Filling (start : Engine) (t : TxnId) (f : HeapFile) (rows : List (List Value)) (e : Engine) :
    Prop where
  alone : e.Alone t
  files : start.Extends e
  disk : start.disk.Rewrites e.disk start.catalog.Places
  keeps : start.pool.Keeps e.pool
  stored : e.storedRow = start.storedRow
  current : e.currentRow = Rows.after start.storedRow (f.insertions rows)
  /-- The pages with unwritten changes are those with rows. -/
  owned : ∀ p, (e.owner? p).isSome = true ↔
    p.table = f.id ∧ p.number < f.pagesFor rows.length

theorem Vacant.filling (h : e.Vacant t f) : Filling e t f [] e where
  alone := h.alone
  files := .of_disk rfl rfl
  disk := .refl _ _
  keeps := .refl _
  stored := rfl
  current := by
    funext r
    exact h.alone.sound.currentRow_of_owner? (h.clean r.page) r.slot
  owned p := by simp [h.clean p, HeapFile.lt_pagesFor_iff]

namespace Filling

/-- A step that changes no row leaves the transaction where it stands. -/
theorem quiet_step (h : Filling start t f rows e) (hc : c.Sound e)
    (hs : e.step t c = (e', progress)) (quiet : Change.of? c progress = none) :
    Filling start t f rows e' := by
  obtain ⟨steps, -⟩ := steps_step h.alone.sound hc hs
  rw [quiet] at steps
  have wrote := rewrites_step h.alone.sound hc hs
  rw [h.files.catalog] at wrote
  refine ⟨h.alone.step hc hs, h.files.trans steps.files, h.disk.trans wrote,
    h.keeps.trans (keeps_step h.alone.sound hc hs), steps.stored.trans h.stored, ?_, fun p => ?_⟩
  · rw [steps.current, Option.toList_none, Rows.after_nil, h.current]
  · rw [steps.owner, Option.map_none, if_neg (by simp)]
    exact h.owned p

/-- A step that fills the next place adds a row. -/
theorem inserting_step (h : Filling start t f rows e) {i : Insertion} (hc : i.Sound e) {ref : PageRef}
    (hs : e.step t (.insertInto i) = (e', .done (.ok (.inserted (f.place rows.length) ref)))) :
    Filling start t f (rows ++ [i.tuple.values]) e' := by
  obtain ⟨steps, -⟩ := steps_step h.alone.sound (c := .insertInto i) hc hs
  have wrote := rewrites_step (c := .insertInto i) h.alone.sound hc hs
  rw [h.files.catalog] at wrote
  refine ⟨h.alone.step (c := .insertInto i) hc hs, h.files.trans steps.files, h.disk.trans wrote,
    h.keeps.trans (keeps_step h.alone.sound (c := .insertInto i) hc hs),
    steps.stored.trans h.stored, ?_, fun p => ?_⟩
  · rw [steps.current, h.current, HeapFile.insertions_concat, Rows.after_append]
    rfl
  · rw [steps.owner, List.length_append, List.length_singleton, HeapFile.lt_pagesFor_succ_iff]
    by_cases here : p = (f.place rows.length).page
    · subst here
      simp [Change.of?, HeapFile.place]
    · have away : ¬ (p.table = f.id ∧ p.number = rows.length / f.layout.slotCount) := by
        rintro ⟨table, number⟩
        exact here (by rw [HeapFile.place, ← table, ← number])
      rw [if_neg (by simpa [Change.of?] using Ne.symm here), h.owned]
      tauto

section Filling

variable (v : start.Vacant t f) (h : Filling start t f rows e)

include v h

theorem registered : e.catalog.file? f.id = some f :=
  h.files.catalog ▸ v.registered

theorem whole : e.Whole f :=
  h.files.whole v.registered v.whole

/-- The rows in the slots are those that have been inserted. -/
theorem currentRow_eq {slot : Nat} (inside : slot < f.layout.slotCount) :
    e.currentRow ⟨⟨f.id, n⟩, slot⟩ = rows[n * f.layout.slotCount + slot]? := by
  rw [h.current, HeapFile.after_insertions inside, v.empty, Option.or_none]

omit v in
theorem dirtyCount_eq : e.pool.dirtyCount = f.pagesFor rows.length := by
  have dirty := h.alone.sound.pool.dirtyCount_eq
    ((List.range (f.pagesFor rows.length)).map (⟨f.id, ·⟩)) ?distinct ?dirty
  · rwa [List.length_map, List.length_range] at dirty
  case distinct => exact List.nodup_range.map fun m n eq => (PageId.mk.inj eq).2
  case dirty =>
    rintro ⟨table, number⟩
    refine Iff.trans ?_ (h.owned ⟨table, number⟩).symm
    simp [eq_comm, and_comm]

omit v in
/-- No more pages have unwritten changes than fit into memory. -/
theorem pagesFor_le : f.pagesFor rows.length ≤ start.pool.capacity := by
  have few : e.pool.dirtyCount ≤ e.pool.resident.length := List.countP_le_length
  rw [← h.dirtyCount_eq, ← h.keeps.capacity]
  exact Nat.le_trans few h.alone.within

/-- The pages with rows are pages of the file. -/
theorem pagesFor_le_numPages : f.pagesFor rows.length ≤ e.numPages f := by
  refine Nat.le_of_not_lt fun lt => ?_
  obtain ⟨u, owner⟩ := Option.isSome_iff_exists.mp ((h.owned ⟨f.id, e.numPages f⟩).mpr ⟨rfl, lt⟩)
  obtain ⟨page, here, -⟩ := Option.bind_eq_some_iff.mp owner
  exact Nat.lt_irrefl _ (h.alone.sound.lt_numPages (h.registered v) here)

/-- The page of the next place can be fetched if not as many rows have been inserted as fit into memory. -/
theorem exists_fetched_iff (there : rows.length / f.layout.slotCount < e.numPages f)
    (permission : Permission) :
    (∃ e' ref, e.getPage t (f.place rows.length).page permission = (e', .fetched ref)) ↔
      rows.length < start.rowsInMemory f := by
  have pos := f.layout.slotCount_pos
  have within := h.pagesFor_le
  rw [HeapFile.place, h.alone.exists_fetched_iff (h.registered v) (h.whole v) there, h.owned,
    h.dirtyCount_eq, h.keeps.capacity, and_iff_right rfl, rowsInMemory, ← Nat.div_lt_iff_lt_mul pos]
  constructor
  · rintro (owned | room)
    · exact Nat.lt_of_lt_of_le owned within
    · exact Nat.lt_of_le_of_lt (f.div_le_pagesFor _) room
  · intro lt
    refine or_iff_not_imp_left.mpr fun unowned => ?_
    exact Nat.lt_of_le_of_lt (Nat.le_of_not_lt unowned) lt

/-- What is known of a page of the table that has been fetched: the slots of the places that are taken
are used. -/
theorem page_of_fetched {permission : Permission} {ref : PageRef}
    (fetched : e.getPage t ⟨f.id, n⟩ permission = (e', .fetched ref)) :
    ∃ page, e'.page? ref = some page ∧ page.id = ⟨f.id, n⟩ ∧ page.layout = f.layout ∧
      ∀ slot < f.layout.slotCount,
        page.isUsed slot = true ↔ n * f.layout.slotCount + slot < rows.length := by
  obtain ⟨fetches, -⟩ := fetches_getPage h.alone.sound.toCoherent fetched
  obtain ⟨page, here, current, id⟩ := current?_of_fetched h.alone.sound.toCoherent fetched
  have found : e'.catalog.file? f.id = some f := fetches.catalog ▸ h.registered v
  have yields := current?_of_resident current
  obtain ⟨-, sound, layout⟩ := fetches.coherent.spec_of_current? (p := ⟨f.id, n⟩) found yields
  refine ⟨page, here, id, layout, fun slot inside => ?_⟩
  have row : page.row? slot = rows[n * f.layout.slotCount + slot]? := by
    rw [← h.currentRow_eq v inside, ← fetches.current, currentRow, yields, Option.bind_some]
  rw [← sound.isSome_row?, row]
  simp

/-- The page of the next place has this slot free, and all before it are used. -/
theorem freeSlot?_of_fetched {permission : Permission} {ref : PageRef}
    (fetched : e.getPage t (f.place rows.length).page permission = (e', .fetched ref)) :
    ∃ page, e'.page? ref = some page ∧ page.id = (f.place rows.length).page ∧
      page.layout = f.layout ∧ page.freeSlot? = some (f.place rows.length).slot := by
  obtain ⟨page, here, id, layout, used⟩ := h.page_of_fetched v fetched
  have inside : rows.length % f.layout.slotCount < f.layout.slotCount :=
    Nat.mod_lt _ f.layout.slotCount_pos
  have next : rows.length / f.layout.slotCount * f.layout.slotCount
      + rows.length % f.layout.slotCount = rows.length := Nat.div_add_mod' ..
  have free : page.isUsed (rows.length % f.layout.slotCount) = false := by
    rw [Bool.eq_false_iff, Ne, used _ inside, next]
    exact Nat.lt_irrefl _
  have taken : ∀ i < rows.length % f.layout.slotCount, page.isUsed i = true := by
    intro i before
    rw [used i (Nat.lt_trans before inside)]
    exact Nat.lt_of_lt_of_eq (Nat.add_lt_add_left before _) next
  refine ⟨page, here, id, layout, Page.freeSlot?_eq_some_iff.mpr ⟨?_, free, taken⟩⟩
  rw [Page.slotCount, layout]
  exact inside

end Filling

end Filling

/-! ## One insertion -/

/-- What comes of an insertion into a table that is being filled. -/
inductive InsertEnd (start : Engine) (t : TxnId) (f : HeapFile) (rows : List (List Value))
    (values : List Value) : Engine → Except FileError Reply → Prop where
  /-- The next place is filled. -/
  | inserted {e : Engine} {ref : PageRef}
      (room : rows.length < start.rowsInMemory f)
      (filling : Filling start t f (rows ++ [values]) e) :
      InsertEnd start t f rows values e (.ok (.inserted (f.place rows.length) ref))
  /-- Nothing is changed: as many rows have been inserted as fit into memory. -/
  | refused {e : Engine} (full : start.rowsInMemory f ≤ rows.length)
      (filling : Filling start t f rows e) :
      InsertEnd start t f rows values e (.error .poolFull)

/-- A page with a free slot takes a record with its types. -/
theorem exists_place {i : Insertion} {ref : PageRef} {page : Page} {slot : Nat} (h : e.Coherent)
    (resident : e.pool.frame? page.id = some ref.frame) (write : ref.permission = .readWrite)
    (noted : i.noted = true) (types : i.tuple.schema.types = page.layout.schema.types)
    (free : page.freeSlot? = some slot) :
    ∃ e', e.place t i ref page = (e', .done (.ok (.inserted ⟨page.id, slot⟩ ref))) := by
  obtain ⟨new, inserted⟩ := Page.exists_insert types free
  obtain ⟨-, -, -, same, -⟩ := Page.insert_cases inserted
  simp only [place, inserted, noted]
  exact ⟨_, endChange_of_resident h.pool (same ▸ resident) write _⟩

/-- A run of steps begins with the first step, and goes on with the others. -/
theorem runSteps_of_goesOn {next : Call} (hs : e.step t c = (e', .goesOn next)) (fuel : Nat) :
    runSteps t (fuel + 1) e c = runSteps t fuel e' next := by
  rw [runSteps, hs]

theorem runSteps_of_done (hs : e.step t c = (e', .done result)) (fuel : Nat) :
    runSteps t (fuel + 1) e c = (e', .over c result) := by
  rw [runSteps, hs]

namespace Filling

variable (v : start.Vacant t f) (h : Filling start t f rows e) (accepts : f.Accepts tuple)

include v h accepts

theorem sound_insertInto (stage : InsertStage) : Insertion.Sound e ⟨f, tuple, true, stage⟩ where
  noted := rfl
  complete := by
    have size := congrArg List.length accepts.types
    simp only [Schema.types, List.length_map] at size
    have fits := accepts.fits
    rw [Schema.validate] at fits
    split at fits
    · next complete => exact complete.trans size.symm
    · cases fits
  registered := h.registered v
  stage := by
    have whole := h.whole v
    cases stage with
    | check => trivial
    | probe | fill => exact .inl whole
    | grow | settle => exact whole

section Write

variable (stage : InsertStage) (next : Call)
  (asks : (Call.insertInto ⟨f, tuple, true, stage⟩).asks?
    = some ((f.place rows.length).page, .readWrite))
  (form : e.step t (.insertInto ⟨f, tuple, true, stage⟩)
    = e.withPage t (f.place rows.length).page .readWrite fun e ref page =>
        if page.isFull then (e, .goesOn next) else e.place t ⟨f, tuple, true, stage⟩ ref page)

include asks form

/-- An insertion ends at the page of the next place. -/
theorem exists_write (there : rows.length / f.layout.slotCount < e.numPages f) :
    ∃ e' result, e.step t (.insertInto ⟨f, tuple, true, stage⟩) = (e', .done result) ∧
      InsertEnd start t f rows tuple.values e' result ∧ e'.numPages f = e.numPages f := by
  have sound := h.sound_insertInto v accepts stage
  have same_pages : ∀ {e' progress},
      e.step t (.insertInto ⟨f, tuple, true, stage⟩) = (e', progress) →
        e'.numPages f = e.numPages f := by
    intro e' progress hs
    rw [numPages, numPages, disk_of_asks h.alone.sound (c := .insertInto _) sound asks hs]
  by_cases room : rows.length < start.rowsInMemory f
  · obtain ⟨e₁, ref, fetched⟩ := (h.exists_fetched_iff v there .readWrite).mpr room
    obtain ⟨page, here, id, layout, free⟩ := h.freeSlot?_of_fetched v fetched
    obtain ⟨fetches, spec⟩ := fetches_getPage h.alone.sound.toCoherent fetched
    obtain ⟨write, resident, -⟩ := spec ref rfl
    have not_full : page.isFull = false := by
      rw [Page.isFull, free]
      rfl
    have types : tuple.schema.types = page.layout.schema.types := layout ▸ accepts.types
    obtain ⟨e', placed⟩ := exists_place (t := t) (i := ⟨f, tuple, true, stage⟩) fetches.coherent
      (id ▸ resident) write rfl types free
    have step : e.step t (.insertInto ⟨f, tuple, true, stage⟩)
        = (e', .done (.ok (.inserted (f.place rows.length) ref))) := by
      simp only [form, withPage, fetched, here, not_full, placed, id]
      rfl
    exact ⟨e', _, step, .inserted room (h.inserting_step sound step), same_pages step⟩
  · rcases h.alone.fetched_or_poolFull (h.registered v) (h.whole v) there .readWrite with
      fetched | ⟨e', failed⟩
    · exact absurd ((h.exists_fetched_iff v there .readWrite).mp fetched) room
    · have step : e.step t (.insertInto ⟨f, tuple, true, stage⟩)
          = (e', .done (.error .poolFull)) := by
        rw [form, withPage]
        simp only [HeapFile.place, failed]
      exact ⟨e', _, step, .refused (Nat.not_lt.mp room)
        (h.quiet_step (c := .insertInto _) sound step (Change.of?_error ..)), same_pages step⟩

end Write

/-- A step that looks into a page of the file fetches the page, if it can, and changes nothing. -/
theorem probe_step {counted : Nat} (inside : n < counted)
    (hs : e.step t (.insertInto ⟨f, tuple, true, .probe n counted⟩) = (e', progress))
    (quiet : Change.of? (.insertInto ⟨f, tuple, true, .probe n counted⟩) progress = none) :
    Filling start t f rows e' ∧ e'.numPages f = e.numPages f := by
  have sound := h.sound_insertInto v accepts (.probe n counted)
  have asks : (Call.insertInto ⟨f, tuple, true, .probe n counted⟩).asks?
      = some (⟨f.id, n⟩, .readOnly) := if_pos inside
  refine ⟨h.quiet_step (c := .insertInto _) sound hs quiet, ?_⟩
  rw [numPages, numPages, disk_of_asks h.alone.sound (c := .insertInto _) sound asks hs]

/-- A page that is full is passed. -/
theorem exists_probe_full {counted : Nat} (before : n < rows.length / f.layout.slotCount)
    (inside : n < counted) : ∃ e', e.step t (.insertInto ⟨f, tuple, true, .probe n counted⟩)
        = (e', .goesOn (.insertInto ⟨f, tuple, true, .probe (n + 1) counted⟩)) ∧
      Filling start t f rows e' ∧ e'.numPages f = e.numPages f := by
  have pos := f.layout.slotCount_pos
  have taken : n < f.pagesFor rows.length := Nat.lt_of_lt_of_le before (f.div_le_pagesFor _)
  have there : n < e.numPages f := Nat.lt_of_lt_of_le taken (h.pagesFor_le_numPages v)
  have owned : (e.owner? ⟨f.id, n⟩).isSome = true := (h.owned ⟨f.id, n⟩).mpr ⟨rfl, taken⟩
  obtain ⟨e', ref, fetched⟩ := (h.alone.exists_fetched_iff (h.registered v) (h.whole v) there
    .readOnly).mpr (.inl owned)
  obtain ⟨page, here, -, layout, used⟩ := h.page_of_fetched v fetched
  have full : page.isFull = true := by
    refine Page.isFull_iff.mpr fun slot inside => ?_
    rw [Page.slotCount, layout] at inside
    have below := (Nat.le_div_iff_mul_le pos).mp before
    rw [Nat.succ_mul] at below
    exact (used slot inside).mpr (Nat.lt_of_lt_of_le (Nat.add_lt_add_left inside _) below)
  have step : e.step t (.insertInto ⟨f, tuple, true, .probe n counted⟩)
      = (e', .goesOn (.insertInto ⟨f, tuple, true, .probe (n + 1) counted⟩)) := by
    simp only [Engine.step, stepInsert, if_pos inside, withPage, fetched, here, full, if_true]
  exact ⟨e', step, h.probe_step v accepts inside step rfl⟩

/-- The search comes to the page of the next place. -/
theorem exists_search {counted : Nat} (enough : rows.length / f.layout.slotCount ≤ counted)
    (before : n ≤ rows.length / f.layout.slotCount) :
    ∃ e', Filling start t f rows e' ∧ e'.numPages f = e.numPages f ∧ ∀ fuel,
      runSteps t (fuel + (rows.length / f.layout.slotCount - n)) e
          (.insertInto ⟨f, tuple, true, .probe n counted⟩)
        = runSteps t fuel e'
          (.insertInto ⟨f, tuple, true, .probe (rows.length / f.layout.slotCount) counted⟩) := by
  generalize left : rows.length / f.layout.slotCount - n = pages
  induction pages generalizing e n with
  | zero =>
    obtain rfl : n = rows.length / f.layout.slotCount := Nat.le_antisymm before (Nat.le_of_sub_eq_zero left)
    exact ⟨e, h, rfl, fun _ => rfl⟩
  | succ pages ih =>
    have lt : n < rows.length / f.layout.slotCount := Nat.lt_of_sub_eq_succ left
    obtain ⟨e₁, step, h₁, same₁⟩ := h.exists_probe_full v accepts lt (Nat.lt_of_lt_of_le lt enough)
    obtain ⟨e', h', same, ran⟩ := ih h₁ lt (by omega)
    refine ⟨e', h', same.trans same₁, fun fuel => ?_⟩
    rw [← ran fuel, ← Nat.add_assoc, runSteps_of_goesOn step]

/-- An insertion that finds the page of the next place in the file ends there. -/
theorem exists_found (there : rows.length / f.layout.slotCount < e.numPages f) (fuel : Nat) :
    ∃ e' last result, runSteps t (fuel + 2) e
        (.insertInto ⟨f, tuple, true, .probe (rows.length / f.layout.slotCount) (e.numPages f)⟩)
        = (e', .over last result) ∧
      InsertEnd start t f rows tuple.values e' result ∧ e'.numPages f = e.numPages f := by
  by_cases room : rows.length < start.rowsInMemory f
  · obtain ⟨e₁, ref, fetched⟩ := (h.exists_fetched_iff v there .readOnly).mpr room
    obtain ⟨page, here, -, -, free⟩ := h.freeSlot?_of_fetched v fetched
    have not_full : page.isFull = false := by
      rw [Page.isFull, free]
      rfl
    have step : e.step t
        (.insertInto ⟨f, tuple, true, .probe (rows.length / f.layout.slotCount) (e.numPages f)⟩)
        = (e₁, .goesOn (.insertInto
          ⟨f, tuple, true, .fill (rows.length / f.layout.slotCount) (e.numPages f)⟩)) := by
      rw [HeapFile.place] at fetched
      simp only [Engine.step, stepInsert, if_pos there, withPage, fetched, here, not_full]
      rfl
    obtain ⟨h₁, same₁⟩ := h.probe_step v accepts there step rfl
    obtain ⟨e', result, write, ends, same⟩ := h₁.exists_write v accepts
      (.fill (rows.length / f.layout.slotCount) (e.numPages f)) _ rfl rfl (same₁ ▸ there)
    have ran := (runSteps_of_goesOn step (fuel + 1)).trans (runSteps_of_done write fuel)
    exact ⟨e', _, result, ran, ends, same.trans same₁⟩
  · rcases h.alone.fetched_or_poolFull (h.registered v) (h.whole v) there .readOnly with
      fetched | ⟨e', failed⟩
    · exact absurd ((h.exists_fetched_iff v there .readOnly).mp fetched) room
    · have step : e.step t
          (.insertInto ⟨f, tuple, true, .probe (rows.length / f.layout.slotCount) (e.numPages f)⟩)
          = (e', .done (.error .poolFull)) := by
        simp only [Engine.step, stepInsert, if_pos there, withPage, failed]
      obtain ⟨h', same⟩ := h.probe_step v accepts there step (Change.of?_error ..)
      exact ⟨e', _, _, runSteps_of_done step _, .refused (Nat.not_lt.mp room) h', same⟩

/-- An insertion that finds no page for the next place appends one, and ends there. -/
theorem exists_grown (last : rows.length / f.layout.slotCount = e.numPages f) (fuel : Nat) :
    ∃ e' last result, runSteps t (fuel + 3) e
        (.insertInto ⟨f, tuple, true, .probe (rows.length / f.layout.slotCount) (e.numPages f)⟩)
        = (e', .over last result) ∧
      InsertEnd start t f rows tuple.values e' result ∧ e'.numPages f = e.numPages f + 1 := by
  have whole := h.whole v
  have past : e.step t
      (.insertInto ⟨f, tuple, true, .probe (rows.length / f.layout.slotCount) (e.numPages f)⟩)
      = (e, .goesOn (.insertInto ⟨f, tuple, true, .grow⟩)) := by
    simp only [Engine.step, stepInsert, last, if_neg (Nat.lt_irrefl _)]
  have grow : e.step t (.insertInto ⟨f, tuple, true, .grow⟩) = ((e.allocate f).1,
      .goesOn (.insertInto ⟨f, tuple, true, .settle (rows.length / f.layout.slotCount)⟩)) := by
    rw [last]
    rfl
  have h₁ := h.quiet_step (c := .insertInto _) (h.sound_insertInto v accepts .grow) grow rfl
  have grown : (e.allocate f).1.numPages f = e.numPages f + 1 := by
    have found := h.registered v
    rw [numPages_eq, octets_allocate h.alone.sound.storable found whole found, if_pos rfl,
      HeapFile.numPages_append whole]
    rfl
  have there : rows.length / f.layout.slotCount < (e.allocate f).1.numPages f := by
    rw [grown, last]
    exact Nat.lt_succ_self _
  obtain ⟨e', result, write, ends, same⟩ := h₁.exists_write v accepts
    (.settle (rows.length / f.layout.slotCount)) _ rfl rfl there
  have ran := (runSteps_of_goesOn past (fuel + 2)).trans
    ((runSteps_of_goesOn grow (fuel + 1)).trans (runSteps_of_done write fuel))
  exact ⟨e', _, result, ran, ends, same.trans grown⟩

/-- **What one insertion does.** It fills the next place if not as many rows have been inserted as fit into
memory, and is refused otherwise. Either way the file has the page of this place then. -/
theorem exists_call : ∃ e' result, e.call t (.insert f.id tuple) = (e', result) ∧
    InsertEnd start t f rows tuple.values e' result ∧
    e'.numPages f = max (e.numPages f) (rows.length / f.layout.slotCount + 1) := by
  have found := h.registered v
  have few : rows.length / f.layout.slotCount ≤ e.numPages f :=
    Nat.le_trans (f.div_le_pagesFor _) (h.pagesFor_le_numPages v)
  have insert : e.step t (.insert f.id tuple) = (e, .goesOn (.insertInto ⟨f, tuple, true, .check⟩)) := by
    rw [Engine.step, file_eq_ok.mpr found]
  have check : e.step t (.insertInto ⟨f, tuple, true, .check⟩)
      = (e, .goesOn (.insertInto ⟨f, tuple, true, .probe 0 (e.numPages f)⟩)) := by
    simp only [Engine.step, stepInsert, Schema.compatible_iff, if_pos accepts.types]
  obtain ⟨e₁, h₁, same₁, searched⟩ := h.exists_search v accepts few (Nat.zero_le _)
  rw [Nat.sub_zero] at searched
  -- the fuel is enough for the search and for what comes after it
  obtain ⟨fuel, enough⟩ : ∃ fuel, e.stepBound (.insert f.id tuple)
      = fuel + 3 + rows.length / f.layout.slotCount + 1 + 1 := by
    refine ⟨e.stepBound (.insert f.id tuple) - (rows.length / f.layout.slotCount + 5), ?_⟩
    simp only [stepBound, stepBound.pages, found]
    omega
  have called : ∀ {e' last result}, runSteps t (fuel + 3) e₁ (.insertInto
      ⟨f, tuple, true, .probe (rows.length / f.layout.slotCount) (e.numPages f)⟩)
        = (e', .over last result) → e.call t (.insert f.id tuple) = (e', result) := by
    intro e' last result ran
    rw [call, run, enough, runSteps_of_goesOn insert, runSteps_of_goesOn check, searched, ran]
  rcases Nat.eq_or_lt_of_le few with last | there
  · obtain ⟨e', _, result, ran, ends, grown⟩ := h₁.exists_grown v accepts (last.trans same₁.symm) fuel
    rw [same₁] at ran grown
    refine ⟨e', result, called ran, ends, ?_⟩
    rw [grown, last, Nat.max_eq_right (Nat.le_succ _)]
  · obtain ⟨e', _, result, ran, ends, same⟩ :=
      h₁.exists_found v accepts (same₁.symm ▸ there) (fuel + 1)
    rw [same₁] at ran same
    refine ⟨e', result, called ran, ends, ?_⟩
    rw [same, Nat.max_eq_left (Nat.succ_le_of_lt there)]

end Filling

end Engine

end RowStore
