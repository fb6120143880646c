import RowStore.Proofs.Scan.Listing

/-! # Tables that can be read
Whoever can fetch every page of a table (`Readable`) can still do so when he or somebody else has
fetched pages to read them: locks that are shared keep nobody from sharing more, and a page that has
come into memory can leave it again. So the rows of the table stay the same and within reach
(`calm_getPage`), although its pages come and go. -/

namespace RowStore.Engine

variable {e e' e'' : Engine} {t u : TxnId} {f : HeapFile} {p q : PageId} {n : Nat} {fetch : Fetch}

/-! ## Pages that can be fetched -/

/-- Whether a page is in memory, or can be brought there. -/
def Fetchable (e : Engine) (p : PageId) : Prop :=
  (e.pool.frame? p).isSome = true ∨ (∃ page, e.readPage p = .ok page) ∧ e.pool.Roomy

theorem exists_bring_iff : (∃ brought, e.bring p = .ok brought) ↔ e.Fetchable p := by
  rw [bring, Fetchable]
  cases here : e.pool.frame? p with
  | some frame => simp
  | none =>
    simp only [bind_eq_ok, Option.isSome_none, Bool.false_eq_true, false_or]
    constructor
    · rintro ⟨brought, page, read, loaded, hl, -⟩
      exact ⟨⟨page, read⟩, Pool.exists_load_iff.mp ⟨loaded, hl⟩⟩
    · rintro ⟨⟨page, read⟩, room⟩
      obtain ⟨loaded, hl⟩ := Pool.exists_load_iff.mpr room
      exact ⟨_, page, read, loaded, hl, rfl⟩

/-- A page can be fetched if its lock is granted, and it can be brought into memory. -/
theorem exists_fetched_iff {permission : Permission} :
    (∃ e' ref, e.getPage t p permission = (e', .fetched ref)) ↔
      (e.locks.acquire t p permission.mode).2 = .granted ∧ e.Fetchable p := by
  have same : (e.asking t p permission.mode).Fetchable p ↔ e.Fetchable p := Iff.rfl
  rw [← same, ← exists_bring_iff]
  rcases hg : e.getPage t p permission with ⟨e', fetch⟩
  have gets := gets_of_getPage hg
  generalize (e.locks.acquire t p permission.mode).2 = reply at gets ⊢
  cases gets with
  | waiting | deadlock => simp
  | unserved failed => simp [failed]
  | served brought => simp [brought]

/-- A page that can be brought into memory can be read from the disk. -/
theorem Coherent.exists_readPage (h : e.Coherent) (fetchable : e.Fetchable p) :
    ∃ page, e.readPage p = .ok page := by
  rcases fetchable with resident | ⟨read, -⟩
  · obtain ⟨i, frame⟩ := Option.isSome_iff_exists.mp resident
    obtain ⟨page, at_i, -⟩ := h.pool.exists_page frame
    obtain ⟨-, stored, on_disk, -⟩ := h.resident p page (Pool.page?_eq_some.mpr ⟨i, frame, at_i⟩)
    exact ⟨stored, toOption_eq_some.mp on_disk⟩
  · exact read

/-- To bring a page into memory puts no other out of reach. -/
theorem fetchable_of_bring (h : e.Coherent) (latched : ∀ j ∈ e.pool.latched, j < e.pool.frames.size)
    {i : Nat} (hb : e.bring q = .ok (e', i)) :
    (∀ p, e.Fetchable p → e'.Fetchable p) ∧ ∀ j ∈ e'.pool.latched, j < e'.pool.frames.size := by
  rcases bring_cases hb with ⟨here, rfl⟩ | ⟨-, page, pool, read, loaded, rfl⟩
  · refine ⟨fun p fetchable => ?_, latched⟩
    rcases fetchable with resident | ⟨read, room⟩
    · left
      rw [Pool.frame?_promote]
      split
      · rfl
      · exact resident
    · exact .inr ⟨read, room.promote h.pool here⟩
  · -- the page that has come is clean, so it can make room for any other
    obtain ⟨-, clean, -⟩ := spec_of_stored? (toOption_eq_some.mpr read)
    obtain ⟨room, latched', size⟩ := Pool.roomy_of_load clean latched loaded
    refine ⟨fun p fetchable => .inr ⟨h.exists_readPage fetchable, room⟩, fun j mem => ?_⟩
    have inside := latched j (latched' ▸ mem)
    rw [size]
    exact Nat.lt_succ_of_lt inside

/-! ## Tables -/

/-- Whether a transaction can fetch each page of a table, whatever is in memory. -/
structure Readable (e : Engine) (t : TxnId) (f : HeapFile) : Prop where
  coherent : e.Coherent
  registered : e.catalog.file? f.id = some f
  loads : ∀ n < e.numPages f, ∃ e' ref, e.getPage t ⟨f.id, n⟩ .readOnly = (e', .fetched ref)
  /-- Only frames that there are are being written to. -/
  latched : ∀ i ∈ e.pool.latched, i < e.pool.frames.size

/-- What stays the same while nobody changes the rows of a table, or appends a page to it, and its pages
stay within reach of a transaction. -/
structure Calm (e e' : Engine) (t : TxnId) (f : HeapFile) : Prop where
  readable : e'.Readable t f
  numPages : e'.numPages f = e.numPages f
  rows : ∀ n slot, e'.currentRow ⟨⟨f.id, n⟩, slot⟩ = e.currentRow ⟨⟨f.id, n⟩, slot⟩

theorem Readable.calm (h : e.Readable t f) : e.Calm e t f := ⟨h, rfl, fun _ _ => rfl⟩

/-- The slots of a page that are used are those with rows in the list. -/
theorem Readable.isUsed_iff_listed (h : e.Readable t f) (inside : n < e.numPages f) :
    ∃ page, e.current? ⟨f.id, n⟩ = some page ∧ ∀ slot, page.isUsed slot = true ↔
      ∃ values, (⟨⟨f.id, n⟩, slot⟩, values) ∈ e.listing f := by
  have here : ∃ page, e.current? ⟨f.id, n⟩ = some page := by
    obtain ⟨-, fetchable⟩ := exists_fetched_iff.mp (h.loads n inside)
    obtain ⟨stored, read⟩ := h.coherent.exists_readPage fetchable
    cases resident : e.pool.page? ⟨f.id, n⟩ with
    | some page => exact ⟨page, current?_of_resident resident⟩
    | none =>
      rw [current?_of_not_resident resident]
      exact ⟨stored, toOption_eq_some.mpr read⟩
  obtain ⟨page, here⟩ := here
  obtain ⟨-, sound, -⟩ := h.coherent.spec_of_current? (p := ⟨f.id, n⟩) h.registered here
  refine ⟨page, here, fun slot => ?_⟩
  have row : e.currentRow ⟨⟨f.id, n⟩, slot⟩ = page.row? slot := by
    rw [currentRow, here, Option.bind_some]
  simp only [h.coherent.mem_listing h.registered, row, inside, true_and]
  rw [← sound.isSome_row?, Option.isSome_iff_exists]

namespace Calm

variable (h : e.Calm e' t f)

include h

theorem trans (h' : e'.Calm e'' t f) : e.Calm e'' t f :=
  ⟨h'.readable, h'.numPages.trans h.numPages, fun n slot => (h'.rows n slot).trans (h.rows n slot)⟩

theorem rowsOn (n : Nat) : e'.rowsOn f n = e.rowsOn f n := by
  simp only [Engine.rowsOn, h.rows]

theorem rowsFrom (n : Nat) : e'.rowsFrom f n = e.rowsFrom f n := by
  have same : e'.rowsOn f = e.rowsOn f := funext h.rowsOn
  rw [Engine.rowsFrom, Engine.rowsFrom, h.numPages, same]

theorem listing : e'.listing f = e.listing f :=
  h.rowsFrom 0

end Calm

/-- **Reading is calm.** When anybody fetches any page to read it, a table has the same rows as before,
and they can be read as before. -/
theorem calm_getPage (h : e.Readable t f) (hg : e.getPage u q .readOnly = (e', fetch)) :
    e.Calm e' t f := by
  obtain ⟨fetches, -⟩ := fetches_getPage h.coherent hg
  have reach : e'.locks = (e.locks.acquire u q .shared).1 ∧ (∀ p, e.Fetchable p → e'.Fetchable p) ∧
      ∀ i ∈ e'.pool.latched, i < e'.pool.frames.size := by
    have gets := gets_of_getPage hg
    generalize (e.locks.acquire u q (Permission.mode .readOnly)).2 = reply at gets
    cases gets with
    | waiting | deadlock | unserved => exact ⟨rfl, fun _ fetchable => fetchable, h.latched⟩
    | served brought =>
      have asked := (fetches_asking h.coherent u q .shared).coherent
      obtain ⟨brings, -⟩ := brings_of_bring asked.pool brought
      obtain ⟨fetchable, latched⟩ := fetchable_of_bring asked h.latched brought
      exact ⟨by rw [brings.same]; rfl, fetchable, latched⟩
  obtain ⟨locks, fetchable, latched⟩ := reach
  have pages : e'.numPages f = e.numPages f := by rw [numPages, numPages, fetches.disk]
  refine ⟨⟨fetches.coherent, fetches.catalog ▸ h.registered, ?_, latched⟩, pages, ?_⟩
  · intro n inside
    rw [pages] at inside
    obtain ⟨granted, here⟩ := exists_fetched_iff.mp (h.loads n inside)
    refine exists_fetched_iff.mpr ⟨?_, fetchable _ here⟩
    rw [locks]
    exact LockTable.acquire_shared_granted granted
  · intro n slot
    rw [fetches.current]

end RowStore.Engine
