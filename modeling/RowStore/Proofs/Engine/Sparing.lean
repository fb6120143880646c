import RowStore.Proofs.Traffic.Steps

/-! # What a step spares
A step that does not bring its call to a good end leaves all pages as they are, in memory and on the disk:
it may take a lock, let a clean page leave memory for another one, and append a page of zeros to a file
(`Spares`). This does not take much: the pages in memory need only be well formed and be on the disk as
well (`Rooted`), whoever has edited them, and every step keeps that (`proceeds_step`). -/

namespace RowStore.Engine

variable {e e' e₁ : Engine} {t : TxnId} {p : PageId} {permission : Permission} {mode : LockMode}
  {page new : Page} {c : Call} {progress : Progress} {f : HeapFile} {ref : PageRef}

/-! ## Pages that stay rooted -/

/-- What is kept of an engine that is worked with: its pages are rooted, and its files are no shorter. -/
structure Endures (e e' : Engine) : Prop where
  rooted : e'.Rooted
  files : e.Extends e'

theorem Endures.refl (h : e.Rooted) : e.Endures e :=
  ⟨h, .of_disk rfl rfl⟩

theorem Endures.trans {e'' : Engine} (h : e.Endures e') (h' : e'.Endures e'') : e.Endures e'' :=
  ⟨h'.rooted, h.files.trans h'.files⟩

/-- As long as the disk stays as it is, it is enough that no other pages come into memory. -/
theorem Endures.of_pages (h : e.Rooted) (disk : e'.disk = e.disk) (catalog : e'.catalog = e.catalog)
    (pool : e'.pool.Sound)
    (pages : ∀ p new, e'.pool.page? p = some new → e.stored? p = some new ∨
      ∃ old, e.pool.page? p = some old ∧ new.layout = old.layout ∧ (old.Sound → new.Sound)) :
    e.Endures e' where
  rooted := h.next catalog pool (fun _ page here => ⟨page, stored?_congr disk catalog ▸ here⟩) pages
  files := .of_disk disk catalog

/-- Pages stay rooted when one that is in memory is changed, and keeps its layout. -/
theorem endures_changed (h : e.Rooted) (resident : e.pool.frame? new.id = some ref.frame)
    (here : e.pool.page? new.id = some page) (layout : new.layout = page.layout) (sound : new.Sound) :
    e.Endures (e.changed t ref new) := by
  refine .of_pages h rfl rfl (settles_changed resident h.pool).sound fun q now hq => ?_
  rw [page?_changed resident h.pool] at hq
  split at hq
  · next eq =>
    obtain rfl := Option.some.inj hq
    exact .inr ⟨page, eq ▸ here, layout, fun _ => sound.mark _⟩
  · exact .inr ⟨now, hq, rfl, id⟩

theorem endures_allocate (h : e.Rooted) (found : e.catalog.file? f.id = some f) (whole : e.Whole f) :
    e.Endures (e.allocate f).1 :=
  ⟨rooted_allocate h found whole, extends_allocate h.storable found whole⟩

/-! ## What is spared -/

/-- What a step leaves as it was that changes nothing: all but the locks of its transaction, which pages
without changes are in memory, and the lengths of files. -/
structure Spares (e e' : Engine) (t : TxnId) : Prop where
  config : e'.config = e.config
  catalog : e'.catalog = e.catalog
  /-- What stands in a frame is as before, with its bitmap, its slots and its mark. -/
  frames : ∀ (i : Nat) (page : Page), e.pool.frames[i]? = some page →
    e'.pool.frames[i]? = some page
  /-- A page stays as it is, or leaves memory without having been changed, or is read from the disk. -/
  pages : ∀ p, e'.pool.page? p = e.pool.page? p ∨
    e'.pool.page? p = none ∧ (∃ old, e.pool.page? p = some old ∧ old.dirtiedBy = none) ∨
    e.pool.page? p = none ∧ ∃ new, e'.pool.page? p = some new ∧ e.stored? p = some new
  owner : e'.owner? = e.owner?
  dirtied : e'.pool.dirtied = e.pool.dirtied
  /-- A file of whole pages may get another one, of zeros. -/
  disk : e'.disk = e.disk ∨ ∃ f, e.catalog.file? f.id = some f ∧ e.Whole f ∧
    e'.disk = e.disk.write f.location (e.octets f ++ f.layout.emptyPage)
  stored : ∀ p page, e.stored? p = some page → e'.stored? p = some page
  others : ∀ u p mode, u ≠ t → e'.locks.holds u p mode = e.locks.holds u p mode
  own : ∀ p mode, e.locks.holds t p mode = true → e'.locks.holds t p mode = true

theorem Spares.refl (e : Engine) (t : TxnId) : e.Spares e t :=
  ⟨rfl, rfl, fun _ _ here => here, fun _ => .inl rfl, rfl, rfl, .inl rfl, fun _ _ here => here,
    fun _ _ _ _ => rfl, fun _ _ held => held⟩

theorem spares_asking (e : Engine) (t : TxnId) (p : PageId) (mode : LockMode) :
    e.Spares (e.asking t p mode) t :=
  ⟨rfl, rfl, fun _ _ here => here, fun _ => .inl rfl, rfl, rfl, .inl rfl, fun _ _ here => here,
    fun _ _ _ ne => LockTable.holds_acquire_of_ne ne, fun _ _ held =>
      LockTable.holds_acquire_of_holds held⟩

/-- To bring a page into memory for which the lock has just been granted. -/
theorem Brings.spares (h : (e.asking t p mode).Brings e') : e.Spares e' t where
  config := by rw [h.same]; rfl
  catalog := by rw [h.same]; rfl
  frames := h.kept
  pages := h.pages
  owner := h.owner?
  dirtied := h.dirtied
  disk := .inl (by rw [h.same]; rfl)
  stored p page here := by
    rw [h.stored?]
    exact here
  others u q mode' ne := by
    rw [h.same]
    exact (spares_asking e t p mode).others u q mode' ne
  own q mode' held := by
    rw [h.same]
    exact (spares_asking e t p mode).own q mode' held

theorem spares_allocate (h : e.Rooted) (found : e.catalog.file? f.id = some f) (whole : e.Whole f)
    (t : TxnId) : e.Spares (e.allocate f).1 t :=
  ⟨rfl, rfl, fun _ _ here => here, fun _ => .inl rfl, rfl, rfl,
    .inr ⟨f, found, whole, by rw [allocate_eq whole]⟩,
    fun _ _ here => stored?_allocate h.storable found whole here, fun _ _ _ _ => rfl,
    fun _ _ held => held⟩

/-! ## Steps -/

/-- What a fetch does, and what it yields. -/
theorem spares_getPage (h : e.Rooted) {fetch : Fetch} (hg : e.getPage t p permission = (e', fetch)) :
    e.Spares e' t ∧ e.Endures e' ∧
      ∀ ref, fetch = .fetched ref → ref.permission = permission ∧
        e'.pool.frame? p = some ref.frame ∧
          ∃ page, e'.page? ref = some page ∧ e'.pool.page? p = some page := by
  have asked := spares_asking e t p permission.mode
  have endures : e.Endures (e.asking t p permission.mode) :=
    ⟨⟨h.storable, h.pool, h.resident⟩, .of_disk rfl rfl⟩
  have gets := gets_of_getPage hg
  generalize (e.locks.acquire t p permission.mode).2 = reply at gets
  cases gets with
  | waiting | deadlock | unserved => exact ⟨asked, endures, nofun⟩
  | served brought =>
    obtain ⟨brings, resident⟩ := brings_of_bring endures.rooted.pool brought
    refine ⟨brings.spares, ⟨brings.rooted endures.rooted, ?_⟩, fun ref eq => ?_⟩
    · rw [brings.same]
      exact .of_disk rfl rfl
    obtain rfl := Fetch.fetched.inj eq
    obtain ⟨page, here, -⟩ := brings.pool.exists_page resident
    exact ⟨rfl, resident, page, here, Pool.page?_eq_some.mpr ⟨_, resident, here⟩⟩

/-- What a step of a transaction leads to. -/
structure Proceeds (e e' : Engine) (t : TxnId) (progress : Progress) : Prop extends
    e.Endures e' where
  next : ∀ next, progress = .goesOn next → next.Sound e'
  /-- Only a step with which its call comes to a good end changes anything. -/
  spares : (∀ reply, progress ≠ .done (.ok reply)) → e.Spares e' t

theorem proceeds_of_asks (h : e.Rooted) (hc : c.Sound e) (asks : c.asks? = some (p, permission))
    (hs : e.step t c = (e', progress)) : e.Proceeds e' t progress := by
  obtain ⟨use, eq, uses⟩ := step_eq_withPage (e := e) (t := t) asks
  rcases hg : e.getPage t p permission with ⟨e₁, fetch⟩
  obtain ⟨spares, endures, spec⟩ := spares_getPage h hg
  cases fetch with
  | waiting | failed =>
    simp only [eq, withPage, hg] at hs
    obtain ⟨rfl, rfl⟩ := Prod.mk.inj hs
    exact ⟨endures, (fun _ onwards => by cases onwards), fun _ => spares⟩
  | fetched ref =>
    obtain ⟨write, resident, page, here, current⟩ := spec ref rfl
    simp only [eq, withPage, hg, here] at hs
    have used := uses e₁ ref page endures.rooted (hc.extends endures.files) resident current write
    rw [hs] at used
    cases used with
    | quiet _ sound => exact ⟨endures, sound, fun _ => spares⟩
    | @changes new reply change _ _ _ same layout sound =>
      -- the call has come to a good end
      obtain rfl := endures.rooted.pool.id_eq current
      rw [← same] at resident current
      exact ⟨endures.trans (endures_changed endures.rooted resident current layout sound),
        (fun _ onwards => by cases onwards), fun unfinished => absurd rfl (unfinished reply)⟩

theorem proceeds_of_not_asks (h : e.Rooted) (hc : c.Sound e) (silent : c.asks? = none)
    (hs : e.step t c = (e', progress)) : e.Proceeds e' t progress := by
  cases rests_of_not_asks h.storable hc silent hs with
  | still _ sound => exact ⟨.refl h, sound, fun _ => .refl e t⟩
  | grows _ registered whole sound =>
    refine ⟨endures_allocate h registered whole, fun next eq => ?_,
      fun _ => spares_allocate h registered whole t⟩
    exact Progress.goesOn.inj eq ▸ sound

/-- **What a step spares.** A step keeps the pages in memory rooted, and only one with which its call comes
to a good end changes any page. -/
theorem proceeds_step (h : e.Rooted) (hc : c.Sound e) (hs : e.step t c = (e', progress)) :
    e.Proceeds e' t progress := by
  cases asks : c.asks? with
  | some asked => exact proceeds_of_asks h hc asks hs
  | none => exact proceeds_of_not_asks h hc asks hs

end RowStore.Engine
