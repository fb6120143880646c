import RowStore.Proofs.Engine.Ending
import RowStore.Proofs.Traffic.Run

/-! # What a step does
A step of a call fetches one page at most, and then either goes on, or changes this page; a step that
fetches none may append a page to a file (`steps_of_asks`, `steps_of_not_asks`). So a step changes the
rows that its transaction is told to have changed, and no others; it never changes rows on the disk
(`steps_step`). -/

namespace RowStore

namespace Engine

variable {e e' e₁ : Engine} {t u : TxnId} {p : PageId} {permission : Permission} {page : Page}
  {c next : Call} {progress : Progress} {f : HeapFile}

/-! ## Files -/

/-- Whether a file ends where a page does. -/
def Whole (e : Engine) (f : HeapFile) : Prop :=
  f.Whole (e.octets f)

/-- Files keep their lengths, but that those of whole pages may get more of them. -/
structure Extends (e e' : Engine) : Prop where
  catalog : e'.catalog = e.catalog
  longer : ∀ table f, e.catalog.file? table = some f → (e.octets f).length ≤ (e'.octets f).length
  files : ∀ table f, e.catalog.file? table = some f →
    (e'.octets f).length = (e.octets f).length ∨ e.Whole f ∧ e'.Whole f

theorem Extends.of_lengths (catalog : e'.catalog = e.catalog)
    (lengths : ∀ table f, e.catalog.file? table = some f →
      (e'.octets f).length = (e.octets f).length) : e.Extends e' :=
  ⟨catalog, fun table f found => Nat.le_of_eq (lengths table f found).symm,
    fun table f found => .inl (lengths table f found)⟩

theorem Extends.of_disk (disk : e'.disk = e.disk) (catalog : e'.catalog = e.catalog) :
    e.Extends e' :=
  .of_lengths catalog fun _ f _ => by rw [octets, octets, disk]

theorem Extends.trans {e'' : Engine} (h : e.Extends e') (h' : e'.Extends e'') : e.Extends e'' where
  catalog := h'.catalog.trans h.catalog
  longer table f found :=
    Nat.le_trans (h.longer table f found) (h'.longer table f (h.catalog ▸ found))
  files table f found := by
    rcases h.files table f found with same | ⟨whole, whole'⟩
    · rcases h'.files table f (h.catalog ▸ found) with same' | ⟨whole', whole''⟩
      · exact .inl (same'.trans same)
      · -- whether a file is one of whole pages depends on its length only
        refine .inr ⟨?_, whole''⟩
        rwa [Whole, HeapFile.Whole, HeapFile.numPages, ← same]
    · rcases h'.files table f (h.catalog ▸ found) with same' | ⟨-, whole''⟩
      · refine .inr ⟨whole, ?_⟩
        rwa [Whole, HeapFile.Whole, HeapFile.numPages, same']
      · exact .inr ⟨whole, whole''⟩

theorem numPages_eq (e : Engine) (f : HeapFile) : e.numPages f = f.numPages (e.octets f) := rfl

namespace Extends

variable (h : e.Extends e') {table : TableId} (found : e.catalog.file? table = some f)

include h found

theorem whole (whole : e.Whole f) : e'.Whole f := by
  rcases h.files table f found with same | ⟨-, whole'⟩
  · rw [Whole, HeapFile.Whole, HeapFile.numPages, same]
    exact whole
  · exact whole'

theorem numPages (partial_ : ¬ e.Whole f) : e'.numPages f = e.numPages f := by
  rcases h.files table f found with same | ⟨whole, -⟩
  · rw [numPages_eq, numPages_eq, HeapFile.numPages, HeapFile.numPages, same]
  · exact absurd whole partial_

end Extends

end Engine

/-! ## Calls that can arise -/

/-- An insertion goes through all pages of its file before it appends one, so it never appends one to a
file that ends inside its last page: this page cannot be fetched. -/
structure Insertion.Sound (e : Engine) (i : Insertion) : Prop where
  noted : i.noted = true
  complete : i.tuple.values.length = i.tuple.schema.size
  registered : e.catalog.file? i.file.id = some i.file
  stage : match i.stage with
    | .check => True
    | .probe n numPages | .fill n numPages =>
      e.Whole i.file ∨ n < numPages ∧ numPages = e.numPages i.file
    | .grow | .settle _ => e.Whole i.file

/-- What holds of every call that a request leads to. -/
def Call.Sound (e : Engine) : Call → Prop
  | .lock .. => False
  | .insert _ tuple => tuple.values.length = tuple.schema.size
  | .insertInto i => i.Sound e
  | .deleteFrom _ _ noted | .deleteAt _ noted => noted = true
  | .fetch .. | .delete _ | .advance _ | .turn .. => True

theorem Call.sound_of_isRequest {c : Call} {e : Engine} (h : c.isRequest = true) : c.Sound e := by
  cases c with
  | insert table tuple =>
    have complete : tuple.values.length = tuple.schema.size := of_decide_eq_true h
    exact complete
  | lock | insertInto | deleteFrom | deleteAt => exact nomatch h
  | fetch | delete | advance | turn => trivial

theorem Insertion.Sound.extends {i : Insertion} {e e' : Engine} (h : i.Sound e) (he : e.Extends e') :
    i.Sound e' := by
  obtain ⟨file, tuple, noted, stage⟩ := i
  obtain ⟨noted', complete, registered, place⟩ := h
  refine ⟨noted', complete, he.catalog ▸ registered, ?_⟩
  have searching : ∀ {n numPages : Nat}, e.Whole file ∨ n < numPages ∧ numPages = e.numPages file →
      e'.Whole file ∨ n < numPages ∧ numPages = e'.numPages file := by
    rintro n numPages (whole | ⟨lt, eq⟩)
    · exact .inl (he.whole registered whole)
    · by_cases whole : e.Whole file
      · exact .inl (he.whole registered whole)
      · exact .inr ⟨lt, eq.trans (he.numPages registered whole).symm⟩
  cases stage with
  | check => trivial
  | probe n numPages | fill n numPages => exact searching place
  | grow | settle n => exact he.whole registered place

/-- What the others do keeps a call sound. -/
theorem Call.Sound.extends {c : Call} {e e' : Engine} (h : c.Sound e) (he : e.Extends e') :
    c.Sound e' := by
  cases c with
  | insertInto i => exact Insertion.Sound.extends h he
  | lock | insert | deleteFrom | deleteAt | fetch | delete | advance | turn => exact h

/-- The page that the next step of a call fetches, and what for. -/
def Call.asks? : Call → Option (PageId × Permission)
  | .fetch p permission => some (p, permission)
  | .insertInto i =>
    match i.stage with
    | .probe n numPages => if n < numPages then some (⟨i.file.id, n⟩, .readOnly) else none
    | .fill n _ | .settle n => some (⟨i.file.id, n⟩, .readWrite)
    | _ => none
  | .deleteAt id _ => some (id.page, .readWrite)
  | .turn c n => some (⟨c.file.id, n⟩, .readOnly)
  | _ => none

namespace Engine

variable {e e' e₁ : Engine} {t u : TxnId} {p : PageId} {permission : Permission} {page : Page}
  {c next : Call} {progress : Progress} {f : HeapFile} {ref : PageRef}

/-! ## The shape of a step -/

/-- What comes after a fetch in a step: nothing is changed, or the fetched page is. -/
inductive Uses (e : Engine) (t : TxnId) (ref : PageRef) (page : Page) (c : Call) :
    Engine × Progress → Prop where
  | quiet {progress : Progress} (none_changed : Change.of? c progress = none)
      (sound : ∀ next, progress = .goesOn next → next.Sound e) : Uses e t ref page c (e, progress)
  | changes {new : Page} {reply : Reply} {change : Change}
      (write : ref.permission = .readWrite)
      (told : Change.of? c (.done (.ok reply)) = some change) (id : change.id.page = page.id)
      (same : new.id = page.id) (layout : new.layout = page.layout) (sound : new.Sound)
      (rows : ∀ slot, new.row? slot = if slot = change.id.slot then change.values? else page.row? slot) :
      Uses e t ref page c (e.changed t ref new, .done (.ok reply))

section Uses

variable (h : e.pool.Sound) (resident : e.pool.frame? page.id = some ref.frame)
  (write : ref.permission = .readWrite) (sound : page.Sound)

include h resident write sound

/-- An insertion fills a slot of the fetched page, or is refused. -/
theorem uses_place {i : Insertion} (hi : i.Sound e) :
    e.Uses t ref page (.insertInto i) (e.place t i ref page) := by
  rw [place]
  split
  · exact .quiet rfl nofun
  · next id new inserted =>
    obtain ⟨-, at_page, -, same, layout, -⟩ := Page.insert_cases inserted
    rw [hi.noted, endChange_of_resident h (same ▸ resident) write]
    exact .changes write rfl at_page same layout (sound.of_insert inserted hi.complete)
      (Page.row?_of_insert inserted)

/-- A deletion frees a slot of the fetched page, or is refused. -/
theorem uses_delete (id : RecordId) :
    e.Uses t ref page (.deleteAt id true) (match page.delete id with
      | .error err => (e, .done (.error (.record err)))
      | .ok page => (e.setPage ref (page.mark (some t))).endChange t ref true (.deleted ref)) := by
  split
  · exact .quiet rfl nofun
  · next new deleted =>
    obtain ⟨at_page, -, same, layout, -⟩ := Page.delete_cases deleted
    rw [endChange_of_resident h (same ▸ resident) write]
    exact .changes write rfl at_page same layout (sound.of_delete deleted) (Page.row?_of_delete deleted)

end Uses

/-- A search for a free slot goes on behind a page that could be fetched. -/
theorem searching_succ {i : Insertion} {n numPages : Nat} (h : e.Rooted)
    (registered : e.catalog.file? i.file.id = some i.file)
    (searching : e.Whole i.file ∨ n < numPages ∧ numPages = e.numPages i.file)
    (here : e.pool.page? ⟨i.file.id, n⟩ = some page) :
    e.Whole i.file ∨ n + 1 < numPages ∧ numPages = e.numPages i.file := by
  refine (Classical.em (e.Whole i.file)).imp_right fun cut => ?_
  obtain ⟨-, eq⟩ := searching.resolve_left cut
  -- the page could be read, so it is not the last one, which is cut off
  obtain ⟨-, stored, on_disk, -⟩ := h.resident _ _ here
  obtain ⟨-, -, -, f, found, -, covers⟩ := spec_of_stored? on_disk
  obtain rfl : f = i.file := Option.some.inj (found.symm.trans registered)
  exact ⟨eq ▸ covers.succ_lt_numPages cut, eq⟩

/-- A step that asks for a page is a fetch and a use of the page. -/
theorem step_eq_withPage (asks : c.asks? = some (p, permission)) :
    ∃ use, e.step t c = e.withPage t p permission use ∧
      ∀ e₁ ref page, e₁.Rooted → c.Sound e₁ → e₁.pool.frame? p = some ref.frame →
        e₁.pool.page? p = some page → ref.permission = permission →
        e₁.Uses t ref page c (use e₁ ref page) := by
  cases c with
  | lock | insert | delete | deleteFrom | advance => exact nomatch asks
  | fetch q permission' =>
    obtain ⟨rfl, rfl⟩ := Prod.mk.inj (Option.some.inj asks)
    exact ⟨_, rfl, fun _ _ _ _ _ _ _ _ => .quiet rfl nofun⟩
  | turn cursor n =>
    obtain ⟨rfl, rfl⟩ := Prod.mk.inj (Option.some.inj asks)
    refine ⟨_, rfl, fun _ _ _ _ _ _ _ _ => .quiet rfl ?_⟩
    intro next eq
    obtain rfl := Progress.goesOn.inj eq
    trivial
  | deleteAt id noted =>
    obtain ⟨rfl, rfl⟩ := Prod.mk.inj (Option.some.inj asks)
    refine ⟨_, rfl, ?_⟩
    intro e₁ ref page rooted sound resident here write
    obtain rfl : noted = true := sound
    have same := rooted.pool.id_eq here
    exact uses_delete rooted.pool (same ▸ resident) write (rooted.resident _ _ here).1 id
  | insertInto i =>
    obtain ⟨file, tuple, noted, stage⟩ := i
    cases stage with
    | check | grow => exact nomatch asks
    | probe n numPages =>
      rw [Call.asks?, Option.ite_none_right_eq_some] at asks
      obtain ⟨inside, asks⟩ := asks
      obtain ⟨rfl, rfl⟩ := Prod.mk.inj (Option.some.inj asks)
      refine ⟨_, if_pos inside, ?_⟩
      intro e₁ ref page rooted sound _ here _
      refine .quiet rfl fun next eq => ?_
      obtain rfl := Progress.goesOn.inj eq
      refine ⟨sound.noted, sound.complete, sound.registered, ?_⟩
      cases page.isFull with
      | true => exact searching_succ rooted sound.registered sound.stage here
      | false => exact sound.stage
    | fill n numPages =>
      obtain ⟨rfl, rfl⟩ := Prod.mk.inj (Option.some.inj asks)
      refine ⟨_, rfl, ?_⟩
      intro e₁ ref page rooted sound resident here write
      dsimp only
      split
      · -- somebody else has filled the page since it was probed
        refine .quiet rfl fun next eq => ?_
        obtain rfl := Progress.goesOn.inj eq
        exact ⟨sound.noted, sound.complete, sound.registered,
          searching_succ rooted sound.registered sound.stage here⟩
      · have same := rooted.pool.id_eq here
        exact uses_place rooted.pool (same ▸ resident) write (rooted.resident _ _ here).1 sound
    | settle n =>
      obtain ⟨rfl, rfl⟩ := Prod.mk.inj (Option.some.inj asks)
      refine ⟨_, rfl, ?_⟩
      intro e₁ ref page rooted sound resident here write
      dsimp only
      split
      · -- the new page has been filled before it was fetched
        refine .quiet rfl fun next eq => ?_
        obtain rfl := Progress.goesOn.inj eq
        exact ⟨sound.noted, sound.complete, sound.registered, sound.stage⟩
      · have same := rooted.pool.id_eq here
        exact uses_place rooted.pool (same ▸ resident) write (rooted.resident _ _ here).1 sound

/-- What a step does that fetches no page: nothing is changed, or a page is appended to a file of whole
pages. -/
inductive Rests (e : Engine) (c : Call) : Engine × Progress → Prop where
  | still {progress : Progress} (none_changed : Change.of? c progress = none)
      (sound : ∀ next, progress = .goesOn next → next.Sound e) : Rests e c (e, progress)
  | grows {i : Insertion} {next : Call} (placing : c = .insertInto i)
      (registered : e.catalog.file? i.file.id = some i.file) (whole : e.Whole i.file)
      (sound : next.Sound (e.allocate i.file).1) :
      Rests e c ((e.allocate i.file).1, .goesOn next)

/-- An insertion that asks for no page has yet to begin, or has found no free slot. -/
theorem rests_insertion_of_not_asks {i : Insertion} (storable : e.catalog.Storable) (hi : i.Sound e)
    (silent : (Call.insertInto i).asks? = none) (hs : e.step t (.insertInto i) = (e', progress)) :
    e.Rests (.insertInto i) (e', progress) := by
  obtain ⟨file, tuple, noted, stage⟩ := i
  obtain ⟨noted', complete, registered, place⟩ := hi
  cases stage with
  | fill | settle => exact nomatch silent
  | check =>
    by_cases compatible : tuple.schema.compatible file.schema = true
    · simp only [step, stepInsert, if_pos compatible] at hs
      obtain ⟨rfl, rfl⟩ := Prod.mk.inj hs
      refine .still rfl fun next eq => ?_
      obtain rfl := Progress.goesOn.inj eq
      refine ⟨noted', complete, registered, ?_⟩
      exact (Classical.em (e.Whole file)).imp_right fun cut => ⟨HeapFile.numPages_pos cut, rfl⟩
    · simp only [step, stepInsert, if_neg compatible] at hs
      obtain ⟨rfl, rfl⟩ := Prod.mk.inj hs
      exact .still rfl nofun
  | probe n numPages =>
    have passed : ¬ n < numPages := by
      intro lt
      simp only [Call.asks?, if_pos lt, reduceCtorEq] at silent
    simp only [step, stepInsert, if_neg passed] at hs
    obtain ⟨rfl, rfl⟩ := Prod.mk.inj hs
    refine .still rfl fun next eq => ?_
    -- all pages could be read, so the file is one of whole pages
    obtain rfl := Progress.goesOn.inj eq
    exact ⟨noted', complete, registered, place.resolve_right fun more => passed more.1⟩
  | grow =>
    obtain ⟨rfl, rfl⟩ := Prod.mk.inj hs
    exact .grows rfl registered place
      ⟨noted', complete, registered, whole_allocate storable registered place registered place⟩

/-- A step that asks for no page changes nothing, but that it may append a page to a file. -/
theorem rests_of_not_asks (storable : e.catalog.Storable) (hc : c.Sound e) (silent : c.asks? = none)
    (hs : e.step t c = (e', progress)) : e.Rests c (e', progress) := by
  cases c with
  | fetch | turn | deleteAt => exact nomatch silent
  | lock => exact hc.elim
  | insertInto i => exact rests_insertion_of_not_asks storable hc silent hs
  | insert table tuple =>
    rw [step] at hs
    split at hs
    · next file found =>
      obtain ⟨rfl, rfl⟩ := Prod.mk.inj hs
      refine .still rfl fun next eq => ?_
      obtain rfl := Progress.goesOn.inj eq
      have registered := file_eq_ok.mp found
      exact ⟨rfl, hc, (Catalog.id_of_file? registered).symm ▸ registered, trivial⟩
    · obtain ⟨rfl, rfl⟩ := Prod.mk.inj hs
      exact .still rfl nofun
  | delete id? =>
    cases id? with
    | none =>
      obtain ⟨rfl, rfl⟩ := Prod.mk.inj hs
      exact .still rfl nofun
    | some id =>
      rw [step] at hs
      split at hs
      · obtain ⟨rfl, rfl⟩ := Prod.mk.inj hs
        refine .still rfl fun next eq => ?_
        obtain rfl := Progress.goesOn.inj eq
        rfl
      · obtain ⟨rfl, rfl⟩ := Prod.mk.inj hs
        exact .still rfl nofun
  | deleteFrom f id? noted =>
    obtain ⟨rfl, rfl⟩ := Prod.mk.inj hs
    cases id? with
    | none => exact .still rfl nofun
    | some id =>
      rw [checkDelete]
      split
      · refine .still rfl fun next eq => ?_
        obtain rfl := Progress.goesOn.inj eq
        exact hc
      · exact .still rfl nofun
  | advance cursor =>
    obtain ⟨rfl, rfl⟩ := Prod.mk.inj hs
    refine .still rfl fun next eq => ?_
    rw [checkCursor] at eq
    split at eq
    · cases eq
    · cases eq
    · split at eq
      · obtain rfl := Progress.goesOn.inj eq
        trivial
      · cases eq

/-! ## The effect of a step -/

/-- What a step of a transaction leads to that has changed at most one row. -/
structure Steps (e e' : Engine) (t : TxnId) (change? : Option Change) : Prop where
  sound : e'.Sound
  files : e.Extends e'
  stored : e'.storedRow = e.storedRow
  current : e'.currentRow = Rows.after e.currentRow change?.toList
  owner : ∀ p, e'.owner? p = if p ∈ change?.map (·.id.page) then some t else e.owner? p
  /-- Nobody else has unwritten changes of the page. -/
  free : ∀ c ∈ change?, e.owner? c.id.page = none ∨ e.owner? c.id.page = some t
  others : ∀ {u p mode}, u ≠ t → e'.locks.holds u p mode = e.locks.holds u p mode
  own : ∀ {p mode}, e.locks.holds t p mode = true → e'.locks.holds t p mode = true
  kept : ∀ (i : Nat) (other : Page), e.pool.frames[i]? = some other →
    other.id ∉ change?.map (·.id.page) → e'.pool.frames[i]? = some other

theorem Fetches.refl (h : e.Coherent) : e.Fetches e t :=
  ⟨h, rfl, rfl, rfl, rfl, rfl, fun _ _ here => here, fun _ => rfl, fun held => held⟩

theorem Steps.of_fetches (h : e.Sound) (fetches : e.Fetches e' t) : e.Steps e' t none where
  sound := fetches.sound h
  files := .of_disk fetches.disk fetches.catalog
  stored := storedRow_congr fetches.disk fetches.catalog
  current := fetches.current
  owner p := by simp [fetches.owner]
  free := nofun
  others := fetches.others
  own := fetches.own
  kept i other here _ := fetches.kept i other here

/-- A change in the page that has been fetched is one of its rows. -/
theorem Steps.of_changes {change : Change} (h : e.Sound) (fetches : e.Fetches e₁ t)
    (changes : e₁.Changes e' t page) (id : change.id.page = page.id)
    (rows : ∀ slot, page.row? slot =
      if slot = change.id.slot then change.values? else e₁.currentRow ⟨page.id, slot⟩) :
    e.Steps e' t (some change) where
  sound := changes.sound
  files := .of_disk (changes.disk.trans fetches.disk) (changes.catalog.trans fetches.catalog)
  stored := storedRow_congr (changes.disk.trans fetches.disk) (changes.catalog.trans fetches.catalog)
  current := by
    funext r
    obtain ⟨p, slot⟩ := r
    obtain ⟨⟨q, slot'⟩, values?⟩ := change
    obtain rfl : q = page.id := id
    rw [changes.current, ← fetches.current, Option.toList_some, Rows.after_singleton]
    by_cases eq : p = page.id
    · subst eq
      simp [rows]
    · simp [eq]
  owner p := by
    rw [changes.owner, fetches.owner, Option.map_some, id]
    simp [eq_comm]
  free c mem := by
    obtain rfl := Option.some.inj mem
    -- `t` owns the page after the change, so `t` held its lock before
    have owned : e'.owner? page.id = some t := by rw [changes.owner, if_pos rfl]
    have held := changes.sound.locked t page.id owned
    rw [changes.locks] at held
    rw [← fetches.owner, id]
    exact (fetches.sound h).owner?_of_holds held
  others ne := by
    rw [changes.locks]
    exact fetches.others ne
  own held := by
    rw [changes.locks]
    exact fetches.own held
  kept i other here out := by
    apply changes.kept i other (fetches.kept i other here)
    intro eq
    simp [eq, id] at out

/-- To append a page leaves those in memory on the disk. -/
theorem rooted_allocate (h : e.Rooted) (found : e.catalog.file? f.id = some f) (whole : e.Whole f) :
    (e.allocate f).1.Rooted :=
  h.next rfl h.pool (fun _ page on_disk => ⟨page, stored?_allocate h.storable found whole on_disk⟩)
    fun _ new here => .inr ⟨new, here, rfl, id⟩

theorem coherent_allocate (h : e.Coherent) (found : e.catalog.file? f.id = some f) (whole : e.Whole f) :
    (e.allocate f).1.Coherent where
  storable := h.storable
  locks := h.locks
  pool := h.pool
  resident := (rooted_allocate h.rooted found whole).resident
  clean p page stored here clean on_disk := by
    obtain ⟨-, old, on_disk', -⟩ := h.resident p page here
    have same := stored?_allocate h.storable found whole on_disk'
    obtain rfl := Option.some.inj (same.symm.trans on_disk)
    exact h.clean p page old here clean on_disk'

theorem sound_allocate (h : e.Sound) (found : e.catalog.file? f.id = some f) (whole : e.Whole f) :
    (e.allocate f).1.Sound where
  toCoherent := coherent_allocate h.toCoherent found whole
  noted := h.noted
  locked := h.locked

/-- To append a page changes no rows: the new page is not in memory, and on the disk it has none. -/
theorem currentRow_allocate (storable : e.catalog.Storable)
    (found : e.catalog.file? f.id = some f) (whole : e.Whole f) :
    (e.allocate f).1.currentRow = e.currentRow := by
  funext r
  have stored := congrFun (storedRow_allocate storable found whole) r
  have pages : (e.allocate f).1.pool.page? r.page = e.pool.page? r.page := rfl
  rw [currentRow, currentRow, current?, current?, pages]
  cases e.pool.page? r.page with
  | some page => rfl
  | none => exact stored

/-- To append a page to a file of whole pages leaves it one of whole pages. -/
theorem extends_allocate (storable : e.catalog.Storable) (found : e.catalog.file? f.id = some f)
    (whole : e.Whole f) : e.Extends (e.allocate f).1 where
  catalog := rfl
  longer table g hg := by
    rw [octets_allocate storable found whole hg]
    split
    · next eq =>
      rw [eq, List.length_append]
      exact Nat.le_add_right ..
    · exact Nat.le_refl _
  files table g hg := by
    by_cases eq : g = f
    · exact .inr ⟨eq ▸ whole, whole_allocate storable found whole hg (eq ▸ whole)⟩
    · rw [octets_allocate storable found whole hg, if_neg eq]
      exact .inl rfl

theorem Steps.of_allocate (h : e.Sound) (found : e.catalog.file? f.id = some f) (whole : e.Whole f) :
    e.Steps (e.allocate f).1 t none where
  sound := sound_allocate h found whole
  files := extends_allocate h.storable found whole
  stored := storedRow_allocate h.storable found whole
  current := by
    rw [Option.toList_none, Rows.after_nil]
    exact currentRow_allocate h.storable found whole
  owner p := by
    rw [if_neg (by simp)]
    rfl
  free := nofun
  others _ := rfl
  own held := held
  kept _ _ here _ := here

/-- A step that asks for no page changes no row; it may append a page to a file. -/
theorem steps_of_not_asks (h : e.Sound) (hc : c.Sound e) (silent : c.asks? = none)
    (hs : e.step t c = (e', progress)) : Change.of? c progress = none ∧ e.Steps e' t none ∧
      ∀ next, progress = .goesOn next → next.Sound e' := by
  cases rests_of_not_asks h.storable hc silent hs with
  | still none_changed sound => exact ⟨none_changed, .of_fetches h (.refl h.toCoherent), sound⟩
  | grows placing registered whole sound =>
    refine ⟨Change.of?_goesOn .., .of_allocate h registered whole, fun next eq => ?_⟩
    exact Progress.goesOn.inj eq ▸ sound

/-- A step whose page has been fetched goes on with this page. -/
theorem uses_of_step (h : e.Sound) (hc : c.Sound e) (asks : c.asks? = some (p, permission))
    (hg : e.getPage t p permission = (e₁, .fetched ref)) (hs : e.step t c = (e', progress)) :
    ∃ page, e₁.page? ref = some page ∧ page.id = p ∧ e₁.Uses t ref page c (e', progress) := by
  obtain ⟨use, eq, uses⟩ := step_eq_withPage (e := e) (t := t) asks
  obtain ⟨fetches, spec⟩ := fetches_getPage h.toCoherent hg
  obtain ⟨write, resident, -⟩ := spec ref rfl
  obtain ⟨page, here, current, id⟩ := current?_of_fetched h.toCoherent hg
  simp only [eq, withPage, hg, here] at hs
  have sound : c.Sound e₁ := hc.extends (.of_disk fetches.disk fetches.catalog)
  refine ⟨page, here, id, ?_⟩
  rw [← hs]
  exact uses e₁ ref page fetches.coherent.rooted sound resident current write

/-- A step that asks for a page changes one of its rows at most. -/
theorem steps_of_asks (h : e.Sound) (hc : c.Sound e) (asks : c.asks? = some (p, permission))
    (hs : e.step t c = (e', progress)) : e.Steps e' t (Change.of? c progress) ∧
      ∀ next, progress = .goesOn next → next.Sound e' := by
  obtain ⟨use, eq, -⟩ := step_eq_withPage (e := e) (t := t) asks
  rcases hg : e.getPage t p permission with ⟨e₁, fetch⟩
  obtain ⟨fetches, spec⟩ := fetches_getPage h.toCoherent hg
  cases fetch with
  | waiting =>
    simp only [eq, withPage, hg] at hs
    obtain ⟨rfl, rfl⟩ := Prod.mk.inj hs
    rw [Change.of?_waits]
    exact ⟨.of_fetches h fetches, nofun⟩
  | failed err =>
    simp only [eq, withPage, hg] at hs
    obtain ⟨rfl, rfl⟩ := Prod.mk.inj hs
    rw [Change.of?_error]
    exact ⟨.of_fetches h fetches, nofun⟩
  | fetched ref =>
    obtain ⟨rfl, resident, held⟩ := spec ref rfl
    obtain ⟨page, here, rfl, uses⟩ := uses_of_step h hc asks hg hs
    have current : e₁.pool.page? page.id = some page := Pool.page?_eq_some.mpr ⟨_, resident, here⟩
    cases uses with
    | quiet unchanged sound =>
      rw [unchanged]
      exact ⟨.of_fetches h fetches, sound⟩
    | @changes new reply change write told id same layout sound rows =>
      rw [told]
      rw [write] at held
      have as_before : ∀ old, e₁.pool.page? new.id = some old → new.layout = old.layout := by
        intro old hold
        rw [same, current] at hold
        rw [layout, Option.some.inj hold]
      have changes := changes_changed (same.symm ▸ resident) (fetches.sound h) (same.symm ▸ held)
        sound as_before
      refine ⟨.of_changes h fetches changes (id.trans same.symm) ?_, nofun⟩
      intro slot
      rw [rows, currentRow, same, current?_of_resident current, Option.bind_some]

/-- A step that asks for a page fetches it perhaps, and changes nothing but this page. -/
theorem step_of_asks (h : e.Sound) (hc : c.Sound e) (asks : c.asks? = some (p, permission))
    (hs : e.step t c = (e', progress)) : ∃ e₁ fetch, e.getPage t p permission = (e₁, fetch) ∧
      (e' = e₁ ∨ ∃ ref new, e' = e₁.changed t ref new) := by
  rcases hg : e.getPage t p permission with ⟨e₁, fetch⟩
  obtain ⟨use, eq, -⟩ := step_eq_withPage (e := e) (t := t) asks
  refine ⟨e₁, fetch, rfl, ?_⟩
  cases fetch with
  | waiting | failed =>
    simp only [eq, withPage, hg] at hs
    exact .inl (Prod.mk.inj hs).1.symm
  | fetched ref =>
    obtain ⟨page, -, -, uses⟩ := uses_of_step h hc asks hg hs
    cases uses with
    | quiet => exact .inl rfl
    | changes => exact .inr ⟨ref, _, rfl⟩

/-- A step that asks for a page leaves the disk as it is. -/
theorem disk_of_asks (h : e.Sound) (hc : c.Sound e) (asks : c.asks? = some (p, permission))
    (hs : e.step t c = (e', progress)) : e'.disk = e.disk := by
  obtain ⟨e₁, fetch, hg, rfl | ⟨ref, new, rfl⟩⟩ := step_of_asks h hc asks hs
  · exact (fetches_getPage h.toCoherent hg).1.disk
  · exact (fetches_getPage h.toCoherent hg).1.disk

/-- A step that asks for no page takes a lock at most, or appends a page to the file of an insertion. -/
theorem step_of_not_asks (silent : c.asks? = none) (hs : e.step t c = (e', progress)) :
    (∃ locks, e' = { e with locks }) ∨ ∃ i, c = .insertInto i ∧ e' = (e.allocate i.file).1 := by
  have still : ∀ {p : Progress}, (e, p) = (e', progress) → ∃ locks, e' = { e with locks } :=
    fun eq => ⟨e.locks, (Prod.mk.inj eq).1.symm⟩
  cases c with
  | fetch | turn | deleteAt => exact nomatch silent
  | lock q mode =>
    obtain rfl : (e.step t (.lock q mode)).1 = e' := congrArg Prod.fst hs
    refine .inl ⟨(e.locks.acquire t q mode).1, ?_⟩
    rw [step]
    dsimp only
    split <;> rfl
  | insertInto i =>
    obtain ⟨file, tuple, noted, stage⟩ := i
    cases stage with
    | fill | settle => exact nomatch silent
    | check =>
      simp only [step, stepInsert] at hs
      split at hs
      · exact .inl (still hs)
      · exact .inl (still hs)
    | probe n numPages =>
      have passed : ¬ n < numPages := by
        intro lt
        simp only [Call.asks?, if_pos lt, reduceCtorEq] at silent
      simp only [step, stepInsert, if_neg passed] at hs
      exact .inl (still hs)
    | grow => exact .inr ⟨_, rfl, (Prod.mk.inj hs).1.symm⟩
  | insert table tuple =>
    rw [step] at hs
    split at hs
    · exact .inl (still hs)
    · exact .inl (still hs)
  | delete id? =>
    cases id? with
    | none => exact .inl (still hs)
    | some id =>
      rw [step] at hs
      split at hs
      · exact .inl (still hs)
      · exact .inl (still hs)
  | deleteFrom f id? noted => exact .inl (still hs)
  | advance cursor => exact .inl (still hs)

/-- **The effect of a step.** It changes the rows that its transaction is told to have changed. -/
theorem steps_step (h : e.Sound) (hc : c.Sound e) (hs : e.step t c = (e', progress)) :
    e.Steps e' t (Change.of? c progress) ∧ ∀ next, progress = .goesOn next → next.Sound e' := by
  cases asks : c.asks? with
  | some asked => exact steps_of_asks h hc asks hs
  | none =>
    obtain ⟨unchanged, steps, sound⟩ := steps_of_not_asks h hc asks hs
    exact ⟨unchanged ▸ steps, sound⟩

end Engine

end RowStore
