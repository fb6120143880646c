import Mathlib.Data.List.Induction
import RowStore.Database
import RowStore.Proofs.Engine.Ending
import RowStore.Proofs.Engine.Opening
import RowStore.Proofs.Page.Edits

/-! # The layouts of pages in memory
A table may be opened again, in the same place and with other columns, at any time. Its pages that are
in memory then stay there as they are: a page has the layout that its table's file had when the page was
read, and keeps it for as long as it stands in its frame (`layout_of_fetched`). So a page that is not in
memory is fetched with the layout of the file of that moment, and one that is there may have an older
one (`layout_of_fetched_stale`). What carries this is told for frames: each operation leaves a page in a
frame with its name and its layout, or reads it from the file of its table (`Refreshes`). -/

namespace RowStore

namespace Pool

variable {p p' p'' : Pool} {id : PageId} {i : Nat} {page : Page} {t : TxnId}

/-- No page is brought into memory, and those in frames keep their names and their layouts. -/
structure Retains (p p' : Pool) : Prop where
  sound : p.Sound → p'.Sound
  frames : ∀ (i : Nat) (new : Page), p'.frames[i]? = some new →
    ∃ old, p.frames[i]? = some old ∧ new.id = old.id ∧ new.layout = old.layout

theorem Retains.of_frames (frames : p'.frames = p.frames) (sound : p.Sound → p'.Sound) :
    p.Retains p' :=
  ⟨sound, fun _ new here => ⟨new, frames ▸ here, rfl, rfl⟩⟩

theorem Retains.refl (p : Pool) : p.Retains p :=
  .of_frames rfl id

theorem Retains.trans (h : p.Retains p') (h' : p'.Retains p'') : p.Retains p'' where
  sound := h'.sound ∘ h.sound
  frames i new here := by
    obtain ⟨mid, at_i, id, layout⟩ := h'.frames i new here
    obtain ⟨old, at_i, id', layout'⟩ := h.frames i mid at_i
    exact ⟨old, at_i, id.trans id', layout.trans layout'⟩

theorem retains_drop (p : Pool) (id : PageId) : p.Retains (p.drop id) :=
  .of_frames rfl fun h => h.drop id

theorem retains_promote (here : p.frames[i]? = some page) (same : page.id = id) :
    p.Retains (p.promote id i) :=
  .of_frames rfl fun h => h.promote here same

theorem retains_setFrame {old : Page} (here : p.frames[i]? = some old) (id : page.id = old.id)
    (layout : page.layout = old.layout) : p.Retains (p.setFrame i page) where
  sound h := h.setFrame fun other at_i => by rw [id, Option.some.inj (here.symm.trans at_i)]
  frames j new at_j := by
    rw [setFrame, Array.getElem?_setIfInBounds] at at_j
    split at at_j
    · next eq =>
      subst eq
      rw [Option.ite_none_right_eq_some] at at_j
      exact Option.some.inj at_j.2 ▸ ⟨old, here, id, layout⟩
    · exact ⟨new, at_j, rfl, rfl⟩

theorem retains_mark (here : p.frames[i]? = some page) (t : Option TxnId) :
    p.Retains (p.setFrame i (page.mark t)) :=
  retains_setFrame here rfl rfl

theorem retains_noteDirtied (p : Pool) (t : TxnId) (id : PageId) : p.Retains (p.noteDirtied t id) :=
  .of_frames frames_noteDirtied fun h => h.congr frames_noteDirtied resident_noteDirtied

theorem retains_noteWritten (p : Pool) (t : TxnId) (id : PageId) : p.Retains (p.noteWritten t id) :=
  .of_frames frames_noteWritten fun h => h.congr frames_noteWritten resident_noteWritten

theorem retains_makeRoom (h : p.makeRoom = .ok p') : p.Retains p' := by
  rcases makeRoom_cases h with rfl | ⟨id, -, rfl⟩
  · exact .refl _
  · exact retains_drop _ _

/-- To mark a page keeps it as it is in its frame, wherever it is resident then. -/
theorem retains_markDirty (p : Pool) (t : TxnId) (ref : PageRef) :
    p.Retains (p.markDirty t ref).1 := by
  rw [markDirty]
  split
  · exact .refl p
  · next page here =>
    split
    · exact .refl p
    · -- the page is marked and noted in its frame first, and may then become resident again
      have marked : p.Retains ((p.setFrame ref.frame (page.mark (some t))).noteDirtied t page.id) :=
        (retains_mark here _).trans (retains_noteDirtied _ t page.id)
      obtain ⟨inside, -⟩ := Array.getElem?_eq_some_iff.mp here
      have still : ((p.setFrame ref.frame (page.mark (some t))).noteDirtied t page.id).frames[ref.frame]?
          = some (page.mark (some t)) := by
        simp [setFrame, inside]
      dsimp only
      split
      · exact marked
      · split
        · exact marked.trans (retains_promote still rfl)
        · split
          · next roomy room =>
            have frames : roomy.frames[ref.frame]? = some (page.mark (some t)) := by
              rcases makeRoom_cases room with rfl | ⟨_, -, rfl⟩
              · exact still
              · exact still
            exact (marked.trans (retains_makeRoom room)).trans (retains_promote frames rfl)
          · exact marked

/-- To load a page is to put it into a new frame. -/
theorem frames_of_load {frame : Nat} (h : p.load page = .ok (p', frame)) :
    p'.frames = p.frames.push page ∧ frame = p.frames.size := by
  obtain ⟨q, room, rfl, rfl⟩ := load_cases h
  rcases makeRoom_cases room with rfl | ⟨_, -, rfl⟩
  · exact ⟨rfl, rfl⟩
  · exact ⟨rfl, rfl⟩

end Pool

namespace Engine

variable {e e' e'' : Engine} {t : TxnId} {p : PageId} {permission : Permission} {ref : PageRef}
  {page : Page} {faults : Faults}

/-! ## What operations do to the pages in frames -/

/-- Each page that is in a frame was there before, under the same name and with the same layout, or has
the layout of the file of its table. -/
structure Carries (e e' : Engine) : Prop where
  sound : e.pool.Sound → e'.pool.Sound
  frames : ∀ (i : Nat) (new : Page), e'.pool.frames[i]? = some new →
    (∃ old, e.pool.frames[i]? = some old ∧ new.id = old.id ∧ new.layout = old.layout) ∨
      ∃ f, e.catalog.file? new.id.table = some f ∧ new.layout = f.layout

theorem Carries.of_retains (h : e.pool.Retains e'.pool) : e.Carries e' :=
  ⟨h.sound, fun i new here => .inl (h.frames i new here)⟩

/-- The tables stay the same, and pages are read from their files at most. -/
structure Refreshes (e e' : Engine) : Prop extends e.Carries e' where
  catalog : e'.catalog = e.catalog

theorem Refreshes.of_retains (catalog : e'.catalog = e.catalog) (h : e.pool.Retains e'.pool) :
    e.Refreshes e' :=
  ⟨.of_retains h, catalog⟩

theorem Refreshes.of_pool (catalog : e'.catalog = e.catalog) (pool : e'.pool = e.pool) :
    e.Refreshes e' :=
  .of_retains catalog (pool ▸ .refl _)

theorem Refreshes.refl (e : Engine) : e.Refreshes e :=
  .of_pool rfl rfl

theorem Refreshes.trans (h : e.Refreshes e') (h' : e'.Refreshes e'') : e.Refreshes e'' where
  sound := h'.sound ∘ h.sound
  catalog := h'.catalog.trans h.catalog
  frames i new here := by
    rcases h'.frames i new here with ⟨mid, at_i, id, layout⟩ | ⟨f, found, layout⟩
    · rw [id, layout]
      exact h.frames i mid at_i
    · exact .inr ⟨f, h.catalog ▸ found, layout⟩

/-- A page that can be read has the layout of the file of its table. -/
theorem layout_of_readPage (h : e.readPage p = .ok page) :
    page.id = p ∧ ∃ f, e.catalog.file? p.table = some f ∧ page.layout = f.layout := by
  obtain ⟨id, -, -, f, found, layout, -⟩ := spec_of_stored? (toOption_eq_some.mpr h)
  exact ⟨id, f, found, layout⟩

/-! ## Fetching -/

/-- A page that is brought into memory is there under its name; if it was not, it has been read. -/
theorem refreshes_bring (h : e.pool.Sound) {frame : Nat} (hb : e.bring p = .ok (e', frame)) :
    e.Refreshes e' ∧ e'.pool.frame? p = some frame ∧
      (e.pool.isResident p = false → e.pool.frames[frame]? = none) := by
  rcases bring_cases hb with ⟨here, rfl⟩ | ⟨-, page, pool, read, loaded, rfl⟩
  · obtain ⟨page, at_frame, id⟩ := h.exists_page here
    refine ⟨.of_retains rfl (Pool.retains_promote at_frame id), by simp, fun gone => ?_⟩
    rw [Pool.isResident, here] at gone
    cases gone
  · obtain ⟨rfl, file⟩ := layout_of_readPage read
    obtain ⟨frames, rfl⟩ := Pool.frames_of_load loaded
    have loads := Pool.loads_of_load h loaded
    refine ⟨⟨⟨fun _ => loads.sound, fun i new here => ?_⟩, rfl⟩, loads.resident, fun _ => by simp⟩
    rw [frames, Array.getElem?_push] at here
    split at here
    · exact .inr (Option.some.inj here ▸ file)
    · exact .inl ⟨new, here, rfl, rfl⟩

/-- A fetch yields a page of the name that was asked for; if it was not in memory, its frame is a new
one. -/
theorem refreshes_getPage (h : e.pool.Sound) {fetch : Fetch}
    (hg : e.getPage t p permission = (e', fetch)) : e.Refreshes e' ∧
      ∀ ref, fetch = .fetched ref → e'.pool.frame? p = some ref.frame ∧
        (e.pool.isResident p = false → e.pool.frames[ref.frame]? = none) := by
  have asked : e.Refreshes (e.asking t p permission.mode) := .of_pool rfl rfl
  have gets := gets_of_getPage hg
  generalize (e.locks.acquire t p permission.mode).2 = reply at gets
  cases gets with
  | waiting | deadlock | unserved => exact ⟨asked, nofun⟩
  | served brought =>
    have still : (e.asking t p permission.mode).pool.Sound := h
    obtain ⟨brings, resident, new⟩ := refreshes_bring still brought
    refine ⟨asked.trans brings, fun ref eq => ?_⟩
    obtain rfl := Fetch.fetched.inj eq
    exact ⟨resident, new⟩

/-! ## Steps -/

theorem refreshes_setPage {old : Page} (here : e.page? ref = some old) (id : page.id = old.id)
    (layout : page.layout = old.layout) : e.Refreshes (e.setPage ref page) :=
  .of_retains rfl (Pool.retains_setFrame here id layout)

theorem refreshes_endChange (e : Engine) (t : TxnId) (ref : PageRef) (noted : Bool) (reply : Reply) :
    e.Refreshes (e.endChange t ref noted reply).1 := by
  have marks : e.Refreshes (e.markDirty t ref).1 :=
    .of_retains rfl (Pool.retains_markDirty e.pool t ref)
  rw [endChange]
  split
  · split
    · next marked => exact congrArg Prod.fst marked ▸ marks
    · next marked => exact congrArg Prod.fst marked ▸ marks
  · exact .refl e

/-- A step that fetches a page does what the fetch does, and then what is done with the page. -/
theorem refreshes_withPage (h : e.pool.Sound) {use : Engine → PageRef → Page → Engine × Progress}
    (uses : ∀ (e₁ : Engine) ref page, e₁.page? ref = some page → e₁.Refreshes (use e₁ ref page).1) :
    e.Refreshes (e.withPage t p permission use).1 := by
  rcases hg : e.getPage t p permission with ⟨e₁, fetch⟩
  have fetches := (refreshes_getPage h hg).1
  rw [withPage, hg]
  cases fetch with
  | waiting => exact fetches
  | failed err => exact fetches
  | fetched ref =>
    dsimp only
    split
    · next here => exact fetches.trans (uses _ _ _ here)
    · exact fetches

theorem refreshes_place {i : Insertion} (here : e.page? ref = some page) :
    e.Refreshes (e.place t i ref page).1 := by
  rw [place]
  split
  · exact .refl e
  · next new inserted =>
    obtain ⟨-, -, -, id, layout, -⟩ := Page.insert_cases inserted
    have put : e.Refreshes (e.setPage ref (new.mark (some t))) := refreshes_setPage here id layout
    exact put.trans (refreshes_endChange ..)

/-- A step of an insertion reads pages of registered tables only; to append a page touches none that is
in memory. -/
theorem refreshes_stepInsert (h : e.pool.Sound) (i : Insertion) :
    e.Refreshes (e.stepInsert t i).1 := by
  rw [stepInsert]
  split
  · split
    · exact .refl e
    · exact .refl e
  · split
    · exact refreshes_withPage h fun _ _ _ _ => .refl _
    · exact .refl e
  · refine refreshes_withPage h fun e₁ ref page here => ?_
    dsimp only
    split
    · exact .refl e₁
    · exact refreshes_place here
  · exact .of_pool rfl rfl
  · refine refreshes_withPage h fun e₁ ref page here => ?_
    dsimp only
    split
    · exact .refl e₁
    · exact refreshes_place here

theorem refreshes_stepDelete (h : e.pool.Sound) (r : RecordId) (noted : Bool) :
    e.Refreshes (e.stepDelete t r noted).1 := by
  refine refreshes_withPage h fun e₁ ref page here => ?_
  split
  · exact .refl e₁
  · next new deleted =>
    obtain ⟨-, -, id, layout, -⟩ := Page.delete_cases deleted
    have put : e₁.Refreshes (e₁.setPage ref (new.mark (some t))) := refreshes_setPage here id layout
    exact put.trans (refreshes_endChange ..)

/-- Whatever a call is, a step of it reads pages from the files of their tables only. -/
theorem refreshes_step (h : e.pool.Sound) (t : TxnId) (call : Call) :
    e.Refreshes (e.step t call).1 := by
  cases call with
  | lock p mode =>
    rw [step]
    rcases e.locks.acquire t p mode with ⟨locks, reply⟩
    cases reply <;> exact .of_pool rfl rfl
  | fetch p permission => exact refreshes_withPage h fun _ _ _ _ => .refl _
  | insert table tuple =>
    rw [step]
    split
    · exact .refl e
    · exact .refl e
  | insertInto i => exact refreshes_stepInsert h i
  | delete id? =>
    cases id? with
    | none => exact .refl e
    | some id =>
      rw [step]
      split
      · exact .refl e
      · exact .refl e
  | deleteFrom f id? noted => exact .refl e
  | deleteAt r noted => exact refreshes_stepDelete h r noted
  | advance c => exact .refl e
  | turn c n => exact refreshes_withPage h fun _ _ _ _ => .refl _

/-! ## Writing and reading again -/

/-- A page that is written back loses its mark at most, and nothing else. -/
theorem refreshes_writeBack {result : Except FileError Unit}
    (h : e.writeBack p faults = (e', result)) : e.Refreshes e' := by
  cases writesBack_of_writeBack h with
  | clean => exact .refl e
  | failed => exact .of_retains rfl (.refl _)
  | dirty _ _ at_frame =>
    exact .of_retains rfl ((Pool.retains_mark at_frame none).trans (Pool.retains_noteWritten ..))

theorem refreshes_writeBackAll (faults : Faults) (e : Engine) (ps : List PageId) :
    e.Refreshes (e.writeBackAll faults ps).1 :=
  writeBackAll_induction (motive := e.Refreshes) (.refl e)
    (fun refreshed wrote => refreshed.trans (refreshes_writeBack wrote)) ps

theorem refreshes_flush (e : Engine) (ps : List PageId) (faults : Faults) :
    e.Refreshes (e.flush ps faults).1 :=
  flush_fst (e := e) ps faults ▸ refreshes_writeBackAll faults e ps

theorem refreshes_revertPage (faults : Faults) (e : Engine) (p : PageId) :
    e.Refreshes (e.revertPage faults p) := by
  rw [revertPage]
  split
  · exact .refl e
  · next frame resident =>
    split
    · next page _ read =>
      obtain ⟨rfl, file⟩ := layout_of_readPage read
      refine ⟨⟨fun h => h.setFrame fun old at_frame => ?sound, fun i new here => ?frames⟩, rfl⟩
      case sound =>
        obtain ⟨found, at_frame', id⟩ := h.exists_page resident
        rw [← id, Option.some.inj (at_frame.symm.trans at_frame')]
      case frames =>
        rw [Pool.setFrame, Array.getElem?_setIfInBounds] at here
        split at here
        · rw [Option.ite_none_right_eq_some] at here
          exact .inr (Option.some.inj here.2 ▸ file)
        · exact .inl ⟨new, here, rfl, rfl⟩
    · exact .of_retains rfl (Pool.retains_drop e.pool p)

theorem refreshes_finish (e : Engine) (t : TxnId) : e.Refreshes (e.finish t) :=
  .of_retains rfl (.of_frames rfl fun h => h.congr rfl rfl)

theorem refreshes_complete (e : Engine) (t : TxnId) (commit : Bool) (faults : Faults) :
    e.Refreshes (e.complete t commit faults).1 := by
  obtain ⟨e', refreshed, done⟩ := complete_induction (motive := e.Refreshes) (.refl e)
    (fun refreshed wrote => refreshed.trans (refreshes_writeBack wrote))
    (fun p refreshed => refreshed.trans (refreshes_revertPage faults _ p)) t commit
  exact done ▸ refreshed.trans (refreshes_finish e' t)

/-! ## What happens to an engine -/

/-- What is done to an engine: tables are registered, and pages are used. -/
inductive Event where
  /-- A table's file is opened, and the table is registered. -/
  | openTable (path : Path) (name : String) (schema : Schema) (primaryKey : Option String)
  /-- A file is registered as a table. -/
  | addTable (name : String) (file : HeapFile) (primaryKey : Option String)
  /-- A step is taken of a call of a transaction. -/
  | step (t : TxnId) (call : Call)
  /-- Somebody changes a page that has been fetched, without the engine taking note. -/
  | edit (ref : PageRef) (edit : Page.Edit)
  /-- A fetched page is marked as changed by a transaction. -/
  | markDirty (t : TxnId) (ref : PageRef)
  /-- Other frames are being written to. -/
  | latch (frames : List Nat)
  | flushPage (p : PageId)
  | flushAll
  | flushPagesOf (t : TxnId) (faults : Faults)
  | complete (t : TxnId) (commit : Bool) (faults : Faults)
  /-- A page leaves memory without being written. -/
  | discard (p : PageId)
  /-- A transaction gives up a page's lock. -/
  | release (t : TxnId) (p : PageId)

/-- What an event leads to. -/
def happen (e : Engine) : Event → Engine
  | .openTable path name schema primaryKey => (e.openTable path name schema primaryKey).1
  | .addTable name file primaryKey => { e with catalog := e.catalog.add name file primaryKey }
  | .step t call => (e.step t call).1
  | .edit ref edit =>
    match e.page? ref with
    | some page => e.setPage ref (page.edit edit)
    | none => e
  | .markDirty t ref => (e.markDirty t ref).1
  | .latch frames => { e with pool := { e.pool with latched := frames } }
  | .flushPage p => (e.flushPage p).1
  | .flushAll => e.flushAll.1
  | .flushPagesOf t faults => (e.flushPagesOf t faults).1
  | .complete t commit faults => (e.complete t commit faults).1
  | .discard p => { e with pool := e.pool.drop p }
  | .release t p => { e with locks := e.locks.release t p }

/-- An engine without tables after events one after another. -/
def after (disk : FileTree) (config : Config) (es : List Event) : Engine :=
  es.foldl happen (new disk config)

variable {disk : FileTree} {config : Config} {es : List Event}

theorem after_snoc (es : List Event) (ev : Event) :
    after disk config (es ++ [ev]) = (after disk config es).happen ev :=
  List.foldl_concat ..

/-- Whatever happens, a page in a frame stays as it is there, or is read from the file of its table; a
registration does neither. -/
theorem carries_happen (h : e.pool.Sound) (ev : Event) : e.Carries (e.happen ev) := by
  cases ev with
  | openTable | addTable => exact .of_retains (.refl _)
  | step t call => exact (refreshes_step h t call).toCarries
  | edit ref edit =>
    rw [happen]
    split
    · next page here =>
      obtain ⟨id, layout⟩ := page.spec_of_edit edit
      exact (refreshes_setPage here id layout).toCarries
    · exact (Refreshes.refl e).toCarries
  | markDirty t ref => exact .of_retains (Pool.retains_markDirty e.pool t ref)
  | latch frames => exact .of_retains (.of_frames rfl fun h => h.congr rfl rfl)
  | flushPage p => exact (refreshes_writeBackAll ∅ e [p]).toCarries
  | flushAll => exact (refreshes_flush e _ ∅).toCarries
  | flushPagesOf t faults => exact (refreshes_flush e _ faults).toCarries
  | complete t commit faults => exact (refreshes_complete e t commit faults).toCarries
  | discard p => exact .of_retains (Pool.retains_drop e.pool p)
  | release t p => exact .of_retains (.refl _)

theorem sound_after (disk : FileTree) (config : Config) (es : List Event) :
    (after disk config es).pool.Sound := by
  induction es using List.reverseRecOn with
  | nil => exact ⟨List.nodup_nil, nofun⟩
  | append_singleton es ev ih =>
    rw [after_snoc]
    exact (carries_happen ih ev).sound ih

/-- At some time a page had the layout of its table's file, and since then it has stood in this frame,
with this layout. -/
def ReadInto (disk : FileTree) (config : Config) (es : List Event) (frame : Nat) (page : Page) :
    Prop :=
  ∃ earlier later f, es = earlier ++ later ∧
    (after disk config earlier).catalog.file? page.id.table = some f ∧ page.layout = f.layout ∧
    ∀ done, done <+: later → done ≠ [] →
      ∃ old, (after disk config (earlier ++ done)).pool.frames[frame]? = some old ∧
        old.id = page.id ∧ old.layout = page.layout

/-- A page with the layout of its table's file at this time may have been read just now. -/
theorem readInto_of_file? {frame : Nat} {f : HeapFile}
    (found : (after disk config es).catalog.file? page.id.table = some f)
    (layout : page.layout = f.layout) : ReadInto disk config es frame page :=
  ⟨es, [], f, (List.append_nil es).symm, found, layout,
    fun _ pre begun => absurd (List.prefix_nil.mp pre) begun⟩

/-- A page that still stands in its frame was read when it was. -/
theorem ReadInto.snoc {frame : Nat} {ev : Event} (h : ReadInto disk config es frame page)
    {new : Page} (here : (after disk config (es ++ [ev])).pool.frames[frame]? = some new)
    (id : new.id = page.id) (layout : new.layout = page.layout) :
    ReadInto disk config (es ++ [ev]) frame new := by
  obtain ⟨earlier, later, f, rfl, found, same, kept⟩ := h
  refine ⟨earlier, later ++ [ev], f, List.append_assoc .., id ▸ found, layout.trans same, ?_⟩
  intro done pre begun
  rcases List.prefix_concat_iff.mp pre with rfl | pre
  · rw [← List.append_assoc]
    exact ⟨new, here, rfl, rfl⟩
  · rw [id, layout]
    exact kept done pre begun

/-- Every page in a frame was read into it from the file that its table had then. -/
theorem readInto_of_frame {frame : Nat}
    (here : (after disk config es).pool.frames[frame]? = some page) :
    ReadInto disk config es frame page := by
  induction es using List.reverseRecOn generalizing page with
  | nil => simp [after, new, Pool.new] at here
  | append_singleton es ev ih =>
    have carried := carries_happen (sound_after disk config es) ev
    rw [← after_snoc] at carried
    rcases carried.frames frame page here with ⟨old, at_frame, id, layout⟩ | ⟨f, found, layout⟩
    · exact (ih at_frame).snoc here id layout
    · -- the page has been read by this event, from the file that its table had before
      refine ⟨es, [ev], f, rfl, found, layout, ?_⟩
      intro done pre begun
      have pre : done <+: [] ++ [ev] := pre
      obtain rfl : done = [] ++ [ev] := (List.prefix_concat_iff.mp pre).resolve_right
        fun before => begun (List.prefix_nil.mp before)
      exact ⟨page, here, rfl, rfl⟩

/-- **The layout of a fetched page.** Whatever has happened, with tables registered, opened again and
replaced in between: a fetched page has the layout that its table's file had when the page was read into
its frame, where it has been since, with this layout. If the page was not in memory, this is the layout of
the file that its table has now. -/
theorem layout_of_fetched {e' : Engine}
    (hg : (after disk config es).getPage t p permission = (e', .fetched ref)) :
    ∃ page, e'.page? ref = some page ∧ page.id = p ∧ ReadInto disk config es ref.frame page ∧
      ((after disk config es).pool.isResident p = false →
        ∃ f, (after disk config es).catalog.file? p.table = some f ∧ page.layout = f.layout) := by
  have sound := sound_after disk config es
  obtain ⟨refreshes, spec⟩ := refreshes_getPage sound hg
  obtain ⟨resident, new⟩ := spec ref rfl
  obtain ⟨page, here, rfl⟩ := (refreshes.sound sound).exists_page resident
  refine ⟨page, here, rfl, ?_⟩
  rcases refreshes.frames ref.frame page here with ⟨old, at_frame, id, layout⟩ | ⟨f, found, layout⟩
  · refine ⟨?_, fun gone => ?_⟩
    · obtain ⟨earlier, later, f, eq, found, same, kept⟩ := readInto_of_frame at_frame
      exact ⟨earlier, later, f, eq, id ▸ found, layout.trans same, by rwa [id, layout]⟩
    · rw [new gone] at at_frame
      cases at_frame
  · exact ⟨readInto_of_file? found layout, fun _ => ⟨f, found, layout⟩⟩

/-- Columns of one text of one octet. -/
def letterColumns : Schema := ⟨[⟨"s", .text 1⟩]⟩

/-- A table of numbers is opened, and a number is inserted and committed; then a table of letters is
opened in the same file. -/
def reopening : List Event :=
  let path : Path := ⟨"t", true, [.name "t"], false⟩
  let insertion (stage : InsertStage) : Insertion :=
    ⟨numbers, numberRecord 7, true, stage⟩
  [.openTable path "numbers" numberColumns none, .step ⟨1⟩ (.insertInto (insertion .grow)),
    .step ⟨1⟩ (.insertInto (insertion (.settle 0))), .complete ⟨1⟩ true ∅,
    .openTable path "letters" letterColumns none]

/-- The layout with which a page is fetched, and that of the file of its table. -/
def layouts (e : Engine) (p : PageId) : Option Layout × Option Layout :=
  let (e', fetch) := e.getPage ⟨2⟩ p .readOnly
  (match fetch with
    | .fetched ref => (e'.page? ref).map Page.layout
    | _ => none,
    (e.catalog.file? p.table).map HeapFile.layout)

theorem fetched_of_layouts {l m : Layout} (h : e.layouts p = (some l, some m)) :
    ∃ e' ref page f, e.getPage ⟨2⟩ p .readOnly = (e', .fetched ref) ∧ e'.page? ref = some page ∧
      page.layout = l ∧ e.catalog.file? p.table = some f ∧ f.layout = m := by
  rcases hg : e.getPage ⟨2⟩ p .readOnly with ⟨e', fetch⟩
  simp only [layouts, hg, Prod.mk.injEq, Option.map_eq_some_iff] at h
  obtain ⟨fetched, f, found, eq⟩ := h
  cases fetch with
  | fetched ref =>
    obtain ⟨page, here, eq'⟩ := Option.map_eq_some_iff.mp fetched
    exact ⟨e', ref, page, f, rfl, here, eq', found, eq⟩
  | failed err => cases fetched
  | waiting => cases fetched

/-- The first page of the file. -/
def firstPage : PageId := ⟨.file ["t"], 0⟩

theorem layouts_reopening : (after (.empty "") ⟨9, 10⟩ reopening).layouts firstPage =
    (some ⟨numberColumns, 9, by decide⟩, some ⟨letterColumns, 9, by decide⟩) := by decide +kernel

theorem layouts_discarded :
    (after (.empty "") ⟨9, 10⟩ (reopening ++ [.discard firstPage])).layouts firstPage =
      (some ⟨letterColumns, 9, by decide⟩, some ⟨letterColumns, 9, by decide⟩) := by decide +kernel

/-- The page of numbers is still in memory when its table has become one of letters, and is fetched as
it is; when it has left memory, it is read as a page of letters. -/
theorem layout_of_fetched_stale : ∃ e ref page f,
    (after (.empty "") ⟨9, 10⟩ reopening).getPage ⟨2⟩ firstPage .readOnly = (e, .fetched ref) ∧
    e.page? ref = some page ∧
    (after (.empty "") ⟨9, 10⟩ reopening).catalog.file? firstPage.table = some f ∧
    page.layout ≠ f.layout ∧
    ∃ e' ref' page',
      (after (.empty "") ⟨9, 10⟩ (reopening ++ [.discard firstPage])).getPage ⟨2⟩ firstPage .readOnly
        = (e', .fetched ref') ∧ e'.page? ref' = some page' ∧ page'.layout = f.layout := by
  obtain ⟨e, ref, page, f, hg, here, layout, found, now⟩ := fetched_of_layouts layouts_reopening
  obtain ⟨e', ref', page', -, hg', here', layout', -⟩ := fetched_of_layouts layouts_discarded
  refine ⟨e, ref, page, f, hg, here, found, ?_, e', ref', page', hg', here', layout'.trans now.symm⟩
  rw [layout, now]
  decide

/-- The page of numbers was read into its frame when its table was one of numbers; the page of letters
has the layout that its table has now. -/
theorem layout_of_fetched_reopened : ∃ e ref page e' ref' page' f,
    (after (.empty "") ⟨9, 10⟩ reopening).getPage ⟨2⟩ firstPage .readOnly = (e, .fetched ref) ∧
    e.page? ref = some page ∧ page.layout.schema = numberColumns ∧
    ReadInto (.empty "") ⟨9, 10⟩ reopening ref.frame page ∧
    (after (.empty "") ⟨9, 10⟩ (reopening ++ [.discard firstPage])).getPage ⟨2⟩ firstPage .readOnly
      = (e', .fetched ref') ∧ e'.page? ref' = some page' ∧
    (after (.empty "") ⟨9, 10⟩ (reopening ++ [.discard firstPage])).catalog.file? firstPage.table
      = some f ∧ page'.layout = f.layout ∧ f.schema = letterColumns := by
  obtain ⟨e, ref, page, -, hg, here, layout, -⟩ := fetched_of_layouts layouts_reopening
  obtain ⟨e', ref', page', f, hg', here', layout', found, now⟩ :=
    fetched_of_layouts layouts_discarded
  obtain ⟨same, here₁, -, read, -⟩ := layout_of_fetched hg
  obtain rfl := Option.some.inj (here.symm.trans here₁)
  obtain ⟨same', here₂, -, -, fresh⟩ := layout_of_fetched hg'
  obtain rfl := Option.some.inj (here'.symm.trans here₂)
  have gone : (after (.empty "") ⟨9, 10⟩ (reopening ++ [.discard firstPage])).pool.isResident firstPage
      = false := by decide +kernel
  obtain ⟨g, found', same⟩ := fresh gone
  obtain rfl := Option.some.inj (found.symm.trans found')
  exact ⟨e, ref, page, e', ref', page', f, hg, here, by rw [layout], read, hg', here', found, same,
    by rw [HeapFile.schema, now]⟩

end Engine

end RowStore
