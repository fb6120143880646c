import RowStore.Proofs.Engine.Layouts
import RowStore.Proofs.Pool.Recency
import RowStore.Proofs.Scan.Reading
import RowStore.Proofs.Traffic.Room

/-! # Which pages leave memory
A page is used when it is fetched, and when it comes back into memory because it is marked (`used?`).
Whatever happens to an engine, an event uses one page at most, and otherwise the resident pages stay as
they are, or some are dropped (`Turns`). So memory keeps the pages that have been used last
(`KeepsRecent`). Main statement: `keepsRecent_after`. -/

namespace RowStore.Engine

variable {e e' e'' : Engine} {t : TxnId} {p q : PageId} {permission : Permission} {ref : PageRef}
  {page : Page} {faults : Faults} {c : Call} {ev : Event} {es : List Event} {us : List PageId}

/-! ## Uses of pages -/

/-- The page that an event uses: it is fetched, or comes back into memory because it is marked. -/
def used? (e : Engine) : Event → Option PageId
  | .step t call =>
    match call.asks? with
    | some (p, permission) =>
      match (e.getPage t p permission).2 with
      | .fetched _ => some p
      | _ => none
    | none => none
  | .markDirty t ref =>
    match e.page? ref, (e.markDirty t ref).2 with
    | some page, .ok _ => if e.pool.frame? page.id = some ref.frame then none else some page.id
    | _, _ => none
  | _ => none

/-- The pages that are used in events one after another. -/
def uses : Engine → List Event → List PageId
  | _, [] => []
  | e, ev :: es => (e.used? ev).toList ++ uses (e.happen ev) es

theorem uses_snoc (e : Engine) (es : List Event) (ev : Event) :
    uses e (es ++ [ev]) = uses e es ++ ((es.foldl happen e).used? ev).toList := by
  induction es generalizing e with
  | nil => simp [uses]
  | cons first es ih => simp only [List.cons_append, uses, ih, List.foldl_cons, List.append_assoc]

/-! ## Fetching -/

/-- A page that is brought into memory is used. -/
theorem enters_bring {i : Nat} (hb : e.bring p = .ok (e', i)) : e.pool.Enters e'.pool p := by
  rcases bring_cases hb with ⟨here, rfl⟩ | ⟨gone, page, pool, read, loaded, rfl⟩
  · exact Pool.enters_promote (Pool.mem_ids_of_frame? here) i
  · obtain ⟨rfl, -⟩ := layout_of_readPage read
    exact Pool.enters_of_load (Pool.not_mem_ids.mpr gone) loaded

/-- A fetch uses its page if it yields it, and otherwise leaves memory as it is. -/
theorem enters_or_pool_eq {fetch : Fetch} (hg : e.getPage t p permission = (e', fetch)) :
    (∃ ref, fetch = .fetched ref ∧ ref.permission = permission ∧ e.pool.Enters e'.pool p) ∨
      (∀ ref, fetch ≠ .fetched ref) ∧ e'.pool = e.pool := by
  have gets := gets_of_getPage hg
  generalize (e.locks.acquire t p permission.mode).2 = reply at gets
  cases gets with
  | waiting | deadlock | unserved => exact .inr ⟨nofun, rfl⟩
  | served brought =>
    have enters := enters_bring brought
    exact .inl ⟨_, rfl, rfl, enters⟩

/-- The pages with unwritten changes are those that are dirty in their frames. -/
theorem isDirty_eq (h : e.pool.Sound) {i : Nat} (here : e.pool.frame? q = some i) :
    e.pool.isDirty i = (e.owner? q).isSome := by
  obtain ⟨page, at_i, -⟩ := h.exists_page here
  rw [owner?, Pool.page?_eq_some.mpr ⟨i, here, at_i⟩, Pool.isDirty, at_i]
  rfl

section Full

variable (h : e.pool.Sound) (unlatched : e.pool.latched = [])
  (within : e.pool.resident.length ≤ e.pool.capacity)

include h unlatched within

/-- No other page can be brought into memory if it is full of pages with unwritten changes. -/
theorem not_roomy_iff : ¬ e.pool.Roomy ↔ e.pool.resident.length = e.pool.capacity ∧
    ∀ q, e.pool.isResident q = true → (e.owner? q).isSome = true := by
  constructor
  · intro tight
    refine ⟨Nat.le_antisymm within (Nat.not_lt.mp fun room => tight (.inl room)), fun q resident => ?_⟩
    obtain ⟨i, here⟩ := Option.isSome_iff_exists.mp resident
    rw [← isDirty_eq h here]
    by_contra clean
    refine tight (.inr ⟨q, i, Pool.mem_resident_of_frame? here, Bool.eq_false_iff.mpr clean, ?_⟩)
    simp [unlatched]
  · rintro ⟨full, dirty⟩ (room | ⟨q, i, mem, clean, -⟩)
    · exact Nat.ne_of_lt room full
    · have here := h.frame?_of_mem mem
      have owned := dirty q (Option.isSome_iff_exists.mpr ⟨i, here⟩)
      rw [← isDirty_eq h here, clean] at owned
      cases owned

/-- A page that is not in memory, whose lock is granted, and that can be read, is not fetched just if
memory is full of pages with unwritten changes. -/
theorem poolFull_iff (gone : e.pool.isResident p = false)
    (granted : (e.locks.acquire t p permission.mode).2 = .granted) (read : e.readPage p = .ok page) :
    (∃ e', e.getPage t p permission = (e', .failed .poolFull)) ↔
      e.pool.resident.length = e.pool.capacity ∧
        ∀ q, e.pool.isResident q = true → (e.owner? q).isSome = true := by
  have absent : ¬ (e.pool.frame? p).isSome = true := by
    rw [Pool.isResident] at gone
    simp [gone]
  have brings : (∃ brought, (e.asking t p permission.mode).bring p = .ok brought) ↔ e.pool.Roomy :=
    exists_bring_iff.trans ((or_iff_right absent).trans (and_iff_right ⟨page, read⟩))
  rw [← not_roomy_iff h unlatched within, ← brings]
  rcases hg : e.getPage t p permission with ⟨e', fetch⟩
  have gets := gets_of_getPage hg
  rw [granted] at gets
  cases gets with
  | served brought => simp [brought]
  | unserved failed =>
    obtain rfl | ⟨-, unread⟩ := bring_eq_error (show (e.asking t p permission.mode).pool.Sound from h) failed
    · simp [failed]
    · cases unread.symm.trans read

end Full

/-! ## Steps -/

/-- To change a page that has just been fetched leaves the resident pages as they are. -/
theorem stays_change {new : Page} (resident : e.pool.frame? page.id = some ref.frame)
    (here : e.page? ref = some page) (write : ref.permission = .readWrite) (id : new.id = page.id)
    (noted : Bool) (reply : Reply) :
    e.pool.Stays ((e.setPage ref (new.mark (some t))).endChange t ref noted reply).1.pool := by
  have replaced : e.pool.Stays (e.setPage ref (new.mark (some t))).pool := Pool.stays_setFrame ..
  obtain ⟨inside, -⟩ := Array.getElem?_eq_some_iff.mp here
  have put : (e.setPage ref (new.mark (some t))).pool.frames[ref.frame]? = some (new.mark (some t)) := by
    simp [setPage, Pool.setFrame, inside]
  have marks := Pool.marks_markDirty (t := t) put write
  have still : (e.setPage ref (new.mark (some t))).pool.frame? (new.mark (some t)).id
      = some ref.frame := id ▸ resident
  cases noted with
  | false => exact replaced
  | true =>
    have marked : e.pool.Stays ((e.setPage ref (new.mark (some t))).markDirty t ref).1.pool := by
      rw [markDirty]
      generalize (e.setPage ref (new.mark (some t))).pool.markDirty t ref = result at marks ⊢
      cases marks with
      | still => exact replaced.trans (Pool.stays_marked ..)
      | swapped apart => exact absurd still apart
      | regained gone | refused gone => cases gone.symm.trans still
    rw [endChange, if_pos rfl]
    split
    · next done => exact congrArg Prod.fst done ▸ marked
    · next failed => exact congrArg Prod.fst failed ▸ marked

theorem stays_place {i : Insertion} (resident : e.pool.frame? page.id = some ref.frame)
    (here : e.page? ref = some page) (write : ref.permission = .readWrite) :
    e.pool.Stays (e.place t i ref page).1.pool := by
  rw [place]
  split
  · exact .refl _
  · next new inserted =>
    obtain ⟨-, -, -, id, -⟩ := Page.insert_cases inserted
    exact stays_change resident here write id ..

/-- What a step does after its fetch leaves the resident pages as they are. -/
theorem exists_use (asks : c.asks? = some (p, permission)) :
    ∃ use, e.step t c = e.withPage t p permission use ∧ ∀ (e₁ : Engine) (ref : PageRef) (page : Page),
      e₁.page? ref = some page → e₁.pool.frame? page.id = some ref.frame →
        ref.permission = permission → e₁.pool.Stays (use e₁ ref page).1.pool := by
  cases c with
  | lock | insert | delete | deleteFrom | advance => exact nomatch asks
  | fetch | turn =>
    obtain ⟨rfl, rfl⟩ := Prod.mk.inj (Option.some.inj asks)
    exact ⟨_, rfl, fun _ _ _ _ _ _ => .refl _⟩
  | deleteAt id noted =>
    obtain ⟨rfl, rfl⟩ := Prod.mk.inj (Option.some.inj asks)
    refine ⟨_, rfl, fun e₁ ref page here resident write => ?_⟩
    split
    · exact .refl _
    · next new deleted =>
      obtain ⟨-, -, id, -⟩ := Page.delete_cases deleted
      exact stays_change resident here write id ..
  | insertInto i =>
    obtain ⟨file, tuple, noted, stage⟩ := i
    cases stage with
    | check | grow => exact nomatch asks
    | probe n numPages =>
      rw [Call.asks?, Option.ite_none_right_eq_some] at asks
      obtain ⟨inside, asks⟩ := asks
      obtain ⟨rfl, rfl⟩ := Prod.mk.inj (Option.some.inj asks)
      exact ⟨_, if_pos inside, fun _ _ _ _ _ _ => .refl _⟩
    | fill | settle =>
      obtain ⟨rfl, rfl⟩ := Prod.mk.inj (Option.some.inj asks)
      refine ⟨_, rfl, fun e₁ ref page here resident write => ?_⟩
      dsimp only
      split
      · exact .refl _
      · exact stays_place resident here write

/-! ## Writing and reading again -/

theorem stays_writeBack {result : Except FileError Unit} (hw : e.writeBack p faults = (e', result)) :
    e.pool.Stays e'.pool := by
  cases writesBack_of_writeBack hw with
  | clean | failed => exact .refl _
  | dirty => exact (Pool.stays_setFrame ..).trans (Pool.stays_noteWritten ..)

theorem stays_writeBackAll (e : Engine) (faults : Faults) (ps : List PageId) :
    e.pool.Stays (e.writeBackAll faults ps).1.pool :=
  writeBackAll_induction (motive := fun e' => e.pool.Stays e'.pool) (.refl _)
    (fun stays wrote => stays.trans (stays_writeBack wrote)) ps

theorem stays_flush (e : Engine) (ps : List PageId) (faults : Faults) :
    e.pool.Stays (e.flush ps faults).1.pool :=
  flush_fst (e := e) ps faults ▸ stays_writeBackAll e faults ps

/-- To write pages takes no new notes of changes. -/
theorem noted_of_writeBackAll {ps : List PageId}
    (noted : (e.writeBackAll faults ps).1.pool.Noted t q) : e.pool.Noted t q := by
  refine writeBackAll_induction (motive := fun e' => e'.pool.Noted t q → e.pool.Noted t q) id ?_ ps noted
  intro e₁ e₂ p result before wrote noted
  cases writesBack_of_writeBack wrote with
  | clean | failed => exact before noted
  | dirty => exact before (Pool.noted_noteWritten.mp noted).2

/-- Whether a page cannot be read again. -/
def Unreadable (e : Engine) (faults : Faults) (p : PageId) : Prop :=
  (faults.read? p).isSome = true ∨ ∀ page, e.readPage p ≠ .ok page

theorem Unreadable.congr (h : e.Unreadable faults p) (disk : e'.disk = e.disk)
    (catalog : e'.catalog = e.catalog) : e'.Unreadable faults p := by
  rwa [Unreadable, readPage_congr disk catalog]

/-- What is left of memory when pages have been read again: those that cannot be read have left. -/
structure Drops (e e' : Engine) (faults : Faults) (ps : List PageId) : Prop where
  disk : e'.disk = e.disk
  catalog : e'.catalog = e.catalog
  capacity : e'.pool.capacity = e.pool.capacity
  latched : e'.pool.latched = e.pool.latched
  fewer : e'.pool.ids.Sublist e.pool.ids
  left : ∀ q ∈ e.pool.ids, q ∉ e'.pool.ids → q ∈ ps ∧ e.Unreadable faults q

theorem Drops.refl (e : Engine) (faults : Faults) : e.Drops e faults [] :=
  ⟨rfl, rfl, rfl, rfl, .refl _, fun _ mem out => absurd mem out⟩

theorem Drops.trans {ps qs : List PageId} (h : e.Drops e' faults ps) (h' : e'.Drops e'' faults qs) :
    e.Drops e'' faults (ps ++ qs) where
  disk := h'.disk.trans h.disk
  catalog := h'.catalog.trans h.catalog
  capacity := h'.capacity.trans h.capacity
  latched := h'.latched.trans h.latched
  fewer := h'.fewer.trans h.fewer
  left q mem out := by
    by_cases there : q ∈ e'.pool.ids
    · obtain ⟨listed, unread⟩ := h'.left q there out
      exact ⟨List.mem_append_right _ listed, unread.congr h.disk.symm h.catalog.symm⟩
    · obtain ⟨listed, unread⟩ := h.left q mem there
      exact ⟨List.mem_append_left _ listed, unread⟩

theorem drops_revertPage (e : Engine) (faults : Faults) (p : PageId) :
    e.Drops (e.revertPage faults p) faults [p] := by
  have kept : ∀ {e' : Engine}, e'.pool.ids = e.pool.ids → ∀ q ∈ e.pool.ids, q ∉ e'.pool.ids →
      q ∈ [p] ∧ e.Unreadable faults q := fun same q mem out => absurd (same ▸ mem) out
  rw [revertPage]
  split
  · exact ⟨rfl, rfl, rfl, rfl, .refl _, kept rfl⟩
  · split
    · exact ⟨rfl, rfl, rfl, rfl, .refl _, kept rfl⟩
    · next unread =>
      refine ⟨rfl, rfl, rfl, rfl, Pool.ids_drop ▸ List.filter_sublist, fun q mem out => ?_⟩
      obtain rfl : q = p := by
        by_contra ne
        exact out (by simpa using ⟨mem, ne⟩)
      refine ⟨.head _, ?_⟩
      cases fault : faults.read? q with
      | some err => exact .inl (by rw [fault]; rfl)
      | none => exact .inr fun page read => unread page fault read

theorem drops_foldl (e : Engine) (faults : Faults) (ps : List PageId) :
    e.Drops (ps.foldl (revertPage faults) e) faults ps := by
  induction ps generalizing e with
  | nil => exact .refl e faults
  | cons p ps ih => exact (drops_revertPage e faults p).trans (ih _)

/-- What the end of a transaction leaves in memory: of the pages that it had changed, those have left that
cannot be read again. -/
structure Ends (e e' : Engine) (t : TxnId) (faults : Faults) : Prop where
  capacity : e'.pool.capacity = e.pool.capacity
  latched : e'.pool.latched = e.pool.latched
  fewer : e'.pool.ids.Sublist e.pool.ids
  left : ∀ q ∈ e.pool.ids, q ∉ e'.pool.ids → e.pool.Noted t q ∧ e'.Unreadable faults q

theorem ends_complete (e : Engine) (t : TxnId) (commit : Bool) (faults : Faults) :
    e.Ends (e.complete t commit faults).1 t faults := by
  obtain ⟨e₁, e₂, written, reverted, done⟩ := exists_complete e t commit faults
  have first : e.pool.Stays e₁.pool ∧ ∀ q, e₁.pool.Noted t q → e.pool.Noted t q := by
    rcases written with rfl | rfl
    · exact ⟨.refl _, fun _ noted => noted⟩
    · exact ⟨stays_writeBackAll .., fun _ noted => noted_of_writeBackAll noted⟩
  obtain ⟨stays, noted⟩ := first
  have second : ∃ ps, e₁.Drops e₂ faults ps ∧ ∀ q ∈ ps, e₁.pool.Noted t q := by
    rcases reverted with rfl | rfl
    · exact ⟨[], .refl .., nofun⟩
    · exact ⟨_, drops_foldl .., fun q mem => Pool.mem_dirtiedBy.mp mem⟩
  obtain ⟨ps, drops, listed⟩ := second
  rw [done]
  refine ⟨drops.capacity.trans stays.capacity, drops.latched.trans stays.latched,
    stays.ids ▸ drops.fewer, fun q mem out => ?_⟩
  obtain ⟨mem', unread⟩ := drops.left q (stays.ids ▸ mem) out
  exact ⟨noted q (listed q mem'), unread.congr drops.disk drops.catalog⟩

/-! ## Events -/

/-- What an event does to the pages in memory: it uses one, leaves all of them as they are, or lets some
leave that have been discarded or cannot be read again. -/
inductive Turns (e : Engine) : Event → Engine → Prop where
  | uses {ev : Event} {e' : Engine} {p : PageId} (used : e.used? ev = some p)
    (enters : e.pool.Enters e'.pool p) : Turns e ev e'
  | rests {ev : Event} {e' : Engine} (unused : e.used? ev = none) (stays : e.pool.Stays e'.pool) :
    Turns e ev e'
  | discards {p : PageId} : Turns e (.discard p) { e with pool := e.pool.drop p }
  | ends {t : TxnId} {commit : Bool} {faults : Faults} {e' : Engine} (ends : e.Ends e' t faults) :
    Turns e (.complete t commit faults) e'

theorem turns_step (h : e.pool.Sound) (t : TxnId) (c : Call) : e.Turns (.step t c) (e.step t c).1 := by
  cases asks : c.asks? with
  | none =>
    have unused : e.used? (.step t c) = none := by simp only [used?, asks]
    rcases hs : e.step t c with ⟨e', progress⟩
    obtain ⟨locks, rfl⟩ | ⟨i, -, rfl⟩ := step_of_not_asks asks hs
    · exact .rests unused (.refl _)
    · exact .rests unused (.refl _)
  | some asked =>
    obtain ⟨p, permission⟩ := asked
    obtain ⟨use, eq, stays⟩ := exists_use (e := e) (t := t) asks
    rcases hg : e.getPage t p permission with ⟨e₁, fetch⟩
    rcases enters_or_pool_eq hg with ⟨ref, rfl, write, enters⟩ | ⟨unfetched, same⟩
    · obtain ⟨refreshes, spec⟩ := refreshes_getPage h hg
      obtain ⟨page, here, id⟩ := (refreshes.sound h).exists_page (spec ref rfl).1
      have here : e₁.page? ref = some page := here
      refine .uses (p := p) (by simp only [used?, asks, hg]) ?_
      rw [eq, withPage, hg]
      simp only [here]
      exact enters.trans_stays (stays e₁ ref page here (id ▸ (spec ref rfl).1) write)
    · cases fetch with
      | fetched ref => exact absurd rfl (unfetched ref)
      | waiting | failed =>
        refine .rests (by simp only [used?, asks, hg]) ?_
        rw [eq, withPage, hg]
        exact same ▸ .refl _

theorem turns_markDirty (h : e.pool.Sound) (t : TxnId) (ref : PageRef) :
    e.Turns (.markDirty t ref) (e.markDirty t ref).1 := by
  cases here : e.page? ref with
  | none =>
    have nothing : e.pool.markDirty t ref = (e.pool, .ok ()) := by
      rw [Pool.markDirty, show e.pool.frames[ref.frame]? = none from here]
    refine .rests (by simp only [used?, here]) ?_
    rw [markDirty, nothing]
    exact .refl _
  | some page =>
    have at_frame : e.pool.frames[ref.frame]? = some page := here
    cases write : ref.permission with
    | readOnly =>
      have refused : e.pool.markDirty t ref = (e.pool, .error (.readOnlyPage page.id)) := by
        simp only [Pool.markDirty, at_frame, write]
      refine .rests (by simp only [used?, here, markDirty, refused]) ?_
      rw [markDirty, refused]
      exact .refl _
    | readWrite =>
      have marks := Pool.marks_markDirty (t := t) at_frame write
      rcases done : e.pool.markDirty t ref with ⟨pool, result⟩
      rw [done] at marks
      have there : (e.markDirty t ref).1.pool = pool := by rw [markDirty, done]
      have stays := e.pool.stays_marked t ref.frame page
      cases marks with
      | still resident =>
        refine .rests ?_ (there ▸ stays)
        simp only [used?, here, markDirty, done, if_pos resident]
      | swapped apart resident =>
        have enters : e.pool.Enters _ page.id := Pool.enters_of_marked (t := t) h at_frame apart
          (Pool.enters_promote (stays.ids ▸ Pool.mem_ids.mpr resident) ref.frame)
        refine .uses ?_ (there ▸ enters)
        simp only [used?, here, markDirty, done, if_neg apart]
      | regained gone room =>
        have apart : e.pool.frame? page.id ≠ some ref.frame := by simp [gone]
        have enters : e.pool.Enters _ page.id := Pool.enters_of_marked (t := t) h at_frame apart
          (Pool.enters_of_makeRoom (stays.ids ▸ Pool.not_mem_ids.mpr gone) room ref.frame)
        refine .uses ?_ (there ▸ enters)
        simp only [used?, here, markDirty, done, if_neg apart]
      | refused =>
        refine .rests ?_ (there ▸ stays)
        simp only [used?, here, markDirty, done]

/-- Whatever happens, as long as nobody is in the middle of writing to a page, is one of these. -/
theorem turns_happen (h : e.pool.Sound) (ev : Event) (calm : ∀ frames, ev ≠ .latch frames) :
    e.Turns ev (e.happen ev) := by
  cases ev with
  | openTable | addTable | release => exact .rests rfl (.refl _)
  | step t call => exact turns_step h t call
  | edit ref edit =>
    refine .rests rfl ?_
    rw [happen]
    split
    · exact Pool.stays_setFrame ..
    · exact .refl _
  | markDirty t ref => exact turns_markDirty h t ref
  | latch frames => exact absurd rfl (calm frames)
  | flushPage p => exact .rests rfl (stays_writeBackAll e ∅ [p])
  | flushAll => exact .rests rfl (stays_flush e _ ∅)
  | flushPagesOf t faults => exact .rests rfl (stays_flush e _ faults)
  | complete t commit faults => exact .ends (ends_complete e t commit faults)
  | discard p => exact .discards

/-! ## The pages that stay -/

/-- A page leaves a full memory for another one, and no other does. -/
structure Evicts (e e' : Engine) (us : List PageId) (p q : PageId) : Prop where
  new : e.pool.isResident p = false
  enters : e'.pool.isResident p = true
  full : e.pool.resident.length = e.pool.capacity
  clean : e.owner? q = none
  /-- All others without unwritten changes have been used since. -/
  oldest : ∀ r, e.pool.isResident r = true → e.owner? r = none → r ≠ q → Pool.idle us r < Pool.idle us q
  others : ∀ r, r ≠ p → r ≠ q → e'.pool.isResident r = e.pool.isResident r

/-- Why a page leaves memory in an event: it is discarded, or is one that a transaction has changed and
that cannot be read again, or another one is used, and takes its place. -/
inductive Leaves (e : Engine) (us : List PageId) (q : PageId) : Event → Prop where
  | discarded : Leaves e us q (.discard q)
  | unreadable {t : TxnId} {commit : Bool} {faults : Faults} (changed : e.pool.Noted t q)
    (unread : (e.complete t commit faults).1.Unreadable faults q) :
    Leaves e us q (.complete t commit faults)
  | evicted {ev : Event} {p : PageId} (used : e.used? ev = some p)
    (evicts : e.Evicts (e.happen ev) us p q) : Leaves e us q ev

/-- Memory holds what has been used last, after uses of pages one after another. -/
structure KeepsRecent (e : Engine) (us : List PageId) : Prop where
  within : e.pool.resident.length ≤ e.pool.capacity
  used : ∀ q, e.pool.isResident q = true → q ∈ us
  leaves : ∀ ev q, e.pool.isResident q = true → (e.happen ev).pool.isResident q = false →
    e.Leaves us q ev
  /-- A page that is not in memory, whose lock is granted, and that can be read, is refused just if memory
  is full of pages with unwritten changes, which then stay. -/
  refused : ∀ t p permission page, e.pool.isResident p = false →
    (e.locks.acquire t p permission.mode).2 = .granted → e.readPage p = .ok page →
    ((∃ e', e.getPage t p permission = (e', .failed .poolFull)) ↔
      e.pool.resident.length = e.pool.capacity ∧
        ∀ q, e.pool.isResident q = true → (e.owner? q).isSome = true) ∧
    ∀ e', e.getPage t p permission = (e', .failed .poolFull) → e'.pool = e.pool

/-- What carries a history of events in which nobody is in the middle of writing to a page. -/
structure Orderly (e : Engine) (us : List PageId) : Prop where
  sound : e.pool.Sound
  ranked : e.pool.Ranked us
  within : e.pool.ids.length ≤ e.pool.capacity
  unlatched : e.pool.latched = []

theorem Orderly.fewer (h : e.Orderly us) (sound : e'.pool.Sound)
    (capacity : e'.pool.capacity = e.pool.capacity) (latched : e'.pool.latched = e.pool.latched)
    (fewer : e'.pool.ids.Sublist e.pool.ids) : e'.Orderly us :=
  ⟨sound, h.ranked.fewer fewer, capacity ▸ Nat.le_trans fewer.length_le h.within,
    latched.trans h.unlatched⟩

theorem Orderly.happen (h : e.Orderly us) (calm : ∀ frames, ev ≠ .latch frames) :
    (e.happen ev).Orderly (us ++ (e.used? ev).toList) ∧
      (e.happen ev).pool.capacity = e.pool.capacity := by
  have sound := (carries_happen h.sound ev).sound h.sound
  have turns := turns_happen h.sound ev calm
  generalize e.happen ev = e' at sound turns ⊢
  cases turns with
  | uses used enters =>
    rw [used, Option.toList_some]
    exact ⟨⟨sound, h.ranked.enters enters, enters.within h.within, enters.latched.trans h.unlatched⟩,
      enters.capacity⟩
  | rests unused stays =>
    rw [unused, Option.toList_none, List.append_nil]
    exact ⟨h.fewer sound stays.capacity stays.latched (stays.ids ▸ .refl _), stays.capacity⟩
  | @discards p =>
    have unused : us ++ (e.used? (.discard p)).toList = us := List.append_nil us
    exact unused.symm ▸ ⟨h.fewer sound rfl rfl (Pool.ids_drop ▸ List.filter_sublist), rfl⟩
  | @ends t commit faults _ ends =>
    have unused : us ++ (e.used? (.complete t commit faults)).toList = us := List.append_nil us
    exact unused.symm ▸ ⟨h.fewer sound ends.capacity ends.latched ends.fewer, ends.capacity⟩

theorem orderly_after (disk : FileTree) (config : Config) (calm : ∀ frames, .latch frames ∉ es) :
    (after disk config es).Orderly (uses (new disk config) es) ∧
      (after disk config es).pool.capacity = max config.poolPages 1 := by
  induction es using List.reverseRecOn with
  | nil => exact ⟨⟨sound_after disk config [], ⟨nofun, .nil⟩, Nat.zero_le _, rfl⟩, rfl⟩
  | append_singleton es ev ih =>
    obtain ⟨orderly, capacity⟩ := ih fun frames mem => calm frames (List.mem_append_left _ mem)
    have quiet : ∀ frames, ev ≠ .latch frames := by
      rintro frames rfl
      exact calm frames (by simp)
    obtain ⟨orderly', capacity'⟩ := orderly.happen quiet
    rw [after_snoc, uses_snoc]
    exact ⟨orderly', capacity'.trans capacity⟩

/-- When a page is used, no page leaves but the victim, and only if memory is full. -/
theorem Orderly.evicts (h : e.Orderly us) (enters : e.pool.Enters e'.pool p)
    (here : e.pool.isResident q = true) (left : e'.pool.isResident q = false) : e.Evicts e' us p q := by
  have mem : q ∈ e.pool.ids := Pool.mem_ids.mpr here
  have out : q ∉ e'.pool.ids := fun there => by
    rw [Pool.mem_ids.mp there] at left
    cases left
  obtain ⟨-, -, entry⟩ := enters
  generalize after : e'.pool.ids = ids at entry
  rw [after] at out
  cases entry with
  | again there =>
    by_cases eq : q = p
    · exact absurd (eq ▸ .head _) out
    · exact absurd (.tail _ (List.mem_filter.mpr ⟨mem, by simpa using eq⟩)) out
  | fits => exact absurd (.tail _ mem) out
  | @replaces victim new full leaves =>
    obtain rfl : q = victim := by
      by_contra ne
      exact out (.tail _ (List.mem_filter.mpr ⟨mem, by simpa using ne⟩))
    refine ⟨Bool.eq_false_iff.mpr (mt Pool.mem_ids.mpr new), Pool.mem_ids.mp (after ▸ .head _), ?full,
      ?clean, ?oldest, ?others⟩
    case full =>
      have count : e.pool.ids.length = e.pool.resident.length := List.length_map _
      exact count ▸ Nat.le_antisymm h.within full
    case clean =>
      obtain ⟨page, there, clean⟩ := Pool.clean_of_victim? h.sound leaves
      rw [owner?, there, Option.bind_some, clean]
    case oldest =>
      intro r there unowned ne
      obtain ⟨i, frame⟩ := Option.isSome_iff_exists.mp there
      have clean : e.pool.isDirty i = false := by rw [isDirty_eq h.sound frame, unowned]; rfl
      have free : i ∉ e.pool.latched := by simp [h.unlatched]
      exact h.ranked.oldest leaves r i (Pool.mem_resident_of_frame? frame) clean free ne
    case others =>
      intro r ne_p ne_q
      rw [Bool.eq_iff_iff, ← Pool.mem_ids, ← Pool.mem_ids, after]
      simp [ne_p, ne_q]

/-- **Which pages leave memory.** After whatever has happened to an engine, with nobody in the middle of
writing to a page, no more pages are in memory than fit there. A page leaves it only because it is
discarded, because an abort cannot read it again, or because another one is used while memory is full; in
that case it is, among the pages without unwritten changes, the one that has not been used for the longest
time, and no other page leaves. A page that could be brought into memory otherwise is refused just if all
pages there have unwritten changes, and then memory stays as it is. -/
theorem keepsRecent_after (disk : FileTree) (config : Config) (calm : ∀ frames, .latch frames ∉ es) :
    (after disk config es).pool.capacity = max config.poolPages 1 ∧
      (after disk config es).KeepsRecent (uses (new disk config) es) := by
  obtain ⟨orderly, capacity⟩ := orderly_after disk config calm
  refine ⟨capacity, ?_⟩
  generalize after disk config es = e at orderly
  generalize uses (new disk config) es = us at orderly
  have within : e.pool.resident.length ≤ e.pool.capacity := by
    simpa [Pool.ids] using orderly.within
  refine ⟨within, fun q here => orderly.ranked.used q (Pool.mem_ids.mpr here), ?leaves, ?refused⟩
  case leaves =>
    intro ev q here left
    have calm : ∀ frames, ev ≠ .latch frames := by
      rintro frames rfl
      cases here.symm.trans left
    have turns := turns_happen orderly.sound ev calm
    have mem : q ∈ e.pool.ids := Pool.mem_ids.mpr here
    have out : q ∉ (e.happen ev).pool.ids := fun there => by
      rw [Pool.mem_ids.mp there] at left
      cases left
    generalize eq : e.happen ev = e' at left turns out
    cases turns with
    | uses used enters => exact .evicted used (eq ▸ orderly.evicts enters here left)
    | rests unused stays => exact absurd (stays.ids ▸ mem) out
    | @discards p =>
      obtain rfl : q = p := by
        by_contra ne
        exact out (by simpa using ⟨mem, ne⟩)
      exact .discarded
    | ends ends =>
      obtain ⟨changed, unread⟩ := ends.left q mem out
      subst eq
      exact .unreadable changed unread
  case refused =>
    intro t p permission page gone granted read
    refine ⟨poolFull_iff orderly.sound orderly.unlatched within gone granted read, fun e' failed => ?_⟩
    rcases enters_or_pool_eq failed with ⟨ref, fetched, -⟩ | ⟨-, same⟩
    · cases fetched
    · exact same

/-- A transaction reads a page of the table. -/
def reading (n : Nat) : Event := .step ⟨1⟩ (.fetch (numberPage n) .readOnly)

/-- A table is registered whose file has four pages. A number is put into the first one; the second and the
third page are read, and then the second one again. -/
def revisiting : List Event :=
  [.addTable "numbers" numbers none,
    .step ⟨1⟩ (.insertInto ⟨numbers, numberRecord 7, true, .fill 0 4⟩),
    reading 1, reading 2, reading 1]

/-- Three pages fit memory. The fourth page of the file takes the place of the third one: the first has not
been used for longer, but has been changed. -/
theorem keepsRecent_after_revisiting : ∃ e, (∀ frames, .latch frames ∉ revisiting) ∧
    e = after ((FileTree.empty "").write ["t"] (List.replicate 36 0)) ⟨9, 3⟩ revisiting ∧
    e.KeepsRecent ([0, 1, 2, 1].map numberPage) ∧
    e.Leaves ([0, 1, 2, 1].map numberPage) (numberPage 2) (reading 3) ∧
    (e.happen (reading 3)).pool.ids = [3, 1, 0].map numberPage := by
  have calm : ∀ frames, .latch frames ∉ revisiting := by simp [revisiting, reading]
  have recent :=
    (keepsRecent_after ((FileTree.empty "").write ["t"] (List.replicate 36 0)) ⟨9, 3⟩ calm).2
  have used : uses (new ((FileTree.empty "").write ["t"] (List.replicate 36 0)) ⟨9, 3⟩) revisiting
      = [0, 1, 2, 1].map numberPage := by decide +kernel
  rw [used] at recent
  refine ⟨_, calm, rfl, recent, recent.leaves (reading 3) (numberPage 2) ?_ ?_, ?_⟩
  · decide +kernel
  · decide +kernel
  · decide +kernel

end RowStore.Engine
