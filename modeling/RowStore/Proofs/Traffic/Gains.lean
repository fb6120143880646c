import RowStore.Proofs.Traffic.Placement

/-! # What a transaction gains
A transaction inserts rows one after another, and may have to wait in between. Whatever others do
meanwhile, as long as they leave its pages alone (`Respects`), it has exactly these rows more than before,
each in a place that was free (`Gains`). Main statements: an insertion that succeeds adds its row, and one
that waits or fails adds none (`Gains.run`); and after an abort none of the rows is left
(`Gains.aborted`). What an insertion does to tables and files does not depend on whether the engine is in
order (`run_insertion`). -/

namespace RowStore

/-- Whether a call inserts a tuple into a table, or goes on to do so. -/
inductive Call.IsInsertion (table : TableId) (tuple : Tuple) : Call → Prop
  | begins : IsInsertion table tuple (.insert table tuple)
  | goesOn {f : HeapFile} {noted : Bool} {stage : InsertStage} (id : f.id = table) :
    IsInsertion table tuple (.insertInto ⟨f, tuple, noted, stage⟩)

namespace Engine

variable {e e' e'' e₁ start : Engine} {t u : TxnId} {p : PageId} {permission : Permission}
  {table : TableId} {tuple : Tuple} {c : Call} {progress : Progress} {ended : RunEnd} {ref : PageRef}
  {page : Page} {i : Insertion} {reply : Reply} {id : RecordId} {r : RecordId}
  {placed : List (RecordId × List Value)}

/-! ## Tables and files -/

/-- Whether the tables are as they were, and all files but that of a table. -/
structure ChangesOnly (e e' : Engine) (table : TableId) : Prop where
  catalog : e'.catalog = e.catalog
  content : ∀ l, table ≠ .file l → e'.disk.content l = e.disk.content l

theorem ChangesOnly.of_disk (disk : e'.disk = e.disk) (catalog : e'.catalog = e.catalog) :
    e.ChangesOnly e' table :=
  ⟨catalog, fun l _ => by rw [disk]⟩

theorem ChangesOnly.trans (h : e.ChangesOnly e' table) (h' : e'.ChangesOnly e'' table) :
    e.ChangesOnly e'' table :=
  ⟨h'.catalog.trans h.catalog, fun l apart => (h'.content l apart).trans (h.content l apart)⟩

/-- To bring a page into memory changes no file. -/
theorem changesOnly_of_bring {frame : Nat} (h : e.bring p = .ok (e', frame)) :
    e.ChangesOnly e' table := by
  rw [bring] at h
  split at h
  · cases h
    exact .of_disk rfl rfl
  · obtain ⟨page, -, h⟩ := bind_eq_ok.mp h
    obtain ⟨⟨pool, frame'⟩, -, h⟩ := bind_eq_ok.mp h
    cases h
    exact .of_disk rfl rfl

theorem changesOnly_of_getPage {fetch : Fetch} (h : e.getPage t p permission = (e', fetch)) :
    e.ChangesOnly e' table := by
  have gets := gets_of_getPage h
  generalize (e.locks.acquire t p permission.mode).2 = answer at gets
  have asked : e.ChangesOnly (e.asking t p permission.mode) table := .of_disk rfl rfl
  cases gets with
  | waiting | deadlock | unserved => exact asked
  | served brought => exact asked.trans (changesOnly_of_bring brought)

/-- What a step of an insertion leads to. -/
structure InsertionStep (e e' : Engine) (table : TableId) (tuple : Tuple) (progress : Progress) :
    Prop where
  files : e.ChangesOnly e' table
  next : ∀ c, progress = .goesOn c → c.IsInsertion table tuple
  reply : ∀ reply, progress = .done (.ok reply) → ∃ id ref, reply = .inserted id ref

namespace InsertionStep

variable (files : e.ChangesOnly e' table)

include files

theorem waits : e.InsertionStep e' table tuple (.waits p) :=
  ⟨files, nofun, nofun⟩

theorem failed {err : FileError} : e.InsertionStep e' table tuple (.done (.error err)) :=
  ⟨files, nofun, nofun⟩

theorem inserted : e.InsertionStep e' table tuple (.done (.ok (.inserted id ref))) :=
  ⟨files, nofun, fun _ eq => ⟨id, ref, (Except.ok.inj (Progress.done.inj eq)).symm⟩⟩

theorem goesOn (insertion : c.IsInsertion table tuple) : e.InsertionStep e' table tuple (.goesOn c) :=
  ⟨files, fun _ eq => Progress.goesOn.inj eq ▸ insertion, nofun⟩

end InsertionStep

/-- A step that fetches a page waits or fails, or else does what is done with the page. -/
theorem insertionStep_of_withPage {use : Engine → PageRef → Page → Engine × Progress}
    (used : ∀ (e₁ : Engine) ref page,
      e₁.InsertionStep (use e₁ ref page).1 table tuple (use e₁ ref page).2)
    (hs : e.withPage t p permission use = (e', progress)) : e.InsertionStep e' table tuple progress := by
  rcases got : e.getPage t p permission with ⟨e₁, fetch⟩
  have files : e.ChangesOnly e₁ table := changesOnly_of_getPage got
  simp only [withPage, got] at hs
  cases fetch with
  | waiting =>
    obtain ⟨rfl, rfl⟩ := Prod.mk.inj hs
    exact .waits files
  | failed =>
    obtain ⟨rfl, rfl⟩ := Prod.mk.inj hs
    exact .failed files
  | fetched ref =>
    dsimp only at hs
    split at hs
    · next page here =>
      have after := used e₁ ref page
      rw [hs] at after
      exact ⟨files.trans after.files, after.next, after.reply⟩
    · obtain ⟨rfl, rfl⟩ := Prod.mk.inj hs
      exact .failed files

/-- What puts a tuple into a page fails, or yields the record id that the page has given. -/
theorem place_cases (table : TableId) (hs : e.place t i ref page = (e', progress)) :
    e.ChangesOnly e' table ∧ ((∃ err, progress = .done (.error err)) ∨
      ∃ id new, page.insert i.tuple = .ok (id, new) ∧ progress = .done (.ok (.inserted id ref))) := by
  rw [place] at hs
  split at hs
  · obtain ⟨rfl, rfl⟩ := Prod.mk.inj hs
    exact ⟨.of_disk rfl rfl, .inl ⟨_, rfl⟩⟩
  · next id new inserted =>
    rw [endChange] at hs
    split at hs
    · split at hs
      · next marked =>
        obtain ⟨rfl, rfl⟩ := Prod.mk.inj hs
        obtain ⟨rfl, -⟩ := Prod.mk.inj marked
        exact ⟨.of_disk rfl rfl, .inr ⟨id, new, inserted, rfl⟩⟩
      · next marked =>
        obtain ⟨rfl, rfl⟩ := Prod.mk.inj hs
        obtain ⟨rfl, -⟩ := Prod.mk.inj marked
        exact ⟨.of_disk rfl rfl, .inl ⟨_, rfl⟩⟩
    · obtain ⟨rfl, rfl⟩ := Prod.mk.inj hs
      exact ⟨.of_disk rfl rfl, .inr ⟨id, new, inserted, rfl⟩⟩

theorem insertionStep_of_place (hs : e.place t i ref page = (e', progress)) :
    e.InsertionStep e' table tuple progress := by
  obtain ⟨files, ⟨err, rfl⟩ | ⟨id, new, -, rfl⟩⟩ := place_cases table hs
  · exact .failed files
  · exact .inserted files

/-- A step of an insertion changes no file but that of its table. -/
theorem insertionStep_of_step (insertion : c.IsInsertion table tuple)
    (hs : e.step t c = (e', progress)) : e.InsertionStep e' table tuple progress := by
  cases insertion with
  | begins =>
    rw [step] at hs
    split at hs
    · next file found =>
      obtain ⟨rfl, rfl⟩ := Prod.mk.inj hs
      exact .goesOn (.of_disk rfl rfl) (.goesOn (Catalog.id_of_file? (file_eq_ok.mp found)))
    · obtain ⟨rfl, rfl⟩ := Prod.mk.inj hs
      exact .failed (.of_disk rfl rfl)
  | @goesOn f noted stage id =>
    subst id
    have onwards : ∀ (e : Engine) (stage : InsertStage), e.InsertionStep e f.id tuple
        (.goesOn (.insertInto ⟨f, tuple, noted, stage⟩)) :=
      fun e stage => .goesOn (.of_disk rfl rfl) (.goesOn rfl)
    have filling : ∀ (e₁ : Engine) (ref : PageRef) (page : Page) (full now : InsertStage),
        e₁.InsertionStep (if page.isFull then (e₁, .goesOn (.insertInto ⟨f, tuple, noted, full⟩))
          else e₁.place t ⟨f, tuple, noted, now⟩ ref page).1 f.id tuple
          (if page.isFull then (e₁, .goesOn (.insertInto ⟨f, tuple, noted, full⟩))
            else e₁.place t ⟨f, tuple, noted, now⟩ ref page).2 := by
      intro e₁ ref page full now
      split
      · exact onwards e₁ full
      · exact insertionStep_of_place rfl
    cases stage with
    | check =>
      simp only [step, stepInsert] at hs
      split at hs
      · obtain ⟨rfl, rfl⟩ := Prod.mk.inj hs
        exact onwards ..
      · obtain ⟨rfl, rfl⟩ := Prod.mk.inj hs
        exact .failed (.of_disk rfl rfl)
    | probe n numPages =>
      simp only [step, stepInsert] at hs
      split at hs
      · exact insertionStep_of_withPage (fun e₁ _ _ => onwards e₁ _) hs
      · obtain ⟨rfl, rfl⟩ := Prod.mk.inj hs
        exact onwards ..
    | fill n numPages | settle n =>
      exact insertionStep_of_withPage (fun e₁ ref page => filling e₁ ref page _ _) hs
    | grow =>
      obtain ⟨rfl, rfl⟩ := Prod.mk.inj hs
      have files : e.ChangesOnly (e.allocate f).1 f.id := by
        refine ⟨rfl, fun l apart => ?_⟩
        rw [allocate]
        exact FileTree.content_write_of_ne _ _ fun eq => apart (congrArg TableId.file eq.symm)
      exact .goesOn files (.goesOn rfl)

/-- How a run of an insertion ends. -/
inductive InsertionEnd (table : TableId) (tuple : Tuple) : RunEnd → Prop
  | inserted {last : Call} {id : RecordId} {ref : PageRef} :
    InsertionEnd table tuple (.over last (.ok (.inserted id ref)))
  | failed {last : Call} {err : FileError} : InsertionEnd table tuple (.over last (.error err))
  | waits {c : Call} {p : PageId} (insertion : c.IsInsertion table tuple) :
    InsertionEnd table tuple (.waits c p)

theorem runSteps_insertion {fuel : Nat} (insertion : c.IsInsertion table tuple)
    (hr : runSteps t fuel e c = (e', ended)) : e.ChangesOnly e' table ∧ InsertionEnd table tuple ended := by
  induction fuel generalizing e c with
  | zero =>
    obtain ⟨rfl, rfl⟩ := Prod.mk.inj hr
    exact ⟨.of_disk rfl rfl, .failed⟩
  | succ fuel ih =>
    rw [runSteps] at hr
    split at hr
    · next e₁ result hs =>
      obtain ⟨rfl, rfl⟩ := Prod.mk.inj hr
      have taken := insertionStep_of_step insertion hs
      cases result with
      | error err => exact ⟨taken.files, .failed⟩
      | ok reply =>
        obtain ⟨id, ref, rfl⟩ := taken.reply reply rfl
        exact ⟨taken.files, .inserted⟩
    · next e₁ next hs =>
      have taken := insertionStep_of_step insertion hs
      obtain ⟨files, ends⟩ := ih (taken.next next rfl) hr
      exact ⟨taken.files.trans files, ends⟩
    · next e₁ p hs =>
      obtain ⟨rfl, rfl⟩ := Prod.mk.inj hr
      exact ⟨(insertionStep_of_step insertion hs).files, .waits insertion⟩

/-- An insertion changes no file but that of its table; it succeeds, fails, or waits to go on. -/
theorem run_insertion (insertion : c.IsInsertion table tuple) (hr : e.run t c = (e', ended)) :
    e.ChangesOnly e' table ∧ InsertionEnd table tuple ended :=
  runSteps_insertion insertion hr

/-! ## What others leave alone -/

/-- Whether somebody has left the pages alone that a transaction has changed, and the engine in order. -/
structure Respects (e e' : Engine) (t : TxnId) : Prop where
  sound : e'.Sound
  files : e.Extends e'
  owner : ∀ p, e'.owner? p = some t ↔ e.owner? p = some t
  current : ∀ r, e.owner? r.page = some t → e'.currentRow r = e.currentRow r
  stored : ∀ r, e.owner? r.page = some t → e'.storedRow r = e.storedRow r

theorem Sound.respects (h : e.Sound) (t : TxnId) : e.Respects e t :=
  ⟨h, .of_disk rfl rfl, fun _ => .rfl, fun _ _ => rfl, fun _ _ => rfl⟩

/-- A step of another transaction leaves the pages alone. -/
theorem Steps.respects {change? : Option Change} (h : e.Steps e' u change?) (ne : u ≠ t) :
    e.Respects e' t := by
  have apart : ∀ p, e.owner? p = some t → p ∉ change?.map (·.id.page) := by
    intro p mine mem
    obtain ⟨c, here, rfl⟩ := Option.map_eq_some_iff.mp mem
    rcases h.free c here with nobody | theirs
    · cases nobody.symm.trans mine
    · exact ne (Option.some.inj (theirs.symm.trans mine))
  refine ⟨h.sound, h.files, fun p => ?owner, fun r mine => ?current, fun r _ => congrFun h.stored r⟩
  case owner =>
    rw [h.owner]
    split
    · next mem =>
      have other : e.owner? p ≠ some t := fun mine => apart p mine mem
      simp [other, ne]
    · rfl
  case current =>
    rw [h.current, Rows.after_of_not_mem]
    rintro c mem rfl
    exact apart _ mine (Option.map_eq_some_iff.mpr ⟨c, Option.mem_toList.mp mem, rfl⟩)

/-- The end of another transaction leaves the pages alone. -/
theorem Sound.respects_complete (h : e.Sound) (ne : u ≠ t) (commit : Bool) (faults : Faults) :
    e.Respects (e.complete u commit faults).1 t := by
  rcases ended : e.complete u commit faults with ⟨e', result⟩
  obtain ⟨written, torn?, completes, -⟩ := completes_complete h ended
  have theirs : ∀ {p}, e.owner? p = some t → e.owner? p ≠ some u :=
    fun mine other => ne (Option.some.inj (other.symm.trans mine))
  refine ⟨completes.sound, .of_lengths completes.catalog completes.lengths, fun p => ?owner,
    fun r mine => ?current, fun r mine => completes.storedRow_of_owner?_ne (theirs mine) r.slot⟩
  case owner =>
    rw [completes.owner?_eq_some]
    exact and_iff_right ne.symm
  case current => rw [completes.current, if_neg (theirs mine)]

/-- To forget which pages were released leaves the pages alone. -/
theorem Sound.respects_unnotified (h : e.Sound) (t : TxnId) :
    e.Respects { e with locks.notified := [] } t where
  sound := ⟨⟨h.storable, h.toCoherent.locks.congr rfl fun _ _ _ => rfl, h.pool, h.resident, h.clean⟩,
    h.noted, h.locked⟩
  files := .of_disk rfl rfl
  owner _ := .rfl
  current _ _ := rfl
  stored _ _ := rfl

/-! ## Rows that are added -/

/-- The rows of the pages that a transaction has changed, as they would be without what it has done since
a start: as they were then, or as they are on the disk. -/
def without (start e : Engine) (t : TxnId) : Rows := fun r =>
  if start.owner? r.page = some t then start.currentRow r else e.storedRow r

/-- What a transaction has added to a table since a start: these rows, each in a place that was free, and
nothing else. -/
structure Gains (start e : Engine) (t : TxnId) (table : TableId)
    (placed : List (RecordId × List Value)) : Prop where
  sound : e.Sound
  /-- What it had changed before is still unwritten, and on the disk as it was. -/
  kept : ∀ p, start.owner? p = some t →
    e.owner? p = some t ∧ ∀ slot, e.storedRow ⟨p, slot⟩ = start.storedRow ⟨p, slot⟩
  distinct : (placed.map Prod.fst).Nodup
  inTable : ∀ row ∈ placed, row.1.page.table = table
  owned : ∀ row ∈ placed, e.owner? row.1.page = some t
  free : ∀ row ∈ placed, start.without e t row.1 = none
  rows : ∀ row ∈ placed, e.currentRow row.1 = some row.2
  others : ∀ r, e.owner? r.page = some t → r ∉ placed.map Prod.fst →
    e.currentRow r = start.without e t r

/-- At the start nothing has been added. -/
theorem Sound.gains (h : start.Sound) (t : TxnId) (table : TableId) : start.Gains start t table [] where
  sound := h
  kept _ mine := ⟨mine, fun _ => rfl⟩
  distinct := .nil
  inTable := nofun
  owned := nofun
  free := nofun
  rows := nofun
  others _ mine _ := (if_pos mine).symm

namespace Gains

variable (h : start.Gains e t table placed)

include h

/-- What others do adds nothing. -/
theorem respected (he : e.Respects e' t) : start.Gains e' t table placed := by
  have same : ∀ r, e.owner? r.page = some t → start.without e' t r = start.without e t r := by
    intro r mine
    rw [without, without, he.stored r mine]
  refine ⟨he.sound, fun p mine => ?kept, h.distinct, h.inTable, fun row mem => ?owned, fun row mem => ?free,
    fun row mem => ?rows, fun r mine out => ?others⟩
  case kept =>
    obtain ⟨owner, stored⟩ := h.kept p mine
    exact ⟨(he.owner p).mpr owner, fun slot => (he.stored ⟨p, slot⟩ owner).trans (stored slot)⟩
  case owned => exact (he.owner _).mpr (h.owned row mem)
  case free => exact (same _ (h.owned row mem)).trans (h.free row mem)
  case rows => exact (he.current _ (h.owned row mem)).trans (h.rows row mem)
  case others =>
    have mine := (he.owner _).mp mine
    rw [he.current r mine, same r mine, h.others r mine out]

/-- A page that nobody has changed is on the disk as it would be without the transaction. -/
theorem currentRow_eq_without (free : e.owner? r.page = none ∨ e.owner? r.page = some t)
    (out : r ∉ placed.map Prod.fst) : e.currentRow r = start.without e t r := by
  rcases free with nobody | mine
  · rw [h.sound.currentRow_of_owner? nobody, without, if_neg]
    intro before
    cases nobody.symm.trans (h.kept r.page before).1
  · exact h.others r mine out

/-- A step that changes no row adds none. -/
theorem steps_none (steps : e.Steps e' t none) : start.Gains e' t table placed := by
  have current : e'.currentRow = e.currentRow := steps.current
  have owner : ∀ p, e'.owner? p = e.owner? p := fun p => (steps.owner p).trans (if_neg (by simp))
  have same : start.without e' t = start.without e t := by
    funext r
    rw [without, without, steps.stored]
  refine ⟨steps.sound, fun p mine => ?kept, h.distinct, h.inTable, fun row mem => ?owned,
    fun row mem => ?free, fun row mem => ?rows, fun r mine out => ?others⟩
  case kept =>
    obtain ⟨before, stored⟩ := h.kept p mine
    exact ⟨(owner p).trans before, fun slot => (congrFun steps.stored _).trans (stored slot)⟩
  case owned => exact (owner _).trans (h.owned row mem)
  case free => exact (congrFun same _).trans (h.free row mem)
  case rows => exact (congrFun current _).trans (h.rows row mem)
  case others =>
    rw [current, same]
    exact h.others r ((owner _).symm.trans mine) out

/-- A step that puts a row into a free slot adds it. -/
theorem steps_some {values : List Value} (steps : e.Steps e' t (some ⟨id, some values⟩))
    (place : id.page.table = table) (empty : e.currentRow id = none) :
    start.Gains e' t table (placed ++ [(id, values)]) := by
  have current : ∀ r, e'.currentRow r = if r = id then some values else e.currentRow r := by
    intro r
    rw [steps.current]
    rfl
  have owner : ∀ p, e'.owner? p = if p = id.page then some t else e.owner? p := by
    intro p
    rw [steps.owner]
    simp [eq_comm]
  have same : start.without e' t = start.without e t := by
    funext r
    rw [without, without, steps.stored]
  have free : e.owner? id.page = none ∨ e.owner? id.page = some t := steps.free _ rfl
  have new : id ∉ placed.map Prod.fst := by
    intro mem
    obtain ⟨row, here, rfl⟩ := List.mem_map.mp mem
    cases (h.rows row here).symm.trans empty
  have others : ∀ row ∈ placed, row.1 ≠ id :=
    fun row mem eq => new (eq ▸ List.mem_map_of_mem mem)
  have kept : ∀ {p}, e.owner? p = some t → e'.owner? p = some t := by
    intro p mine
    rw [owner, mine, ite_self]
  refine ⟨steps.sound, fun p mine => ?kept, ?distinct, fun row mem => ?inTable, fun row mem => ?owned,
    fun row mem => ?free, fun row mem => ?rows, fun r mine out => ?others⟩
  case kept =>
    obtain ⟨before, stored⟩ := h.kept p mine
    exact ⟨kept before, fun slot => (congrFun steps.stored _).trans (stored slot)⟩
  case distinct =>
    rw [List.map_append, List.map_singleton]
    refine List.nodup_append.mpr ⟨h.distinct, List.nodup_singleton _, fun r mem s mem' eq => new ?_⟩
    have last : r = id := eq.trans (List.mem_singleton.mp mem')
    exact last ▸ mem
  case inTable =>
    rcases List.mem_append.mp mem with old | last
    · exact h.inTable row old
    · rw [List.mem_singleton.mp last, place]
  case owned =>
    rcases List.mem_append.mp mem with old | last
    · exact kept (h.owned row old)
    · rw [List.mem_singleton.mp last, owner, if_pos rfl]
  case free =>
    rw [same]
    rcases List.mem_append.mp mem with old | last
    · exact h.free row old
    · rw [List.mem_singleton.mp last, ← h.currentRow_eq_without free new, empty]
  case rows =>
    rw [current]
    rcases List.mem_append.mp mem with old | last
    · rw [if_neg (others row old), h.rows row old]
    · rw [List.mem_singleton.mp last, if_pos rfl]
  case others =>
    rw [List.map_append, List.mem_append, not_or] at out
    obtain ⟨out, other⟩ := out
    rw [current, if_neg fun eq => other (List.mem_singleton.mpr eq), same]
    refine h.currentRow_eq_without ?_ out
    rw [owner] at mine
    split at mine
    · next here => rwa [here]
    · exact .inr mine

end Gains

/-- A step that has inserted a record has put it into a free slot of a page of its table. -/
theorem spec_of_inserted (h : e.Sound)
    (hs : e.step t (.insertInto i) = (e', .done (.ok (.inserted id ref)))) :
    e.currentRow id = none ∧ id.page.table = i.file.id := by
  have placed : ∀ {n : Nat} {e₁ : Engine} {ref' : PageRef} {page : Page},
      e.getPage t ⟨i.file.id, n⟩ .readWrite = (e₁, .fetched ref') → e₁.page? ref' = some page →
      e₁.place t i ref' page = (e', .done (.ok (.inserted id ref))) →
      e.currentRow id = none ∧ id.page.table = i.file.id := by
    intro n e₁ ref' page fetched here hs
    obtain ⟨page', here', resident, same⟩ := current?_of_fetched h.toCoherent fetched
    obtain rfl := Option.some.inj (here'.symm.trans here)
    obtain ⟨-, ⟨err, eq⟩ | ⟨id', new, inserted, eq⟩⟩ := place_cases i.file.id hs
    · cases eq
    cases eq
    obtain ⟨-, at_page, -⟩ := Page.insert_cases inserted
    have there : id.page = ⟨i.file.id, n⟩ := at_page.trans same
    refine ⟨?_, by rw [there]⟩
    rw [← (fetches_getPage h.toCoherent fetched).1.current, currentRow, there,
      current?_of_resident resident, Option.bind_some]
    exact Page.row?_of_not_isUsed (Page.first_of_insert inserted).1
  obtain ⟨file, tuple, noted, stage⟩ := i
  cases stage with
  | check =>
    simp only [step, stepInsert] at hs
    split at hs
    · cases hs
    · cases hs
  | probe n numPages =>
    simp only [step, stepInsert] at hs
    split at hs
    · obtain ⟨e₁, ref, page, -, -, hs⟩ := done_of_withPage hs
      cases hs
    · cases hs
  | grow => cases hs
  | fill n numPages | settle n =>
    obtain ⟨e₁, ref, page, fetched, here, hs⟩ := done_of_withPage hs
    dsimp only at hs
    split at hs
    · cases hs
    · exact placed fetched here hs

/-- What has been added when a run of an insertion has ended: its row, if it was inserted. -/
inductive RunGains (start e : Engine) (t : TxnId) (table : TableId) (tuple : Tuple)
    (placed : List (RecordId × List Value)) : RunEnd → Prop
  | inserted {last : Call} {id : RecordId} {ref : PageRef}
      (gains : start.Gains e t table (placed ++ [(id, tuple.values)])) :
    RunGains start e t table tuple placed (.over last (.ok (.inserted id ref)))
  | failed {last : Call} {err : FileError} (gains : start.Gains e t table placed) :
    RunGains start e t table tuple placed (.over last (.error err))
  | waits {c : Call} {p : PageId} (sound : c.Sound e) (gains : start.Gains e t table placed) :
    RunGains start e t table tuple placed (.waits c p)

namespace Gains

/-- A step of an insertion that has inserted its record adds the row. -/
theorem step_inserted (h : start.Gains e t table placed) (insertion : c.IsInsertion table tuple)
    (sound : c.Sound e) (hs : e.step t c = (e', .done (.ok (.inserted id ref)))) :
    start.Gains e' t table (placed ++ [(id, tuple.values)]) := by
  obtain ⟨steps, -⟩ := steps_step h.sound sound hs
  cases insertion with
  | begins =>
    rw [Engine.step] at hs
    split at hs
    · cases hs
    · cases hs
  | goesOn eq =>
    obtain ⟨empty, place⟩ := spec_of_inserted h.sound hs
    exact h.steps_some steps (place.trans eq) empty

theorem runSteps {fuel : Nat} (h : start.Gains e t table placed) (insertion : c.IsInsertion table tuple)
    (sound : c.Sound e) (hr : runSteps t fuel e c = (e', ended)) :
    RunGains start e' t table tuple placed ended := by
  induction fuel generalizing e c with
  | zero =>
    obtain ⟨rfl, rfl⟩ := Prod.mk.inj hr
    exact .failed h
  | succ fuel ih =>
    rw [Engine.runSteps] at hr
    rcases hs : e.step t c with ⟨e₁, progress⟩
    obtain ⟨steps, next_sound⟩ := steps_step h.sound sound hs
    have taken := insertionStep_of_step insertion hs
    rw [hs] at hr
    cases progress with
    | goesOn next =>
      rw [Change.of?_goesOn] at steps
      exact ih (h.steps_none steps) (taken.next next rfl) (next_sound next rfl) hr
    | waits p =>
      obtain ⟨rfl, rfl⟩ := Prod.mk.inj hr
      rw [Change.of?_waits] at steps
      exact .waits (sound.extends steps.files) (h.steps_none steps)
    | done result =>
      obtain ⟨rfl, rfl⟩ := Prod.mk.inj hr
      cases result with
      | error err =>
        rw [Change.of?_error] at steps
        exact .failed (h.steps_none steps)
      | ok reply =>
        obtain ⟨id, ref, rfl⟩ := taken.reply reply rfl
        exact .inserted (h.step_inserted insertion sound hs)

/-- **What an insertion adds.** It adds its row if it succeeds, and nothing if it fails or has to wait. -/
theorem run (h : start.Gains e t table placed) (insertion : c.IsInsertion table tuple)
    (sound : c.Sound e) (hr : e.run t c = (e', ended)) :
    RunGains start e' t table tuple placed ended :=
  h.runSteps insertion sound hr

/-- **After an abort none of the rows is left.** Where the transaction had changed nothing before, their
places are free again; and where it had, they are as they are on the disk. -/
theorem aborted (h : start.Gains e t table placed) : ∃ e', e.complete t false = (e', .ok ()) ∧
    ∀ row ∈ placed, e'.currentRow row.1 =
      if start.owner? row.1.page = some t then start.storedRow row.1 else none := by
  obtain ⟨e', done⟩ : ∃ e', e.complete t false = (e', .ok ()) := ⟨_, rfl⟩
  obtain ⟨written, torn?, completes, aborts, -, whole⟩ := completes_complete h.sound done
  obtain ⟨rfl, -⟩ := aborts rfl
  obtain rfl := whole rfl
  refine ⟨e', done, fun row mem => ?_⟩
  rw [completes.current, if_pos (h.owned row mem), completes.stored _ nofun,
    if_neg List.not_mem_nil]
  have free := h.free row mem
  rw [without] at free
  split
  · next before => exact (h.kept _ before).2 _
  · next new => rwa [if_neg new] at free

end Gains

end Engine

end RowStore
