import RowStore.Proofs.Engine.Change
import RowStore.Proofs.Page.Writing

/-! # What the end of a transaction does
A commit writes pages, up to the first whose write fails (`Writes`); an abort and a commit that fails read
pages again (`Reverts`). Both take pages one after another, so what they do is told for lists of pages. Of
a write that stops early a page is left that is new up to some octet, and old from there on (`Torn`). Main
statement: `completes_complete`, what becomes of the rows in memory and on the disk, of the unwritten
changes, and of the locks, when a transaction ends in any of these ways. -/

namespace RowStore.Engine

variable {e e' e'' : Engine} {t u : TxnId} {p q : PageId} {page : Page} {ps qs : List PageId}
  {torn? : Option PageId} {faults : Faults} {result : Except FileError Unit}

/-! ## Writing back -/

/-- A page on the disk of which only so many octets have been written: they are those of the page as it
was in memory, and behind them stands what was there before. -/
def Torn (e e' : Engine) (p : PageId) (count : Nat) : Prop :=
  ∃ f page octets, e.catalog.file? p.table = some f ∧ e.pool.page? p = some page ∧
    page.encode = .ok octets ∧ f.octets (e'.octets f) p.number
      = octets.take count ++ (f.octets (e.octets f) p.number).drop count

/-- What it leads to that the unwritten changes of pages are written. Behind the pages there may be one
whose write has stopped early. -/
structure Writes (e e' : Engine) (ps : List PageId) (torn? : Option PageId) (faults : Faults) :
    Prop where
  sound : e'.Sound
  catalog : e'.catalog = e.catalog
  locks : e'.locks = e.locks
  lengths : ∀ table f, e.catalog.file? table = some f →
    (e'.octets f).length = (e.octets f).length
  owner : ∀ p, e'.owner? p = if p ∈ ps then none else e.owner? p
  current : e'.currentRow = e.currentRow
  stored : ∀ r, torn? ≠ some r.page →
    e'.storedRow r = if r.page ∈ ps then e.currentRow r else e.storedRow r
  dirtied : ∀ u, (∀ p ∈ ps, e.owner? p ≠ some u) → e'.pool.dirtied.get? u = e.pool.dirtied.get? u
  kept : ∀ (i : Nat) (other : Page), e.pool.frames[i]? = some other → other.id ∉ ps →
    e'.pool.frames[i]? = some other
  resident : ∀ p ∉ ps, e'.pool.page? p = e.pool.page? p
  octets : ∀ p ∉ ps, torn? ≠ some p → ∀ f, e.catalog.file? p.table = some f →
    f.octets (e'.octets f) p.number = f.octets (e.octets f) p.number
  torn : ∀ p, torn? = some p → p ∉ ps ∧ e.owner? p ≠ none ∧
    ∃ fault, faults.write? p = some fault ∧ e.Torn e' p fault.octets

theorem Writes.nil (h : e.Sound) (faults : Faults) : e.Writes e [] none faults where
  sound := h
  catalog := rfl
  locks := rfl
  lengths _ _ _ := rfl
  owner _ := rfl
  current := rfl
  stored _ _ := rfl
  dirtied _ _ := rfl
  kept _ _ here _ := here
  resident _ _ := rfl
  octets _ _ _ _ _ := rfl
  torn := nofun

theorem Writes.append (h : e.Writes e' ps none faults) (h' : e'.Writes e'' qs torn? faults) :
    e.Writes e'' (ps ++ qs) torn? faults where
  sound := h'.sound
  catalog := h'.catalog.trans h.catalog
  locks := h'.locks.trans h.locks
  lengths table f found := (h'.lengths table f (h.catalog ▸ found)).trans (h.lengths table f found)
  owner p := by
    rw [h'.owner, h.owner]
    by_cases early : p ∈ ps <;> by_cases late : p ∈ qs <;> simp [early, late]
  current := h'.current.trans h.current
  stored r whole := by
    rw [h'.stored r whole, h.stored r nofun, h.current]
    by_cases early : r.page ∈ ps <;> by_cases late : r.page ∈ qs <;> simp [early, late]
  dirtied u others := by
    rw [h'.dirtied u, h.dirtied u]
    · exact fun p mem => others p (List.mem_append_left _ mem)
    · intro p mem
      rw [h.owner]
      split
      · exact nofun
      · exact others p (List.mem_append_right _ mem)
  kept i other here out := by
    rw [List.mem_append, not_or] at out
    exact h'.kept i other (h.kept i other here out.1) out.2
  resident p out := by
    rw [List.mem_append, not_or] at out
    rw [h'.resident p out.2, h.resident p out.1]
  octets p out whole f found := by
    rw [List.mem_append, not_or] at out
    rw [h'.octets p out.2 whole f (h.catalog ▸ found), h.octets p out.1 nofun f found]
  -- a page whose write has stopped has not been written before, and was still as it was at first
  torn p eq := by
    obtain ⟨late, dirty, fault, given, f, page, octets, found, here, encoded, left⟩ := h'.torn p eq
    have early : p ∉ ps := fun mem => dirty (by rw [h.owner, if_pos mem])
    rw [h.owner, if_neg early] at dirty
    rw [h.catalog] at found
    rw [h.resident p early] at here
    rw [h.octets p early nofun f found] at left
    exact ⟨by simp [early, late], dirty, fault, given, f, page, octets, found, here, encoded, left⟩

/-- A page in memory may be written over on the disk, and what is in memory is still well formed and read
from there. -/
theorem Rooted.touched {disk : FileTree} (h : e.Rooted) (touches : e.Touches p disk) :
    ({ e with disk } : Engine).Rooted := by
  refine h.next rfl h.pool ?stored fun q new here => .inr ⟨new, here, rfl, id⟩
  case stored =>
    intro q old hold
    by_cases eq : q = p
    · subst eq
      exact touches.exists_stored? hold
    · exact ⟨old, (touches.stored?_eq eq).trans hold⟩

/-- Nothing has to agree with the disk on a page that has unwritten changes. -/
theorem Coherent.touched {disk : FileTree} (h : e.Coherent) (touches : e.Touches p disk)
    (dirty : e.owner? p ≠ none) : ({ e with disk } : Engine).Coherent where
  storable := h.storable
  locks := h.locks
  pool := h.pool
  resident := (h.rooted.touched touches).resident
  clean q page stored here clean on_disk := by
    have ne : q ≠ p := by
      rintro rfl
      exact dirty (by rw [owner?, show e.pool.page? q = some page from here, Option.bind_some, clean])
    exact h.clean q page stored here clean ((touches.stored?_eq ne).symm.trans on_disk)

/-- A page with unwritten changes is in memory, so that it is not looked for on the disk. -/
theorem current?_of_touches {disk : FileTree} (touches : e.Touches p disk) (dirty : e.owner? p ≠ none) :
    ({ e with disk } : Engine).current? = e.current? := by
  funext q
  rw [current?, current?]
  by_cases eq : q = p
  · subst eq
    cases here : e.pool.page? q with
    | some page => rfl
    | none => exact absurd (by rw [owner?, here, Option.bind_none]) dirty
  · rw [touches.stored?_eq eq]

/-- What a write that has stopped early leads to. -/
theorem Writes.of_torn {disk : FileTree} {fault : WriteFault} (h : e.Sound)
    (touches : e.Touches p disk) (dirty : e.owner? p ≠ none) (given : faults.write? p = some fault)
    (torn : e.Torn { e with disk } p fault.octets) :
    e.Writes { e with disk } [] (some p) faults where
  sound := ⟨h.toCoherent.touched touches dirty, h.noted, h.locked⟩
  catalog := rfl
  locks := rfl
  lengths := touches.lengths
  owner _ := rfl
  current := by
    funext r
    rw [currentRow, currentRow, current?_of_touches touches dirty]
  stored r whole := by
    have ne : r.page ≠ p := fun eq => whole (congrArg some eq.symm)
    rw [storedRow, touches.stored?_eq ne, storedRow, if_neg List.not_mem_nil]
  dirtied _ _ := rfl
  kept _ _ here _ := here
  resident _ _ := rfl
  octets q _ whole := touches.others q fun eq => whole (congrArg some eq.symm)
  torn q eq := by
    obtain rfl := Option.some.inj eq
    exact ⟨List.not_mem_nil, dirty, fault, given, torn⟩

section WriteBack

variable {frame : Nat} {disk : FileTree}

/-- The engine after a page has been written to the disk. -/
def written (e : Engine) (disk : FileTree) (t : TxnId) (p : PageId) (frame : Nat) (page : Page) :
    Engine :=
  { e with disk, pool := (e.pool.setFrame frame (page.mark none)).noteWritten t p }

variable (resident : e.pool.frame? p = some frame)

include resident

theorem page?_written (h : e.pool.Sound) (q : PageId) :
    (e.written disk t p frame page).pool.page? q =
      if q = p then some (page.mark none) else e.pool.page? q := by
  rw [written, Pool.page?_congr (p := e.pool.setFrame frame (page.mark none))
    Pool.frames_noteWritten Pool.resident_noteWritten, Pool.page?_setFrame h resident]

theorem owner?_written (h : e.pool.Sound) (q : PageId) : (e.written disk t p frame page).owner? q =
    if q = p then none else e.owner? q := by
  rw [owner?, page?_written resident h]
  split
  · rfl
  · rfl

section Stored

variable (here : e.pool.page? p = some page)
  (on_disk : ∃ stored, ({ e with disk } : Engine).stored? p = some stored ∧ page.Agrees stored)
  (touches : e.Touches p disk)

include here on_disk touches

theorem rooted_written (h : e.Rooted) : (e.written disk t p frame page).Rooted := by
  have stored : (e.written disk t p frame page).stored? = ({ e with disk } : Engine).stored? :=
    stored?_congr rfl rfl
  refine h.next rfl ?pool ?stored ?pages
  case pool =>
    obtain ⟨found, at_frame, id⟩ := h.pool.exists_page resident
    have cleaned : (e.pool.setFrame frame (page.mark none)).Sound := by
      refine h.pool.setFrame fun found' at_i => ?_
      rw [at_frame] at at_i
      exact (h.pool.id_eq here).trans (Option.some.inj at_i ▸ id.symm)
    exact cleaned.congr Pool.frames_noteWritten Pool.resident_noteWritten
  case stored =>
    intro q old hold
    rw [stored]
    by_cases eq : q = p
    · obtain ⟨new, hnew, -⟩ := on_disk
      exact ⟨new, eq ▸ hnew⟩
    · exact ⟨old, (touches.stored?_eq eq).trans hold⟩
  case pages =>
    intro q new hq
    rw [page?_written resident h.pool] at hq
    split at hq
    · next eq =>
      obtain rfl := Option.some.inj hq
      exact .inr ⟨page, eq ▸ here, rfl, fun sound => sound.mark none⟩
    · exact .inr ⟨new, hq, rfl, id⟩

/-- What is stored after a page has been written fits what is in memory. -/
theorem coherent_written (h : e.Coherent) : (e.written disk t p frame page).Coherent := by
  have stored : (e.written disk t p frame page).stored? = ({ e with disk } : Engine).stored? :=
    stored?_congr rfl rfl
  have rooted : (e.written disk t p frame page).Rooted :=
    rooted_written resident here on_disk touches h.rooted
  obtain ⟨new, hnew, agrees⟩ := on_disk
  refine ⟨h.storable, h.locks, rooted.pool, rooted.resident, ?clean⟩
  case clean =>
    intro q next on_disk hq clean hs
    rw [page?_written resident h.pool] at hq
    rw [stored] at hs
    split at hq
    · next eq =>
      subst eq
      obtain rfl := Option.some.inj hq
      obtain rfl := Option.some.inj (hnew.symm.trans hs)
      exact agrees.mark none
    · next ne => exact h.clean q next on_disk hq clean (touches.stored?_eq ne ▸ hs)

end Stored

end WriteBack

/-- What becomes of the engine when a page that a transaction has changed is written. -/
theorem writes_written {frame : Nat} {disk : FileTree} (h : e.Sound)
    (resident : e.pool.frame? p = some frame) (here : e.pool.page? p = some page)
    (dirty : page.dirtiedBy = some t)
    (on_disk : ∃ stored, ({ e with disk } : Engine).stored? p = some stored ∧
      page.Agrees stored)
    (touches : e.Touches p disk) (faults : Faults) :
    e.Writes (e.written disk t p frame page) [p] none faults := by
  have stored : (e.written disk t p frame page).stored? = ({ e with disk } : Engine).stored? :=
    stored?_congr rfl rfl
  have mine : e.owner? p = some t := by rw [owner?, here, Option.bind_some, dirty]
  obtain ⟨new, hnew, agrees⟩ := on_disk
  refine ⟨⟨coherent_written resident here ⟨new, hnew, agrees⟩ touches h.toCoherent, ?noted, ?locked⟩,
    rfl, rfl, touches.lengths, ?owner, ?current, ?stored, ?dirtied, ?kept, ?resident, ?octets, ?torn⟩
  case noted =>
    intro u q
    have noted : (e.written disk t p frame page).pool.Noted u q ↔
        ¬ (u = t ∧ q = p) ∧ e.pool.Noted u q := Pool.noted_noteWritten
    rw [noted, owner?_written resident h.pool, h.noted]
    by_cases eq : q = p
    · subst eq
      simp only [mine, and_true, if_true, reduceCtorEq, iff_false, not_and]
      exact fun ne eq => ne (Option.some.inj eq).symm
    · simp [eq]
  case locked =>
    intro u q owner
    rw [owner?_written resident h.pool] at owner
    split at owner
    · cases owner
    · exact h.locked u q owner
  case owner =>
    intro q
    rw [owner?_written resident h.pool]
    simp
  -- the rows in memory are those that were written
  case current =>
    funext r
    rw [currentRow, currentRow, current?, current?, page?_written resident h.pool, stored]
    by_cases eq : r.page = p
    · rw [if_pos eq, eq, here]
      rfl
    · rw [if_neg eq, touches.stored?_eq eq]
  case stored =>
    intro r _
    rw [storedRow, storedRow, currentRow, current?, stored]
    by_cases eq : r.page = p
    · rw [eq, hnew, here, if_pos (List.mem_singleton_self p), Option.some_or, Option.bind_some,
        Option.bind_some, agrees.rows]
    · rw [touches.stored?_eq eq, if_neg (by simpa using eq)]
  case dirtied =>
    intro u free
    exact Pool.dirtied_noteWritten_of_ne fun eq => free p (List.mem_singleton_self p) (eq ▸ mine)
  case kept =>
    intro i other at_i out
    rw [written, Pool.frames_noteWritten, Pool.setFrame, Array.getElem?_setIfInBounds]
    split
    · next eq =>
      obtain ⟨found, at_frame, id⟩ := h.pool.exists_page resident
      rw [eq, at_i] at at_frame
      exact absurd (Option.some.inj at_frame ▸ id) (by simpa using out)
    · exact at_i
  case resident =>
    intro q out
    rw [page?_written resident h.pool, if_neg (by simpa using out)]
  case octets => exact fun q out _ => touches.others q (by simpa using out)
  case torn =>
    intro q none
    cases none

/-- A page that nobody has changed has been written as it is. -/
theorem Writes.of_owner?_eq_none (h : e.Sound) (owner : e.owner? p = none) (faults : Faults) :
    e.Writes e [p] none faults where
  sound := h
  catalog := rfl
  locks := rfl
  lengths _ _ _ := rfl
  owner q := by
    by_cases eq : q = p
    · simp [eq, owner]
    · simp [eq]
  current := rfl
  stored r _ := by
    by_cases eq : r.page = p
    · rw [if_pos (by simp [eq])]
      exact (h.currentRow_of_owner? (eq ▸ owner) r.slot).symm
    · rw [if_neg (by simpa using eq)]
  dirtied _ _ := rfl
  kept _ _ here _ := here
  resident _ _ := rfl
  octets _ _ _ _ _ := rfl
  torn := nofun

/-- To write a page needs the disk and the catalog, and changes the disk. -/
theorem writing_congr (disk : e'.disk = e.disk) (catalog : e'.catalog = e.catalog) (p : PageId)
    (page : Page) (faults : Faults) : e'.writing p page faults = e.writing p page faults := by
  simp only [writing, file, disk, catalog]

/-- What can come of writing a page to the disk: it has been refused, or has stopped at a fault after so
many octets, or all of it has been written. -/
inductive Wrote (e : Engine) (p : PageId) (page : Page) (faults : Faults) :
    FileTree → Except FileError Unit → Prop
  | refused (err : FileError) : Wrote e p page faults e.disk (.error err)
  | stopped {fault : WriteFault} {f : HeapFile} {content : Bytes} (given : faults.write? p = some fault)
      (found : e.catalog.file? p.table = some f)
      (h : f.writePage (e.octets f) page (some fault.octets) = .ok content) :
    Wrote e p page faults (e.disk.write f.location content) (.error (.io fault.error))
  | done {f : HeapFile} {content : Bytes} (found : e.catalog.file? p.table = some f)
      (h : f.writePage (e.octets f) page = .ok content) :
    Wrote e p page faults (e.disk.write f.location content) (.ok ())

theorem wrote_writing (e : Engine) (p : PageId) (page : Page) (faults : Faults) :
    e.Wrote p page faults (e.writing p page faults).1 (e.writing p page faults).2 := by
  rw [writing]
  cases found : e.file p.table with
  | error err => exact .refused err
  | ok f =>
    have found := file_eq_ok.mp found
    dsimp only
    cases given : faults.write? p with
    | none =>
      cases h : f.writePage (e.disk.content f.location) page with
      | error err => simpa only [Option.map_none, h] using .refused err
      | ok content => simpa only [Option.map_none, h] using .done found h
    | some fault =>
      cases h : f.writePage (e.disk.content f.location) page (some fault.octets) with
      | error err => simpa only [Option.map_some, h] using .refused err
      | ok content => simpa only [Option.map_some, h] using .stopped given found h

section Wrote

variable {disk : FileTree} (h : e.Rooted)
  (here : e.pool.page? p = some page)

include h here

/-- The file of a page in memory, which reaches to the end of the page. -/
theorem Rooted.spec_of_page? : page.id = p ∧ page.Sound ∧ ∃ f, e.catalog.file? p.table = some f ∧
    page.layout = f.layout ∧ f.Covers (e.octets f) p.number := by
  obtain ⟨sound, old, on_disk, layout⟩ := h.resident p page here
  obtain ⟨-, -, -, f, found, layout_old, covers⟩ := spec_of_stored? on_disk
  exact ⟨h.pool.id_eq here, sound, f, found, layout.trans layout_old, covers⟩

/-- To write a page in memory touches no other. -/
theorem Rooted.touches (wrote : e.Wrote p page faults disk result) : e.Touches p disk := by
  obtain ⟨rfl, sound, f, found, layout, covers⟩ := h.spec_of_page? here
  cases wrote with
  | refused => exact .refl e page.id
  | stopped _ found' written | done found' written =>
    obtain rfl := Option.some.inj (found.symm.trans found')
    exact touches_writePage h.storable found layout sound covers written

/-- A page in memory that has been written is on the disk. -/
theorem Rooted.stored?_of_wrote (wrote : e.Wrote p page faults disk (.ok ())) :
    ∃ stored, ({ e with disk } : Engine).stored? p = some stored ∧ page.Agrees stored := by
  obtain ⟨rfl, sound, f, found, layout, covers⟩ := h.spec_of_page? here
  cases wrote with
  | done found' written =>
    obtain rfl := Option.some.inj (found.symm.trans found')
    exact stored?_writePage h.storable found layout sound covers written

/-- Where a write has failed, the disk is as it was, or the page is new up to where the write has
stopped. -/
theorem Rooted.torn_of_wrote {err : FileError} (wrote : e.Wrote p page faults disk (.error err)) :
    disk = e.disk ∨
      ∃ fault, faults.write? p = some fault ∧ e.Torn { e with disk } p fault.octets := by
  obtain ⟨rfl, sound, f, found, layout, covers⟩ := h.spec_of_page? here
  cases wrote with
  | refused => exact .inl rfl
  | stopped given found' written =>
    obtain rfl := Option.some.inj (found.symm.trans found')
    obtain ⟨-, octets, encoded, left⟩ := HeapFile.octets_of_writePage
      (Catalog.id_of_file? found).symm layout sound covers written
    refine .inr ⟨_, given, f, page, octets, found, here, encoded, ?_⟩
    rwa [Engine.octets, FileTree.content_write (h.storable.of_file? found).1]

end Wrote

/-- To write back a page that nobody has changed does nothing. -/
theorem writeBack_of_owner?_eq_none (owner : e.owner? p = none) :
    e.writeBack p faults = (e, .ok ()) := by
  rw [writeBack]
  split
  · next here =>
    rw [owner?, here, Option.bind_some] at owner
    rw [owner]
  · rfl

section Dirty

variable {frame : Nat} {disk : FileTree} (resident : e.pool.frame? p = some frame)
  (here : e.pool.page? p = some page) (dirty : page.dirtiedBy = some t)

include resident here dirty

/-- To write back a page that a transaction has changed writes it to the disk. -/
theorem writeBack_of_dirty (wrote : e.writing p page faults = (disk, .ok ())) :
    e.writeBack p faults = (e.written disk t p frame page, .ok ()) := by
  simp only [writeBack, resident, here, dirty, wrote]
  rfl

/-- If the write fails, the page keeps its changes, and only the disk may be other than before. -/
theorem writeBack_of_failed {err : FileError}
    (failed : e.writing p page faults = (disk, .error err)) :
    e.writeBack p faults = ({ e with disk }, .error err) := by
  simp only [writeBack, resident, here, dirty, failed]

end Dirty

/-- What it leads to that a page is written back. -/
inductive WritesBack (e : Engine) (p : PageId) (faults : Faults) :
    Engine → Except FileError Unit → Prop
  | clean (owner : e.owner? p = none) : WritesBack e p faults e (.ok ())
  | dirty {t : TxnId} {page : Page} {frame : Nat} {disk : FileTree}
      (here : e.pool.page? p = some page) (resident : e.pool.frame? p = some frame)
      (at_frame : e.pool.frames[frame]? = some page) (dirty : page.dirtiedBy = some t)
      (wrote : e.Wrote p page faults disk (.ok ())) :
    WritesBack e p faults (e.written disk t p frame page) (.ok ())
  | failed {page : Page} {disk : FileTree} {err : FileError} (here : e.pool.page? p = some page)
      (dirty : e.owner? p ≠ none) (failed : e.Wrote p page faults disk (.error err)) :
    WritesBack e p faults { e with disk } (.error err)

theorem writesBack_of_writeBack (hw : e.writeBack p faults = (e', result)) :
    e.WritesBack p faults e' result := by
  cases owner : e.owner? p with
  | none =>
    rw [writeBack_of_owner?_eq_none owner] at hw
    obtain ⟨rfl, rfl⟩ := Prod.mk.inj hw
    exact .clean owner
  | some t =>
    obtain ⟨page, here, dirty⟩ := Option.bind_eq_some_iff.mp owner
    obtain ⟨frame, resident, at_frame⟩ := Pool.page?_eq_some.mp here
    have came := e.wrote_writing p page faults
    rcases wrote : e.writing p page faults with ⟨disk, _ | _⟩
    · rw [writeBack_of_failed resident here dirty wrote] at hw
      obtain ⟨rfl, rfl⟩ := Prod.mk.inj hw
      rw [wrote] at came
      exact .failed here (by simp [owner]) came
    · rw [writeBack_of_dirty resident here dirty wrote] at hw
      obtain ⟨rfl, rfl⟩ := Prod.mk.inj hw
      rw [wrote] at came
      exact .dirty here resident at_frame dirty came

/-- What it leads to that a page is written back, or that its write fails. -/
theorem writes_writeBack (h : e.Sound) (hw : e.writeBack p faults = (e', result)) :
    (result = .ok () ∧ e.Writes e' [p] none faults) ∨
      result ≠ .ok () ∧ ∃ torn?, e.Writes e' [] torn? faults ∧ ∀ q, torn? = some q → q = p := by
  cases writesBack_of_writeBack hw with
  | clean owner => exact .inl ⟨rfl, .of_owner?_eq_none h owner faults⟩
  | dirty here resident _ dirty wrote =>
    have rooted := h.toCoherent.rooted
    exact .inl ⟨rfl, writes_written h resident here dirty (rooted.stored?_of_wrote here wrote)
      (rooted.touches here wrote) faults⟩
  | failed here dirty wrote =>
    have rooted := h.toCoherent.rooted
    refine .inr ⟨nofun, ?_⟩
    rcases rooted.torn_of_wrote here wrote with rfl | ⟨fault, given, torn⟩
    · exact ⟨none, .nil h faults, nofun⟩
    · exact ⟨some p, .of_torn h (rooted.touches here wrote) dirty given torn,
        fun q eq => (Option.some.inj eq).symm⟩

theorem sound_writeBack (h : e.Sound) (hw : e.writeBack p faults = (e', result)) : e'.Sound := by
  rcases writes_writeBack h hw with ⟨-, writes⟩ | ⟨-, torn?, writes, -⟩
  · exact writes.sound
  · exact writes.sound

/-- Memory and disk still fit together when a page has been written back, or its write has failed. -/
theorem coherent_writeBack (h : e.Coherent) (hw : e.writeBack p faults = (e', result)) :
    e'.Coherent := by
  cases writesBack_of_writeBack hw with
  | clean => exact h
  | dirty here resident _ _ wrote =>
    exact coherent_written resident here (h.rooted.stored?_of_wrote here wrote)
      (h.rooted.touches here wrote) h
  | failed here dirty wrote => exact h.touched (h.rooted.touches here wrote) dirty

/-- What each page that is written back preserves is so after all of them. -/
theorem writeBackAll_induction {motive : Engine → Prop} (start : motive e)
    (write : ∀ {e e' : Engine} {p : PageId} {result : Except FileError Unit}, motive e →
      e.writeBack p faults = (e', result) → motive e') (ps : List PageId) :
    motive (e.writeBackAll faults ps).1 := by
  induction ps generalizing e with
  | nil => exact start
  | cons p ps ih =>
    rw [writeBackAll]
    split
    · next wrote => exact ih (write start wrote)
    · exact write start rfl

/-- What it leads to that pages are written back one after another, up to the first whose write fails. -/
theorem writes_writeBackAll (h : e.Sound) (hw : e.writeBackAll faults ps = (e', result)) :
    ∃ done torn?, done <+: ps ∧ e.Writes e' done torn? faults ∧ (∀ p, torn? = some p → p ∈ ps) ∧
      (result = .ok () → done = ps ∧ torn? = none) := by
  induction ps generalizing e with
  | nil =>
    obtain ⟨rfl, rfl⟩ := Prod.mk.inj hw
    exact ⟨[], none, List.prefix_rfl, .nil h faults, nofun, fun _ => ⟨rfl, rfl⟩⟩
  | cons p ps ih =>
    rcases wrote : e.writeBack p faults with ⟨e₁, result₁⟩
    rw [writeBackAll, wrote] at hw
    rcases writes_writeBack h wrote with ⟨rfl, first⟩ | ⟨failed, torn?, writes, here⟩
    · obtain ⟨done, torn?, sub, rest, mem, all⟩ := ih first.sound hw
      refine ⟨p :: done, torn?, List.cons_prefix_cons.mpr ⟨rfl, sub⟩, first.append rest,
        fun q eq => .tail _ (mem q eq), fun ok => ?_⟩
      obtain ⟨rfl, whole⟩ := all ok
      exact ⟨rfl, whole⟩
    · cases result₁ with
      | ok _ => exact absurd rfl failed
      | error err =>
        obtain ⟨rfl, rfl⟩ := Prod.mk.inj hw
        exact ⟨[], torn?, List.nil_prefix, writes, fun q eq => here q eq ▸ .head _, nofun⟩

/-- To wait for files changes nothing. -/
theorem flush_fst (ps : List PageId) (faults : Faults) :
    (e.flush ps faults).1 = (e.writeBackAll faults ps).1 := by
  rw [flush]
  split
  · next eq _ =>
    rw [eq]
    split <;> rfl
  · rfl

/-- What it leads to that pages are written back, and their files waited for. -/
theorem writes_flush (h : e.Sound) (hf : e.flush ps faults = (e', result)) :
    ∃ done torn?, done <+: ps ∧ e.Writes e' done torn? faults ∧ (∀ p, torn? = some p → p ∈ ps) ∧
      (result = .ok () → done = ps ∧ torn? = none) := by
  rcases hw : e.writeBackAll faults ps with ⟨e₁, result₁⟩
  obtain ⟨done, torn?, sub, writes, mem, all⟩ := writes_writeBackAll h hw
  have same : e₁ = e' ∧ (result = .ok () → result₁ = .ok ()) := by
    rw [flush, hw] at hf
    split at hf
    · next flushed err eq synced =>
      obtain ⟨rfl, rfl⟩ := Prod.mk.inj eq
      split at hf
      · exact ⟨(Prod.mk.inj hf).1, fun _ => rfl⟩
      · exact ⟨(Prod.mk.inj hf).1, fun _ => rfl⟩
    · obtain ⟨rfl, rfl⟩ := Prod.mk.inj hf
      exact ⟨rfl, id⟩
  obtain ⟨rfl, ok⟩ := same
  exact ⟨done, torn?, sub, writes, mem, fun success => all (ok success)⟩

/-- Whether the columns of its table allow every row of a page as a fetch yields it. -/
def Fits (e : Engine) (p : PageId) : Prop :=
  ∀ f, e.catalog.file? p.table = some f → ∀ slot values, e.currentRow ⟨p, slot⟩ = some values →
    f.schema.validate values = .ok ()

/-- A page in memory whose rows fit their columns can be written. -/
theorem exists_writing (h : e.Coherent) (fits : e.Fits p) (here : e.pool.page? p = some page) :
    ∃ disk, e.writing p page ∅ = (disk, .ok ()) := by
  obtain ⟨rfl, sound, f, found, layout, covers⟩ := h.rooted.spec_of_page? here
  have encodes : ∃ bytes, page.encode = .ok bytes := by
    refine sound.exists_encode_iff.mpr fun slot values row => ?_
    rw [layout]
    refine fits f found slot values ?_
    rw [currentRow, current?_of_resident here, Option.bind_some, row]
  obtain ⟨bytes, encoded⟩ := encodes
  obtain ⟨content, written⟩ : ∃ content, f.writePage (e.octets f) page = .ok content :=
    ⟨_, (HeapFile.writePage_eq_ok (Catalog.id_of_file? found).symm covers).mpr ⟨bytes, encoded, rfl⟩⟩
  refine ⟨e.disk.write f.location content, ?_⟩
  have untouched : (∅ : Faults).write? page.id = none := rfl
  rw [octets] at written
  simp only [writing, file_eq_ok.mpr found, untouched, Option.map_none, written]
  rfl

/-- Pages whose rows fit their columns are all written. -/
theorem writeBackAll_eq_ok (h : e.Sound) (fits : ∀ p ∈ ps, e.Fits p) :
    (e.writeBackAll ∅ ps).2 = .ok () := by
  induction ps generalizing e with
  | nil => rfl
  | cons p ps ih =>
    have fine : (e.writeBack p ∅).2 = .ok () := by
      cases owner : e.owner? p with
      | none => rw [writeBack_of_owner?_eq_none owner]
      | some t =>
        obtain ⟨page, here, dirty⟩ := Option.bind_eq_some_iff.mp owner
        obtain ⟨frame, resident, -⟩ := Pool.page?_eq_some.mp here
        obtain ⟨disk, wrote⟩ := exists_writing h.toCoherent (fits p (.head _)) here
        rw [writeBack_of_dirty resident here dirty wrote]
    rcases wrote : e.writeBack p ∅ with ⟨e', result⟩
    rw [wrote] at fine
    obtain rfl : result = .ok () := fine
    rcases writes_writeBack h wrote with ⟨-, writes⟩ | ⟨failed, -⟩
    · rw [writeBackAll, wrote]
      refine ih writes.sound fun q mem => ?_
      rw [Fits, writes.catalog, writes.current]
      exact fits q (.tail _ mem)
    · exact absurd rfl failed

/-! ## Reading again -/

/-- What it leads to that pages in memory are read again. -/
structure Reverts (e e' : Engine) (ps : List PageId) : Prop where
  coherent : e'.Coherent
  same : e' = { e with pool := e'.pool }
  dirtied : e'.pool.dirtied = e.pool.dirtied
  owner : ∀ p, e'.owner? p = if p ∈ ps then none else e.owner? p
  current : ∀ r, e'.currentRow r = if r.page ∈ ps then e.storedRow r else e.currentRow r
  kept : ∀ (i : Nat) (other : Page), e.pool.frames[i]? = some other → other.id ∉ ps →
    e'.pool.frames[i]? = some other

theorem Reverts.storedRow (h : e.Reverts e' ps) : e'.storedRow = e.storedRow := by
  rw [h.same]
  exact storedRow_congr rfl rfl

theorem Reverts.nil (h : e.Coherent) : e.Reverts e [] where
  coherent := h
  same := rfl
  dirtied := rfl
  owner _ := rfl
  current _ := rfl
  kept _ _ here _ := here

theorem Reverts.append (h : e.Reverts e' ps) (h' : e'.Reverts e'' qs) :
    e.Reverts e'' (ps ++ qs) where
  coherent := h'.coherent
  same := by rw [h'.same, h.same]
  dirtied := h'.dirtied.trans h.dirtied
  owner p := by
    rw [h'.owner, h.owner]
    by_cases early : p ∈ ps <;> by_cases late : p ∈ qs <;> simp [early, late]
  current r := by
    rw [h'.current, h.current, h.storedRow]
    by_cases early : r.page ∈ ps <;> by_cases late : r.page ∈ qs <;> simp [early, late]
  kept i other here out := by
    rw [List.mem_append, not_or] at out
    exact h'.kept i other (h.kept i other here out.1) out.2

/-- A page has been read again if it is not in memory, or is there as it is on the disk. -/
theorem Reverts.of_page? (h : e.Coherent) (same : e' = { e with pool := e'.pool })
    (pool : e'.pool.Sound) (dirtied : e'.pool.dirtied = e.pool.dirtied)
    (here : e'.pool.page? p = none ∨
      ∃ stored, e.stored? p = some stored ∧ e'.pool.page? p = some stored)
    (others : ∀ q ≠ p, e'.pool.page? q = e.pool.page? q)
    (kept : ∀ (i : Nat) (other : Page), e.pool.frames[i]? = some other → other.id ≠ p →
      e'.pool.frames[i]? = some other) : e.Reverts e' [p] := by
  have stored : e'.stored? = e.stored? := by
    rw [same]
    exact stored?_congr rfl rfl
  refine ⟨⟨same ▸ h.storable, same ▸ h.locks, pool, ?resident, ?clean⟩, same, dirtied, ?owner,
    ?current, ?kept⟩
  case resident =>
    intro q page hq
    rw [stored]
    by_cases eq : q = p
    · subst eq
      rcases here with gone | ⟨again, hs, there⟩
      · simp [gone] at hq
      · obtain rfl := Option.some.inj (there.symm.trans hq)
        exact ⟨(spec_of_stored? hs).2.2.1, again, hs, rfl⟩
    · exact h.resident q page (others q eq ▸ hq)
  case clean =>
    intro q page on_disk hq clean hs
    rw [stored] at hs
    by_cases eq : q = p
    · subst eq
      rcases here with gone | ⟨again, hs', there⟩
      · simp [gone] at hq
      · rw [Option.some.inj (hq.symm.trans there), Option.some.inj (hs.symm.trans hs')]
        exact .refl again
    · exact h.clean q page on_disk (others q eq ▸ hq) clean hs
  case owner =>
    intro q
    rw [owner?, owner?]
    by_cases eq : q = p
    · subst eq
      rw [if_pos (List.mem_singleton_self q)]
      rcases here with gone | ⟨again, hs, there⟩
      · rw [gone, Option.bind_none]
      · rw [there, Option.bind_some, (spec_of_stored? hs).2.1]
    · rw [others q eq, if_neg (by simpa using eq)]
  -- without the page in memory, and with the page as it is stored, a fetch yields the same
  case current =>
    intro r
    rw [Engine.currentRow, Engine.currentRow, current?, current?, stored]
    by_cases eq : r.page = p
    · subst eq
      rw [if_pos (List.mem_singleton_self r.page), Engine.storedRow]
      rcases here with gone | ⟨again, hs, there⟩
      · rw [gone, Option.none_or]
      · rw [there, hs, Option.some_or]
    · rw [others _ eq, if_neg (by simpa using eq)]
  case kept =>
    intro i other at_i out
    exact kept i other at_i (by simpa using out)

/-- What it leads to that a page is read again. -/
theorem reverts_revertPage (h : e.Coherent) (faults : Faults) (p : PageId) :
    e.Reverts (e.revertPage faults p) [p] := by
  rw [revertPage]
  split
  · next out =>
    exact .of_page? h rfl h.pool rfl (.inl (h.pool.page?_eq_none.mpr out)) (fun _ _ => rfl)
      fun _ _ here _ => here
  · next frame resident =>
    obtain ⟨found, at_frame, id⟩ := h.pool.exists_page resident
    split
    · next page granted read =>
      have on_disk : e.stored? p = some page := toOption_eq_some.mpr read
      have moved : ∀ q, (e.pool.setFrame frame page).page? q =
          if q = p then some page else e.pool.page? q := Pool.page?_setFrame h.pool resident
      have pool : (e.pool.setFrame frame page).Sound := by
        refine h.pool.setFrame fun old at_i => ?_
        rw [at_frame] at at_i
        exact (spec_of_stored? on_disk).1.trans (Option.some.inj at_i ▸ id.symm)
      refine .of_page? h rfl pool rfl (.inr ⟨page, on_disk, ?here⟩) ?others ?kept
      case here => rw [moved, if_pos rfl]
      case others =>
        intro q ne
        rw [moved, if_neg ne]
      case kept =>
        intro i other at_i ne
        rw [Pool.setFrame, Array.getElem?_setIfInBounds]
        split
        · next eq =>
          rw [eq, at_i] at at_frame
          exact absurd (Option.some.inj at_frame ▸ id) ne
        · exact at_i
    · -- a page that cannot be read again leaves memory
      refine .of_page? h rfl (h.pool.drop p) rfl (.inl ?here) ?others fun _ _ kept _ => kept
      case here => rw [Pool.page?_drop, if_pos rfl]
      case others =>
        intro q ne
        rw [Pool.page?_drop, if_neg ne]

/-- What it leads to that pages are read again one after another. -/
theorem reverts_foldl (h : e.Coherent) (faults : Faults) (ps : List PageId) :
    e.Reverts (ps.foldl (revertPage faults) e) ps := by
  induction ps generalizing e with
  | nil => exact .nil h
  | cons p ps ih =>
    have first := reverts_revertPage h faults p
    exact first.append (ih first.coherent)

/-! ## Ending -/

/-- What the end of a transaction leads to, after some of its pages have been written, and perhaps part
of one more. -/
structure Completes (e e' : Engine) (t : TxnId) (written : List PageId) (torn? : Option PageId)
    (faults : Faults) : Prop where
  sound : e'.Sound
  catalog : e'.catalog = e.catalog
  lengths : ∀ table f, e.catalog.file? table = some f →
    (e'.octets f).length = (e.octets f).length
  locks : ∀ u p mode, e'.locks.holds u p mode = if u = t then false else e.locks.holds u p mode
  unlisted : ∀ u, e'.locks.pagesOf u = if u = t then [] else e.locks.pagesOf u
  forgotten : e'.pool.dirtied.get? t = none
  dirtied : ∀ u ≠ t, e'.pool.dirtied.get? u = e.pool.dirtied.get? u
  owner : ∀ p, e'.owner? p = if e.owner? p = some t then none else e.owner? p
  own : ∀ p ∈ written, e.owner? p = some t
  stored : ∀ r, torn? ≠ some r.page →
    e'.storedRow r = if r.page ∈ written then e.currentRow r else e.storedRow r
  torn : ∀ p, torn? = some p → e.owner? p = some t ∧
    ∃ fault, faults.write? p = some fault ∧ e.Torn e' p fault.octets
  current : ∀ r, e'.currentRow r =
    if e.owner? r.page = some t then e'.storedRow r else e.currentRow r
  kept : ∀ (i : Nat) (other : Page), e.pool.frames[i]? = some other → e.owner? other.id ≠ some t →
    e'.pool.frames[i]? = some other

namespace Completes

variable {written : List PageId} (h : e.Completes e' t written torn? faults)

include h

/-- Whoever has unwritten changes of a page after the end of a transaction had them before, and is not
this transaction. -/
theorem owner?_eq_some : e'.owner? p = some u ↔ u ≠ t ∧ e.owner? p = some u := by
  rw [h.owner]
  split
  · next mine =>
    rw [mine]
    constructor
    · exact nofun
    · rintro ⟨ne, eq⟩
      exact absurd (Option.some.inj eq).symm ne
  · next other => exact ⟨fun eq => ⟨fun same => other (same ▸ eq), eq⟩, And.right⟩

/-- The pages that others have changed stay as they are on the disk. -/
theorem storedRow_of_owner?_ne (other : e.owner? p ≠ some t) (slot : Nat) :
    e'.storedRow ⟨p, slot⟩ = e.storedRow ⟨p, slot⟩ := by
  rw [h.stored _ fun eq => other (h.torn p eq).1, if_neg fun mem => other (h.own p mem)]

end Completes

section Finish

variable {written again : List PageId} {e₁ e₂ : Engine} (h : e.Sound)
  (writes : e.Writes e₁ written torn? faults) (reverts : e₁.Reverts e₂ again)
  (own : ∀ p ∈ written, e.owner? p = some t) (own' : ∀ p ∈ again, e₁.owner? p = some t)
  (all : ∀ p, e.owner? p = some t → p ∈ written ∨ p ∈ again)

include writes reverts own own' all

/-- A transaction that is over has no unwritten changes, and the others have those that they had. -/
theorem owner?_finish (p : PageId) : (e₂.finish t).owner? p =
    if e.owner? p = some t then none else e.owner? p := by
  have same : (e₂.finish t).owner? p = e₂.owner? p := rfl
  rw [same, reverts.owner, writes.owner]
  by_cases mine : e.owner? p = some t
  · rw [if_pos mine]
    rcases all p mine with mem | mem
    · simp [mem]
    · simp [mem]
  · have unwritten : p ∉ written := fun mem => mine (own p mem)
    have unread : p ∉ again := by
      intro mem
      have owner := own' p mem
      rw [writes.owner, if_neg unwritten] at owner
      exact mine owner
    rw [if_neg unread, if_neg unwritten, if_neg mine]

include h

theorem sound_finish : (e₂.finish t).Sound where
  toCoherent :=
    have coherent := reverts.coherent
    ⟨coherent.storable, coherent.locks.releaseAll t, coherent.pool.congr rfl rfl,
      coherent.resident, coherent.clean⟩
  noted u q := by
    have noted : (e₂.finish t).pool.Noted u q ↔ u ≠ t ∧ e₁.pool.Noted u q := by
      rw [Pool.Noted, finish, FinMap.getD_erase, reverts.dirtied]
      by_cases eq : u = t
      · simp [eq]
      · simp [eq, Pool.Noted]
    rw [noted, owner?_finish writes reverts own own' all, writes.sound.noted, writes.owner]
    by_cases mine : e.owner? q = some t
    · rw [if_pos mine]
      simp only [reduceCtorEq, iff_false, not_and]
      intro ne
      split
      · simp
      · exact fun eq => ne (Option.some.inj (eq.symm.trans mine))
    · have unwritten : q ∉ written := fun mem => mine (own q mem)
      rw [if_neg mine, if_neg unwritten]
      exact and_iff_right_of_imp fun owner eq => mine (eq ▸ owner)
  locked u q owner := by
    rw [owner?_finish writes reverts own own' all] at owner
    split at owner
    · cases owner
    · next other =>
      have ne : u ≠ t := fun eq => other (eq ▸ owner)
      have locks : e₂.locks = e.locks := by rw [reverts.same, writes.locks]
      rw [finish, reverts.coherent.locks.holds_releaseAll, if_neg ne, locks]
      exact h.locked u q owner

/-- After its pages have been written or read again, a transaction is over. -/
theorem completes_finish (tears : ∀ p, torn? = some p → e.owner? p = some t) :
    e.Completes (e₂.finish t) t written torn? faults where
  sound := sound_finish h writes reverts own own' all
  catalog := by rw [finish, reverts.same, writes.catalog]
  lengths table f found := by
    have same : (e₂.finish t).octets f = e₁.octets f := by rw [finish, reverts.same]; rfl
    rw [same, writes.lengths table f found]
  locks u p mode := by
    have locks : e₂.locks = e.locks := by rw [reverts.same, writes.locks]
    rw [finish, reverts.coherent.locks.holds_releaseAll, locks]
  unlisted u := by
    have locks : e₂.locks = e.locks := by rw [reverts.same, writes.locks]
    rw [finish, LockTable.pagesOf_releaseAll, locks]
  forgotten := FinMap.get?_erase_self ..
  dirtied u ne := by
    have free : ∀ p ∈ written, e.owner? p ≠ some u :=
      fun p mem eq => ne (Option.some.inj (eq.symm.trans (own p mem)))
    rw [finish, FinMap.get?_erase_of_ne _ ne, reverts.dirtied, writes.dirtied u free]
  owner := owner?_finish writes reverts own own' all
  own := own
  stored r whole := by
    have same : (e₂.finish t).storedRow = e₂.storedRow := storedRow_congr rfl rfl
    rw [same, reverts.storedRow, writes.stored r whole]
  torn p eq := by
    obtain ⟨-, -, fault, given, f, page, octets, found, here, encoded, left⟩ := writes.torn p eq
    have same : (e₂.finish t).octets f = e₁.octets f := by rw [finish, reverts.same]; rfl
    exact ⟨tears p eq, fault, given, f, page, octets, found, here, encoded, same ▸ left⟩
  current r := by
    have same : (e₂.finish t).currentRow r = e₂.currentRow r := rfl
    have stored : (e₂.finish t).storedRow = e₂.storedRow := storedRow_congr rfl rfl
    rw [same, stored, reverts.storedRow, reverts.current]
    split
    · next mem =>
      -- what is read again was not written
      have mine := own' _ mem
      rw [writes.owner] at mine
      split at mine
      · cases mine
      · rw [if_pos mine]
    · next unread =>
      split
      · next mine =>
        -- what has been written is the same in memory and on the disk
        have mem := (all _ mine).resolve_right unread
        have whole : torn? ≠ some r.page := fun eq => (writes.torn _ eq).1 mem
        rw [writes.current, writes.stored r whole, if_pos mem]
      · rw [writes.current]
  kept i other here free := by
    have unwritten : other.id ∉ written := fun mem => free (own _ mem)
    have unread : other.id ∉ again := by
      intro mem
      have mine := own' _ mem
      rw [writes.owner, if_neg unwritten] at mine
      exact free mine
    exact reverts.kept i other (writes.kept i other here unwritten) unread

end Finish

theorem Sound.mem_dirtiedBy (h : e.Sound) : p ∈ e.pool.dirtiedBy t ↔ e.owner? p = some t :=
  Pool.mem_dirtiedBy.trans (h.noted t p)

/-- **The end of a transaction.** A commit that succeeds writes all pages that the transaction has
changed, an abort writes none of them, and a commit that fails writes some, and perhaps part of one more,
whatever the file system refuses. -/
theorem completes_complete {commit : Bool} (h : e.Sound)
    (hc : e.complete t commit faults = (e', result)) :
    ∃ written torn?, e.Completes e' t written torn? faults ∧
      (commit = false → written = [] ∧ result = .ok ()) ∧
      (commit = true → result = .ok () → ∀ p, e.owner? p = some t → p ∈ written) ∧
      (result = .ok () → torn? = none) := by
  cases commit with
  | false =>
    -- nothing is written, and all pages that were changed are read again
    obtain ⟨rfl, rfl⟩ := Prod.mk.inj hc
    refine ⟨[], none, completes_finish h (.nil h faults) (reverts_foldl h.toCoherent faults _) nofun
      ?_ ?_ nofun, fun _ => ⟨rfl, rfl⟩, nofun, fun _ => rfl⟩
    · intro p mem
      exact h.mem_dirtiedBy.mp mem
    · intro p mine
      exact .inr (h.mem_dirtiedBy.mpr mine)
  | true =>
    rcases flushed : e.flushPagesOf t faults with ⟨e₁, result₁⟩
    obtain ⟨written, torn?, sub, writes, mem, done⟩ := writes_flush h flushed
    have own : ∀ p ∈ written, e.owner? p = some t :=
      fun p mem => h.mem_dirtiedBy.mp (sub.subset mem)
    have tears : ∀ p, torn? = some p → e.owner? p = some t :=
      fun p eq => h.mem_dirtiedBy.mp (mem p eq)
    simp only [complete, if_true, flushed] at hc
    cases result₁ with
    | ok _ =>
      -- everything is written, and nothing is left to be read again
      obtain ⟨rfl, rfl⟩ := Prod.mk.inj hc
      have all : ∀ p, e.owner? p = some t → p ∈ written :=
        fun p mine => (done rfl).1 ▸ h.mem_dirtiedBy.mpr mine
      have completes := completes_finish h writes (.nil writes.sound.toCoherent) own nofun
        (fun p mine => .inl (all p mine)) tears
      exact ⟨written, torn?, completes, nofun, fun _ _ => all, fun _ => (done rfl).2⟩
    | error err =>
      -- the pages that are still noted for the transaction have not been written
      obtain ⟨rfl, rfl⟩ := Prod.mk.inj hc
      refine ⟨written, torn?, completes_finish h writes
        (reverts_foldl writes.sound.toCoherent faults _) own
        (fun p mem => writes.sound.mem_dirtiedBy.mp mem) ?_ tears, nofun, nofun, nofun⟩
      intro p mine
      by_cases mem : p ∈ written
      · exact .inl mem
      · refine .inr (writes.sound.mem_dirtiedBy.mpr ?_)
        rw [writes.owner, if_neg mem, mine]

/-- At the end of a transaction pages are written perhaps, then read again perhaps, and then the
transaction is forgotten. -/
theorem exists_complete (e : Engine) (t : TxnId) (commit : Bool) (faults : Faults) : ∃ e₁ e₂,
    (e₁ = e ∨ e₁ = (e.writeBackAll faults (e.pool.dirtiedBy t)).1) ∧
      (e₂ = e₁ ∨ e₂ = e₁.revert t faults) ∧ (e.complete t commit faults).1 = e₂.finish t := by
  have wrote := flush_fst (e := e) (e.pool.dirtiedBy t) faults
  rcases flushed : e.flush (e.pool.dirtiedBy t) faults with ⟨e₁, result⟩
  rw [flushed] at wrote
  cases commit with
  | false => exact ⟨e, _, .inl rfl, .inr rfl, rfl⟩
  | true =>
    rw [complete, if_pos rfl, flushPagesOf, flushed]
    cases result with
    | ok _ => exact ⟨e₁, e₁, .inr wrote, .inl rfl, rfl⟩
    | error err => exact ⟨e₁, _, .inr wrote, .inr rfl, rfl⟩

/-- What is preserved by each page that is written back or read again is so when nothing is left to be done
but to forget the transaction. -/
theorem complete_induction {motive : Engine → Prop} (start : motive e)
    (write : ∀ {e e' : Engine} {p : PageId} {result : Except FileError Unit}, motive e →
      e.writeBack p faults = (e', result) → motive e')
    (revert : ∀ {e : Engine} (p : PageId), motive e → motive (e.revertPage faults p)) (t : TxnId)
    (commit : Bool) : ∃ e', motive e' ∧ (e.complete t commit faults).1 = e'.finish t := by
  obtain ⟨e₁, e₂, written, reverted, done⟩ := exists_complete e t commit faults
  have first : motive e₁ := by
    rcases written with rfl | rfl
    · exact start
    · exact writeBackAll_induction start write _
  refine ⟨e₂, ?_, done⟩
  rcases reverted with rfl | rfl
  · exact first
  · exact List.foldlRecOn (motive := motive) _ _ first fun _ holds p _ => revert p holds

/-- A commit goes through if all rows of the pages that it writes fit their columns, and the file system
refuses nothing. -/
theorem complete_eq_ok (h : e.Sound) (fits : ∀ p, e.owner? p = some t → e.Fits p) :
    (e.complete t true).2 = .ok () := by
  have written : (e.writeBackAll ∅ (e.pool.dirtiedBy t)).2 = .ok () :=
    writeBackAll_eq_ok h fun p mem => fits p (h.mem_dirtiedBy.mp mem)
  have flushed : (e.flushPagesOf t ∅).2 = .ok () := by
    rw [flushPagesOf, flush]
    split
    · next synced => cases synced
    · exact written
  rw [complete, if_pos rfl]
  split
  · rfl
  · next failed =>
    rw [failed] at flushed
    cases flushed

end RowStore.Engine
