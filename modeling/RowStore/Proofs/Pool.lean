import Mathlib.Data.List.Nodup
import RowStore.Pool

/-! # What operations on the pool do
Every resident page stands in a frame of its own, under its own id (`Pool.Sound`). So to replace the page
in a frame changes one resident page (`page?_setFrame`), and a page that is loaded drives out a clean one
at most (`loads_of_load`). The notes of who has changed which page are kept apart from the pages
(`noted_noteDirtied`, `noted_noteWritten`). -/

namespace RowStore.Pool

variable {p p' : Pool} {id other : PageId} {i : Nat} {page : Page} {t u : TxnId}

/-! ## Residence -/

/-- Resident pages are resident once, and stand in their frames under their own ids. -/
structure Sound (p : Pool) : Prop where
  distinct : (p.resident.map Prod.fst).Nodup
  framed : ∀ id i, (id, i) ∈ p.resident → ∃ page, p.frames[i]? = some page ∧ page.id = id

theorem mem_resident_of_frame? (h : p.frame? id = some i) : (id, i) ∈ p.resident := by
  rw [frame?, Option.map_eq_some_iff] at h
  obtain ⟨⟨a, _⟩, found, rfl⟩ := h
  have eq : a = id := by simpa using List.find?_some found
  exact eq ▸ List.mem_of_find?_eq_some found

@[simp] theorem frame?_drop : (p.drop id).frame? other = if other = id then none else p.frame? other := by
  simp only [frame?, drop, List.find?_filter]
  split
  · next eq => simp [eq]
  · next ne =>
    congr 2
    funext a
    by_cases here : a.1 = other
    · simp [here, ne]
    · simp [here]

@[simp] theorem frame?_promote :
    (p.promote id i).frame? other = if other = id then some i else p.frame? other := by
  have rest : ((p.drop id).resident.find? (·.1 = other)).map Prod.snd = (p.drop id).frame? other :=
    rfl
  rw [frame?, promote, List.find?_cons]
  by_cases here : other = id
  · simp [here]
  · rw [if_neg here]
    simp only [Ne.symm here, decide_false, rest, frame?_drop, if_neg here]

theorem page?_eq_some : p.page? id = some page ↔
    ∃ i, p.frame? id = some i ∧ p.frames[i]? = some page := by
  simp [page?, Option.bind_eq_some_iff]

namespace Sound

theorem frame?_of_mem (h : p.Sound) (mem : (id, i) ∈ p.resident) : p.frame? id = some i := by
  obtain ⟨a, found⟩ : ∃ a, p.resident.find? (·.1 = id) = some a :=
    Option.isSome_iff_exists.mp (List.find?_isSome.mpr ⟨_, mem, by simp⟩)
  -- what the search finds has the id, and nothing else in the list has it
  have eq : a.1 = id := by simpa using List.find?_some found
  have same : a = (id, i) :=
    List.inj_on_of_nodup_map h.distinct (List.mem_of_find?_eq_some found) mem eq
  rw [frame?, found, same]
  rfl

/-- A resident page is in its frame. -/
theorem exists_page (h : p.Sound) (here : p.frame? id = some i) :
    ∃ page, p.frames[i]? = some page ∧ page.id = id :=
  h.framed _ _ (mem_resident_of_frame? here)

theorem id_eq (h : p.Sound) (here : p.page? id = some page) : page.id = id := by
  obtain ⟨i, frame, here⟩ := page?_eq_some.mp here
  obtain ⟨found, at_i, eq⟩ := h.exists_page frame
  rw [here] at at_i
  exact Option.some.inj at_i ▸ eq

/-- No two pages share a frame. -/
theorem id_unique (h : p.Sound) (here : p.frame? id = some i) (there : p.frame? other = some i) :
    other = id := by
  obtain ⟨page, at_i, rfl⟩ := h.exists_page here
  obtain ⟨page', at_i', rfl⟩ := h.exists_page there
  rw [at_i] at at_i'
  rw [Option.some.inj at_i']

theorem page?_eq_none (h : p.Sound) : p.page? id = none ↔ p.frame? id = none := by
  cases frame : p.frame? id with
  | none => simp [page?, frame]
  | some i =>
    obtain ⟨page, at_i, -⟩ := h.exists_page frame
    simp [page?_eq_some.mpr ⟨i, frame, at_i⟩]

theorem drop (h : p.Sound) (id : PageId) : (p.drop id).Sound where
  distinct := h.distinct.sublist (List.filter_sublist.map Prod.fst)
  framed a j mem := h.framed a j (List.mem_filter.mp mem).1

theorem promote (h : p.Sound) (here : p.frames[i]? = some page) (same : page.id = id) :
    (p.promote id i).Sound where
  distinct := by
    rw [Pool.promote, List.map_cons, List.nodup_cons]
    refine ⟨?_, (h.drop id).distinct⟩
    simp [Pool.drop]
  framed a j mem := by
    rcases List.mem_cons.mp mem with eq | mem
    · obtain ⟨rfl, rfl⟩ := Prod.mk.inj eq
      exact ⟨page, here, same⟩
    · exact (h.drop id).framed a j mem

theorem setFrame (h : p.Sound) (same : ∀ old, p.frames[i]? = some old → page.id = old.id) :
    (p.setFrame i page).Sound where
  distinct := h.distinct
  framed a j mem := by
    obtain ⟨old, at_j, id⟩ := h.framed a j mem
    rw [Pool.setFrame, Array.getElem?_setIfInBounds]
    by_cases eq : i = j
    · subst eq
      obtain ⟨inside, -⟩ := Array.getElem?_eq_some_iff.mp at_j
      exact ⟨page, by simp [inside], (same old at_j).trans id⟩
    · exact ⟨old, by rw [if_neg eq, at_j], id⟩

end Sound

/-- To replace the page in a frame replaces one resident page. -/
theorem page?_setFrame (h : p.Sound) (here : p.frame? id = some i) (other : PageId) :
    (p.setFrame i page).page? other = if other = id then some page else p.page? other := by
  have frame : (p.setFrame i page).frame? other = p.frame? other := rfl
  rw [page?, page?, frame]
  by_cases eq : other = id
  · obtain ⟨old, at_i, -⟩ := h.exists_page here
    obtain ⟨inside, -⟩ := Array.getElem?_eq_some_iff.mp at_i
    simp [eq, here, setFrame, inside]
  · -- another resident page stands in another frame
    rw [if_neg eq]
    cases there : p.frame? other with
    | none => rfl
    | some j =>
      have apart : i ≠ j := fun same => eq (h.id_unique here (same ▸ there))
      simp [setFrame, Array.getElem?_setIfInBounds, apart]

/-! ## Loading -/

/-- Only clean pages leave the pool to make room. -/
theorem clean_of_victim? (h : p.Sound) (victim : p.victim? = some id) :
    ∃ page, p.page? id = some page ∧ page.dirtiedBy = none := by
  rw [victim?, Option.map_eq_some_iff] at victim
  obtain ⟨⟨a, i⟩, found, rfl⟩ := victim
  have mem : (a, i) ∈ p.resident := List.mem_reverse.mp (List.mem_of_find?_eq_some found)
  obtain ⟨page, at_i, -⟩ := h.framed a i mem
  refine ⟨page, page?_eq_some.mpr ⟨i, h.frame?_of_mem mem, at_i⟩, ?_⟩
  have clean := List.find?_some found
  rw [Bool.and_eq_true] at clean
  simpa [isDirty, at_i] using clean.1

/-- To make room drops a clean page at most. -/
theorem makeRoom_cases (h : p.makeRoom = .ok p') :
    p' = p ∨ ∃ id, p.victim? = some id ∧ p' = p.drop id := by
  rw [makeRoom] at h
  split at h
  · exact .inl (Except.ok.inj h).symm
  · split at h
    · next id victim => exact .inr ⟨id, victim, (Except.ok.inj h).symm⟩
    · exact nomatch h

/-- Where room cannot be made, the pool is full. -/
theorem makeRoom_eq_error {err : FileError} (h : p.makeRoom = .error err) : err = .poolFull := by
  rw [makeRoom] at h
  split at h
  · cases h
  · split at h
    · cases h
    · exact (Except.error.inj h).symm

/-- What a pool is like after room has been made in it: a clean page may have left. -/
structure Sheds (p p' : Pool) : Prop where
  sound : p'.Sound
  frames : p'.frames = p.frames
  dirtied : p'.dirtied = p.dirtied
  others : ∀ id, p'.frame? id = p.frame? id ∨
    p'.frame? id = none ∧ ∃ old, p.page? id = some old ∧ old.dirtiedBy = none

theorem Sheds.refl (h : p.Sound) : p.Sheds p :=
  ⟨h, rfl, rfl, fun _ => .inl rfl⟩

theorem sheds_makeRoom (h : p.Sound) (room : p.makeRoom = .ok p') : p.Sheds p' := by
  rcases makeRoom_cases room with rfl | ⟨victim, found, rfl⟩
  · exact .refl h
  · refine ⟨h.drop victim, rfl, rfl, fun id => ?_⟩
    rw [frame?_drop]
    split
    · next eq => exact .inr ⟨rfl, eq ▸ clean_of_victim? h found⟩
    · exact .inl rfl

/-- The pages that are left are as they were. -/
theorem Sheds.page?_eq (h : p.Sheds p') (same : p'.frame? id = p.frame? id) :
    p'.page? id = p.page? id := by
  rw [page?, page?, same, h.frames]

/-- A page in a new frame. -/
def append (p : Pool) (page : Page) : Pool :=
  { p with frames := p.frames.push page }

theorem getElem?_append {old : Page} (h : p.frames[i]? = some old) :
    (p.append page).frames[i]? = some old := by
  obtain ⟨inside, -⟩ := Array.getElem?_eq_some_iff.mp h
  rw [append, Array.getElem?_push, if_neg (Nat.ne_of_lt inside), h]

theorem Sound.append (h : p.Sound) (page : Page) : (p.append page).Sound where
  distinct := h.distinct
  framed a j mem := by
    obtain ⟨old, at_j, id⟩ := h.framed a j mem
    exact ⟨old, getElem?_append at_j, id⟩

theorem page?_append (h : p.Sound) (page : Page) : (p.append page).page? id = p.page? id := by
  have frame : (p.append page).frame? id = p.frame? id := rfl
  rw [page?, page?, frame]
  cases here : p.frame? id with
  | none => rfl
  | some j =>
    obtain ⟨old, at_j, -⟩ := h.exists_page here
    exact (getElem?_append at_j).trans at_j.symm

/-- To make a page resident, or resident again, changes no other. -/
theorem page?_promote_of_ne (ne : other ≠ id) : (p.promote id i).page? other = p.page? other := by
  rw [page?, page?, frame?_promote, if_neg ne]
  rfl

theorem page?_drop : (p.drop id).page? other = if other = id then none else p.page? other := by
  rw [page?, page?, frame?_drop]
  split
  · rfl
  · rfl

/-- To load a page makes room for it and puts it into a new frame. -/
theorem load_cases {frame : Nat} (loaded : p.load page = .ok (p', frame)) :
    ∃ q, p.makeRoom = .ok q ∧ frame = q.frames.size ∧
      p' = (q.append page).promote page.id q.frames.size := by
  rw [load] at loaded
  cases room : p.makeRoom with
  | error e => simp [room, bind, Except.bind] at loaded
  | ok q =>
    simp only [room, bind, Except.bind, pure, Except.pure, Except.ok.injEq, Prod.mk.injEq] at loaded
    obtain ⟨rfl, rfl⟩ := loaded
    exact ⟨q, rfl, rfl, rfl⟩

/-- What a pool is like after a page has been loaded: the page is resident, in a new frame, and of the
other pages a clean one may have left. -/
structure Loads (p p' : Pool) (page : Page) (frame : Nat) : Prop where
  sound : p'.Sound
  resident : p'.frame? page.id = some frame
  here : p'.frames[frame]? = some page
  kept : ∀ (i : Nat) (old : Page), p.frames[i]? = some old → p'.frames[i]? = some old
  dirtied : p'.dirtied = p.dirtied
  others : ∀ id : PageId, id ≠ page.id → p'.page? id = p.page? id ∨
    p'.page? id = none ∧ ∃ old, p.page? id = some old ∧ old.dirtiedBy = none

theorem loads_of_load {frame : Nat} (h : p.Sound) (loaded : p.load page = .ok (p', frame)) :
    p.Loads p' page frame := by
  obtain ⟨q, room, rfl, rfl⟩ := load_cases loaded
  obtain ⟨sound, frames, dirtied, others⟩ := sheds_makeRoom h room
  have here : (q.append page).frames[q.frames.size]? = some page := by simp [append]
  have resident : ((q.append page).promote page.id q.frames.size).frame? page.id
      = some q.frames.size := by
    rw [frame?_promote, if_pos rfl]
  refine ⟨(sound.append page).promote here rfl, resident, here, ?_, dirtied, ?_⟩
  · intro i old at_i
    exact getElem?_append (frames ▸ at_i)
  · intro id ne
    have same : ((q.append page).promote page.id q.frames.size).page? id = q.page? id := by
      rw [page?_promote_of_ne ne, page?_append sound]
    rw [same]
    rcases others id with kept | ⟨gone, clean⟩
    · exact .inl ((sheds_makeRoom h room).page?_eq kept)
    · exact .inr ⟨sound.page?_eq_none.mpr gone, clean⟩

/-! ## Room -/

/-- Whether one more page can be brought into memory: there is room, or a page can leave. -/
def Roomy (p : Pool) : Prop :=
  p.resident.length < p.capacity ∨
    ∃ id i, (id, i) ∈ p.resident ∧ p.isDirty i = false ∧ i ∉ p.latched

theorem exists_makeRoom_iff : (∃ p', p.makeRoom = .ok p') ↔ p.Roomy := by
  have victim : p.victim? = none ↔
      ¬ ∃ id i, (id, i) ∈ p.resident ∧ p.isDirty i = false ∧ i ∉ p.latched := by
    simp only [victim?, Option.map_eq_none_iff, List.find?_eq_none, List.mem_reverse]
    grind
  rw [makeRoom, Roomy]
  split
  · next room => simp [room]
  · next full =>
    cases leaves : p.victim? with
    | none => simp [full, victim.mp leaves]
    | some id =>
      have some_leaves := mt victim.mpr (by simp [leaves])
      simp only [Except.ok.injEq, exists_eq', full, false_or, true_iff]
      exact Classical.not_not.mp some_leaves

/-- A page can be loaded if there is room for it. -/
theorem exists_load_iff : (∃ loaded, p.load page = .ok loaded) ↔ p.Roomy := by
  rw [← exists_makeRoom_iff, load]
  cases p.makeRoom with
  | error e => simp [bind, Except.bind]
  | ok q => simp [bind, Except.bind, pure, Except.pure]

/-- A resident page that is dropped makes room. -/
theorem length_drop_lt (here : p.frame? id = some i) :
    (p.drop id).resident.length < p.resident.length := by
  rw [drop, List.length_filter_lt_length_iff_exists]
  exact ⟨_, mem_resident_of_frame? here, by simp⟩

/-- To move a resident page to the front makes no room and takes none. -/
theorem Roomy.promote (h : p.Roomy) (sound : p.Sound) (here : p.frame? id = some i) :
    (p.promote id i).Roomy := by
  rcases h with room | ⟨other, j, mem, clean, free⟩
  · exact .inl (Nat.lt_of_le_of_lt (length_drop_lt here) room)
  · right
    refine ⟨other, j, ?_, clean, free⟩
    by_cases eq : other = id
    · subst eq
      obtain rfl := Option.some.inj (here.symm.trans (sound.frame?_of_mem mem))
      exact .head _
    · exact .tail _ (List.mem_filter.mpr ⟨mem, by simpa using eq⟩)

/-- A clean page that has just been loaded can leave again, if only frames that there are are being
written to. -/
theorem roomy_of_load {frame : Nat} (clean : page.dirtiedBy = none)
    (latched : ∀ j ∈ p.latched, j < p.frames.size) (loaded : p.load page = .ok (p', frame)) :
    p'.Roomy ∧ p'.latched = p.latched ∧ p'.frames.size = p.frames.size + 1 := by
  obtain ⟨q, room, rfl, rfl⟩ := load_cases loaded
  have same : q.latched = p.latched ∧ q.frames = p.frames := by
    rcases makeRoom_cases room with rfl | ⟨victim, -, rfl⟩
    · exact ⟨rfl, rfl⟩
    · exact ⟨rfl, rfl⟩
  refine ⟨.inr ⟨page.id, q.frames.size, .head _, ?_, ?_⟩, same.1, ?_⟩
  · simp [isDirty, Pool.promote, append, clean]
  · intro mem
    have inside := latched _ (same.1 ▸ mem)
    rw [same.2] at inside
    exact Nat.lt_irrefl _ inside
  · simp [Pool.promote, append, same.2]

/-- Where nobody is writing to a page, one more page can be brought into memory if the pages with
unwritten changes leave room for it. -/
theorem roomy_iff (unlatched : p.latched = []) (within : p.resident.length ≤ p.capacity) :
    p.Roomy ↔ p.dirtyCount < p.capacity := by
  have few : p.dirtyCount ≤ p.resident.length := List.countP_le_length
  constructor
  · rintro (room | ⟨id, i, mem, clean, -⟩)
    · exact Nat.lt_of_le_of_lt few room
    · refine Nat.lt_of_lt_of_le (Nat.lt_of_le_of_ne few fun all => ?_) within
      have dirty := List.countP_eq_length.mp all (id, i) mem
      simp [clean] at dirty
  · intro room
    refine or_iff_not_imp_left.mpr fun full => ?_
    -- there are more pages than dirty ones
    have some_clean : ¬ ∀ a ∈ p.resident, p.isDirty a.2 = true := by
      intro all
      have count : p.dirtyCount = p.resident.length := List.countP_eq_length.mpr all
      omega
    simp only [not_forall, Bool.not_eq_true] at some_clean
    obtain ⟨⟨id, i⟩, mem, clean⟩ := some_clean
    exact ⟨id, i, mem, clean, by simp [unlatched]⟩

/-- The pages with unwritten changes are as many as their ids. -/
theorem Sound.dirtyCount_eq (h : p.Sound) (ids : List PageId) (distinct : ids.Nodup)
    (dirty : ∀ id, id ∈ ids ↔ ((p.page? id).bind Page.dirtiedBy).isSome = true) :
    p.dirtyCount = ids.length := by
  have marked : ∀ id i, (id, i) ∈ p.resident →
      p.isDirty i = ((p.page? id).bind Page.dirtiedBy).isSome := by
    intro id i mem
    obtain ⟨page, at_i, -⟩ := h.framed id i mem
    rw [page?_eq_some.mpr ⟨i, h.frame?_of_mem mem, at_i⟩, isDirty, at_i]
    rfl
  have listed : ((p.resident.filter fun a => p.isDirty a.2).map Prod.fst).Perm ids := by
    refine (List.perm_ext_iff_of_nodup (h.distinct.sublist (List.filter_sublist.map _)) distinct).mpr ?_
    intro id
    rw [dirty, List.mem_map]
    constructor
    · rintro ⟨⟨id, i⟩, mem, rfl⟩
      rw [List.mem_filter] at mem
      exact marked id i mem.1 ▸ mem.2
    · intro owned
      cases here : p.page? id with
      | none => simp [here] at owned
      | some page =>
        obtain ⟨i, frame, -⟩ := page?_eq_some.mp here
        have mem := mem_resident_of_frame? frame
        exact ⟨(id, i), List.mem_filter.mpr ⟨mem, (marked id i mem).trans owned⟩, rfl⟩
  rw [dirtyCount, List.countP_eq_length_filter, ← listed.length_eq, List.length_map]

/-- What operations keep of a pool: its capacity, and what is being written to; and no more pages are
resident than fit. -/
structure Keeps (p p' : Pool) : Prop where
  capacity : p'.capacity = p.capacity
  latched : p'.latched = p.latched
  within : p.resident.length ≤ p.capacity → p'.resident.length ≤ p'.capacity

namespace Keeps

theorem of_resident (capacity : p'.capacity = p.capacity) (latched : p'.latched = p.latched)
    (resident : p'.resident = p.resident) : p.Keeps p' :=
  ⟨capacity, latched, fun within => resident ▸ capacity ▸ within⟩

theorem refl (p : Pool) : p.Keeps p := .of_resident rfl rfl rfl

theorem trans {p'' : Pool} (h : p.Keeps p') (h' : p'.Keeps p'') : p.Keeps p'' :=
  ⟨h'.capacity.trans h.capacity, h'.latched.trans h.latched, fun within => h'.within (h.within within)⟩

theorem noteDirtied (t : TxnId) (id : PageId) : p.Keeps (p.noteDirtied t id) := by
  rw [Pool.noteDirtied]
  split
  · exact .refl p
  · exact .of_resident rfl rfl rfl

theorem noteWritten (t : TxnId) (id : PageId) : p.Keeps (p.noteWritten t id) := by
  rw [Pool.noteWritten]
  split
  · exact .of_resident rfl rfl rfl
  · exact .refl p

theorem drop (id : PageId) : p.Keeps (p.drop id) :=
  ⟨rfl, rfl, fun within => Nat.le_trans (List.length_filter_le ..) within⟩

/-- To move a resident page to the front makes it no more resident than it was. -/
theorem promote (here : p.frame? id = some i) : p.Keeps (p.promote id i) :=
  ⟨rfl, rfl, fun within => Nat.le_trans (length_drop_lt here) within⟩

/-- A page is loaded where there is room for it. -/
theorem load {frame : Nat} (h : p.Sound) (loaded : p.load page = .ok (p', frame)) : p.Keeps p' := by
  obtain ⟨q, room, rfl, rfl⟩ := load_cases loaded
  have fewer : p.resident.length ≤ p.capacity → q.resident.length < q.capacity := by
    intro within
    rw [makeRoom] at room
    split at room
    · next free => exact Except.ok.inj room ▸ free
    · split at room
      · next victim found =>
        obtain rfl := Except.ok.inj room
        -- the page that leaves has been resident
        obtain ⟨old, here, -⟩ := clean_of_victim? h found
        obtain ⟨i, frame, -⟩ := page?_eq_some.mp here
        exact Nat.lt_of_lt_of_le (length_drop_lt frame) within
      · cases room
  have same : q.capacity = p.capacity ∧ q.latched = p.latched := by
    rcases makeRoom_cases room with rfl | ⟨victim, -, rfl⟩
    · exact ⟨rfl, rfl⟩
    · exact ⟨rfl, rfl⟩
  refine ⟨same.1, same.2, fun within => ?_⟩
  exact Nat.succ_le_of_lt (Nat.lt_of_le_of_lt (List.length_filter_le ..) (fewer within))

end Keeps

/-! ## Notes of changes -/

/-- Whether the pool has taken note that a transaction has changed a page. -/
def Noted (p : Pool) (t : TxnId) (id : PageId) : Prop :=
  id ∈ p.dirtied.getD t []

theorem mem_dirtiedBy : id ∈ p.dirtiedBy t ↔ p.Noted t id :=
  List.mem_mergeSort

theorem noted_noteDirtied :
    (p.noteDirtied t id).Noted u other ↔ u = t ∧ other = id ∨ p.Noted u other := by
  rw [Noted, noteDirtied]
  split
  · next listed =>
    constructor
    · exact .inr
    · rintro (⟨rfl, rfl⟩ | noted)
      · exact listed
      · exact noted
  · rw [Noted, FinMap.getD_insert]
    by_cases eq : u = t
    · simp [eq, or_comm]
    · simp [eq]

theorem noted_noteWritten :
    (p.noteWritten t id).Noted u other ↔ ¬ (u = t ∧ other = id) ∧ p.Noted u other := by
  rw [Noted, noteWritten]
  split
  · next pages listed =>
    -- of the pages that `t` has changed, one is crossed off
    have noted : p.dirtied.getD t [] = pages := by rw [FinMap.getD, listed, Option.getD_some]
    rw [Noted, FinMap.getD_insert]
    by_cases eq : u = t
    · simp [eq, noted, and_comm]
    · simp [eq]
  · next unlisted =>
    have none_noted : p.dirtied.getD t [] = [] := by rw [FinMap.getD, unlisted, Option.getD_none]
    rw [Noted]
    by_cases eq : u = t
    · simp [eq, none_noted]
    · simp [eq]

/-- What is resident, and what it is, depends on the frames and on the list of residents only. -/
theorem page?_congr (frames : p'.frames = p.frames) (resident : p'.resident = p.resident)
    (id : PageId) : p'.page? id = p.page? id := by
  rw [page?, page?, frame?, frame?, frames, resident]

theorem Sound.congr (h : p.Sound) (frames : p'.frames = p.frames)
    (resident : p'.resident = p.resident) : p'.Sound where
  distinct := resident ▸ h.distinct
  framed a j mem := by
    rw [frames]
    exact h.framed a j (resident ▸ mem)

@[simp] theorem frames_noteDirtied : (p.noteDirtied t id).frames = p.frames := by
  rw [noteDirtied]
  split
  · rfl
  · rfl

@[simp] theorem resident_noteDirtied : (p.noteDirtied t id).resident = p.resident := by
  rw [noteDirtied]
  split
  · rfl
  · rfl

@[simp] theorem frames_noteWritten : (p.noteWritten t id).frames = p.frames := by
  rw [noteWritten]
  split
  · rfl
  · rfl

@[simp] theorem resident_noteWritten : (p.noteWritten t id).resident = p.resident := by
  rw [noteWritten]
  split
  · rfl
  · rfl

/-- A note of one transaction leaves those of the others alone. -/
theorem dirtied_noteWritten_of_ne (ne : u ≠ t) :
    (p.noteWritten t id).dirtied.get? u = p.dirtied.get? u := by
  rw [noteWritten]
  split
  · exact FinMap.get?_insert_of_ne _ _ ne
  · rfl

/-- The pool after the page in a frame has been marked as changed, and noted. -/
def marked (p : Pool) (t : TxnId) (frame : Nat) (page : Page) : Pool :=
  (p.setFrame frame (page.mark (some t))).noteDirtied t page.id

theorem frame?_marked : (p.marked t i page).frame? id = p.frame? id := by
  rw [frame?, frame?, marked, resident_noteDirtied]
  rfl

/-- What it leads to that a page is marked that has been fetched for writing: it stays where it is, takes
the place of another copy, or comes back into memory if there is room. -/
inductive Marks (p : Pool) (t : TxnId) (ref : PageRef) (page : Page) :
    Pool × Except FileError Unit → Prop where
  | still (here : p.frame? page.id = some ref.frame) :
    Marks p t ref page (p.marked t ref.frame page, .ok ())
  | swapped (apart : p.frame? page.id ≠ some ref.frame) (resident : p.isResident page.id = true) :
    Marks p t ref page ((p.marked t ref.frame page).promote page.id ref.frame, .ok ())
  | regained {roomy : Pool} (gone : p.frame? page.id = none)
      (room : (p.marked t ref.frame page).makeRoom = .ok roomy) :
    Marks p t ref page (roomy.promote page.id ref.frame, .ok ())
  | refused {err : FileError} (gone : p.frame? page.id = none)
      (full : (p.marked t ref.frame page).makeRoom = .error err) :
    Marks p t ref page (p.marked t ref.frame page, .error err)

theorem marks_markDirty {ref : PageRef} (here : p.frames[ref.frame]? = some page)
    (write : ref.permission = .readWrite) : p.Marks t ref page (p.markDirty t ref) := by
  have still : (p.marked t ref.frame page).frame? page.id = p.frame? page.id := frame?_marked
  have resident : (p.marked t ref.frame page).isResident page.id = p.isResident page.id :=
    congrArg Option.isSome still
  rw [marked] at still resident
  simp only [markDirty, here, write, still, resident]
  split
  · next eq => exact .still eq
  · next apart =>
    split
    · next there => exact .swapped apart there
    · next gone =>
      have gone : p.frame? page.id = none := by simpa [isResident] using gone
      split
      · next room => exact .regained gone room
      · next full => exact .refused gone full

/-- A page may be replaced before it is marked. -/
theorem marked_setFrame : (p.setFrame i page).marked t i page = p.marked t i page := by
  simp [marked, setFrame]

/-- A page that was fetched for writing is replaced and marked. -/
theorem marks_setFrame {ref : PageRef} (inside : ref.frame < p.frames.size)
    (write : ref.permission = .readWrite) :
    p.Marks t ref page ((p.setFrame ref.frame page).markDirty t ref) := by
  have put : (p.setFrame ref.frame page).frames[ref.frame]? = some page := by simp [setFrame, inside]
  have marks := marks_markDirty (t := t) put write
  generalize (p.setFrame ref.frame page).markDirty t ref = result at marks
  cases marks with
  | still here =>
    rw [marked_setFrame]
    exact .still here
  | swapped apart resident =>
    rw [marked_setFrame]
    exact .swapped apart resident
  | regained gone room =>
    rw [marked_setFrame] at room
    exact .regained gone room
  | refused gone full =>
    rw [marked_setFrame] at full ⊢
    exact .refused gone full

/-- What a pool is like after a page has been marked and is resident: it stands in this frame, and of the
other pages a clean one may have left. -/
structure Settles (p p' : Pool) (t : TxnId) (frame : Nat) (page : Page) : Prop where
  sound : p'.Sound
  resident : p'.frame? page.id = some frame
  here : p'.frames[frame]? = some (page.mark (some t))
  noted : ∀ u id, p'.Noted u id ↔ u = t ∧ id = page.id ∨ p.Noted u id
  others : ∀ id : PageId, id ≠ page.id → p'.frame? id = p.frame? id ∧ p'.page? id = p.page? id ∨
    p'.frame? id = none ∧ ∃ old, p.page? id = some old ∧ old.dirtiedBy = none

section Marked

variable (h : p.Sound) {old : Page} (at_i : p.frames[i]? = some old) (same : page.id = old.id)

include h at_i same

theorem sound_marked : (p.marked t i page).Sound := by
  have replaced : (p.setFrame i (page.mark (some t))).Sound := by
    refine h.setFrame fun found here => ?_
    rw [Option.some.inj (here.symm.trans at_i)]
    exact same
  exact replaced.congr frames_noteDirtied resident_noteDirtied

omit h same in
theorem getElem?_marked : (p.marked t i page).frames[i]? = some (page.mark (some t)) := by
  obtain ⟨inside, -⟩ := Array.getElem?_eq_some_iff.mp at_i
  simp [marked, setFrame, inside]

/-- A page that is resident in its frame is marked there, and the others stay as they are. -/
theorem settles_marked (resident : p.frame? page.id = some i) :
    p.Settles (p.marked t i page) t i page where
  sound := sound_marked h at_i same
  resident := frame?_marked.trans resident
  here := getElem?_marked at_i
  noted _ _ := noted_noteDirtied
  others id ne := by
    refine .inl ⟨frame?_marked, ?_⟩
    rw [marked, page?_congr (p := p.setFrame i (page.mark (some t))) frames_noteDirtied resident_noteDirtied,
      page?_setFrame h resident, if_neg ne]

variable (apart : p.frame? page.id ≠ some i)

include apart

/-- No page is resident in the frame of a page that is resident elsewhere or not at all. -/
theorem ne_of_apart {j : Nat} (mem : (id, j) ∈ p.resident) : j ≠ i := by
  rintro rfl
  obtain ⟨found, at_j, rfl⟩ := h.framed id j mem
  obtain rfl := Option.some.inj (at_i.symm.trans at_j)
  exact apart (same ▸ h.frame?_of_mem mem)

/-- To mark such a page changes no resident page. -/
theorem page?_marked_of_apart : (p.marked t i page).page? id = p.page? id := by
  rw [page?, page?, frame?_marked]
  cases here : p.frame? id with
  | none => rfl
  | some j =>
    have elsewhere := ne_of_apart h at_i same apart (mem_resident_of_frame? here)
    simp [marked, setFrame, Array.getElem?_setIfInBounds, elsewhere.symm]

/-- Such a page becomes resident in its frame where room has been made for it. -/
theorem settles_promote (sheds : (p.marked t i page).Sheds p') :
    p.Settles (p'.promote page.id i) t i page where
  sound := by
    have here : p'.frames[i]? = some (page.mark (some t)) := sheds.frames ▸ getElem?_marked at_i
    exact sheds.sound.promote here rfl
  resident := by rw [frame?_promote, if_pos rfl]
  here := sheds.frames ▸ getElem?_marked at_i
  noted u id := by
    have noted : (p'.promote page.id i).Noted u id ↔ (p.marked t i page).Noted u id := by
      rw [Noted, Noted, promote, sheds.dirtied]
    exact noted.trans noted_noteDirtied
  others id ne := by
    have pages : (p.marked t i page).page? id = p.page? id := page?_marked_of_apart h at_i same apart
    have frames : (p.marked t i page).frame? id = p.frame? id := frame?_marked
    rw [frame?_promote, if_neg ne, page?_promote_of_ne ne, ← pages, ← frames]
    rcases sheds.others id with kept | gone
    · exact .inl ⟨kept, sheds.page?_eq kept⟩
    · exact .inr gone

end Marked

/-- A page that is marked successfully is resident in its frame then, whether it has been so before or
not. -/
theorem Marks.settles {ref : PageRef} {old : Page} (h : p.Sound) (at_i : p.frames[ref.frame]? = some old)
    (same : page.id = old.id) (marks : p.Marks t ref page (p', .ok ())) :
    p.Settles p' t ref.frame page := by
  have sound : (p.marked t ref.frame page).Sound := sound_marked h at_i same
  cases marks with
  | still resident => exact settles_marked h at_i same resident
  | swapped apart => exact settles_promote h at_i same apart (.refl sound)
  | regained gone room =>
    exact settles_promote h at_i same (by simp [gone]) (sheds_makeRoom sound room)

/-- A resident page that was fetched for writing is marked in place. -/
theorem markDirty_of_resident {ref : PageRef} (here : p.frames[ref.frame]? = some page)
    (resident : p.frame? page.id = some ref.frame) (write : ref.permission = .readWrite) :
    p.markDirty t ref
      = ((p.setFrame ref.frame (page.mark (some t))).noteDirtied t page.id, .ok ()) := by
  have marks := marks_markDirty (t := t) here write
  generalize p.markDirty t ref = result at marks
  cases marks with
  | still => rfl
  | swapped apart => exact absurd resident apart
  | regained gone | refused gone => cases gone.symm.trans resident

end RowStore.Pool
