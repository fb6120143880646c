import Mathlib.Data.List.Basic
import Mathlib.Data.List.Find
import RowStore.Proofs.Pool

/-! # The order of use
The resident pages stand in the order of their last use. A page that is used comes to the front; if it
was not resident and the pool is full, the victim leaves (`Enters`). So, whatever pages have been used, the
resident ones are ranked by the time since their last use (`Ranked`), and the victim is the one among the
clean pages that has not been used for the longest time (`Ranked.oldest`). -/

namespace RowStore.Pool

variable {p p' p'' : Pool} {id other victim : PageId} {i : Nat} {page : Page} {t : TxnId} {ref : PageRef}
  {us : List PageId}

/-- The resident pages, the most recently used first. -/
def ids (p : Pool) : List PageId :=
  p.resident.map Prod.fst

theorem mem_ids : id ∈ p.ids ↔ p.isResident id = true := by
  rw [isResident, frame?, Option.isSome_map, List.find?_isSome, ids, List.mem_map]
  simp

theorem mem_ids_of_frame? (here : p.frame? id = some i) : id ∈ p.ids :=
  List.mem_map.mpr ⟨_, mem_resident_of_frame? here, rfl⟩

theorem not_mem_ids : id ∉ p.ids ↔ p.frame? id = none := by
  rw [mem_ids, isResident, Bool.not_eq_true, Option.isSome_eq_false_iff, Option.isNone_iff_eq_none]

@[simp] theorem ids_drop : (p.drop id).ids = p.ids.filter (· ≠ id) := by
  rw [ids, drop, ids, List.filter_map]
  rfl

@[simp] theorem ids_promote : (p.promote id i).ids = id :: p.ids.filter (· ≠ id) := by
  rw [← ids_drop]
  rfl

/-! ## What a use does -/

/-- The pool stays as large as it is, the same frames are being written to and no new ones are there, and
the resident pages are the same, in the same frames and in the same order. -/
structure Stays (p p' : Pool) : Prop where
  capacity : p'.capacity = p.capacity
  latched : p'.latched = p.latched
  size : p'.frames.size = p.frames.size
  resident : p'.resident = p.resident

theorem Stays.ids (h : p.Stays p') : p'.ids = p.ids :=
  congrArg (List.map Prod.fst) h.resident

theorem Stays.refl (p : Pool) : p.Stays p := ⟨rfl, rfl, rfl, rfl⟩

theorem Stays.trans (h : p.Stays p') (h' : p'.Stays p'') : p.Stays p'' :=
  ⟨h'.capacity.trans h.capacity, h'.latched.trans h.latched, h'.size.trans h.size,
    h'.resident.trans h.resident⟩

theorem stays_setFrame (p : Pool) (i : Nat) (page : Page) : p.Stays (p.setFrame i page) :=
  ⟨rfl, rfl, Array.size_setIfInBounds .., rfl⟩

theorem stays_noteDirtied (p : Pool) (t : TxnId) (id : PageId) : p.Stays (p.noteDirtied t id) := by
  rw [noteDirtied]
  split
  · exact .refl p
  · exact ⟨rfl, rfl, rfl, rfl⟩

theorem stays_noteWritten (p : Pool) (t : TxnId) (id : PageId) : p.Stays (p.noteWritten t id) := by
  rw [noteWritten]
  split
  · exact ⟨rfl, rfl, rfl, rfl⟩
  · exact .refl p

theorem stays_marked (p : Pool) (t : TxnId) (i : Nat) (page : Page) : p.Stays (p.marked t i page) :=
  (stays_setFrame p i _).trans (stays_noteDirtied _ t page.id)

/-- The resident pages after a page has been used: it is the first, and if it was not resident and the
pool was full, another one has left. -/
inductive Entry (p : Pool) (id : PageId) : List PageId → Prop where
  | again (here : id ∈ p.ids) : Entry p id (id :: p.ids.filter (· ≠ id))
  | fits (new : id ∉ p.ids) (room : p.ids.length < p.capacity) : Entry p id (id :: p.ids)
  | replaces {victim : PageId} (new : id ∉ p.ids) (full : p.capacity ≤ p.ids.length)
    (leaves : p.victim? = some victim) : Entry p id (id :: p.ids.filter (· ≠ victim))

/-- A page is used, and nothing else. -/
structure Enters (p p' : Pool) (id : PageId) : Prop where
  capacity : p'.capacity = p.capacity
  latched : p'.latched = p.latched
  entry : p.Entry id p'.ids

theorem Enters.trans_stays (h : p.Enters p' id) (stays : p'.Stays p'') : p.Enters p'' id :=
  ⟨stays.capacity.trans h.capacity, stays.latched.trans h.latched, stays.ids ▸ h.entry⟩

/-- A page that is moved to the front is used again. -/
theorem enters_promote (here : id ∈ p.ids) (i : Nat) : p.Enters (p.promote id i) id :=
  ⟨rfl, rfl, ids_promote ▸ .again here⟩

/-- The victim is resident. -/
theorem mem_ids_of_victim? (leaves : p.victim? = some victim) : victim ∈ p.ids := by
  rw [victim?, Option.map_eq_some_iff] at leaves
  obtain ⟨a, found, rfl⟩ := leaves
  exact List.mem_map_of_mem (List.mem_reverse.mp (List.mem_of_find?_eq_some found))

/-- A page that becomes resident where room has been made for it enters the pool. -/
theorem enters_of_makeRoom (new : id ∉ p.ids) (room : p.makeRoom = .ok p') (i : Nat) :
    p.Enters (p'.promote id i) id := by
  have absent : ∀ {ids : List PageId}, ids.Sublist p.ids → ids.filter (· ≠ id) = ids := by
    intro ids fewer
    refine List.filter_eq_self.mpr fun other mem => ?_
    have ne : other ≠ id := fun eq => new (eq ▸ fewer.subset mem)
    simpa using ne
  rw [makeRoom] at room
  split at room
  · next free =>
    obtain rfl := Except.ok.inj room
    refine ⟨rfl, rfl, ?_⟩
    rw [ids_promote, absent (.refl _)]
    exact .fits new (by simpa [ids] using free)
  · next full =>
    split at room
    · next victim leaves =>
      obtain rfl := Except.ok.inj room
      refine ⟨rfl, rfl, ?_⟩
      rw [ids_promote, ids_drop, absent List.filter_sublist]
      exact .replaces new (by simpa [ids] using full) leaves
    · cases room

/-- A page that is loaded enters the pool. -/
theorem enters_of_load {frame : Nat} (new : page.id ∉ p.ids) (loaded : p.load page = .ok (p', frame)) :
    p.Enters p' page.id := by
  obtain ⟨q, room, -, rfl⟩ := load_cases loaded
  have enters := enters_of_makeRoom new room q.frames.size
  exact ⟨enters.capacity, enters.latched, enters.entry⟩

/-- A page that is not resident in its frame is no candidate to leave, so it changes nothing for the
others to mark it. -/
theorem victim?_marked (h : p.Sound) (here : p.frames[i]? = some page)
    (apart : p.frame? page.id ≠ some i) : (p.marked t i page).victim? = p.victim? := by
  have latched := (p.stays_marked t i page).latched
  have resident : (p.marked t i page).resident = p.resident := resident_noteDirtied
  rw [victim?, victim?, latched, resident]
  refine congrArg _ (List.find?_congr fun a mem => ?_)
  obtain ⟨other, j⟩ := a
  have elsewhere : i ≠ j := by
    rintro rfl
    obtain ⟨found, at_i, id⟩ := h.framed other i (List.mem_reverse.mp mem)
    obtain rfl := Option.some.inj (here.symm.trans at_i)
    exact apart (id ▸ h.frame?_of_mem (List.mem_reverse.mp mem))
  have same : (p.marked t i page).frames[j]? = p.frames[j]? := by
    rw [marked, frames_noteDirtied, setFrame, Array.getElem?_setIfInBounds, if_neg elsewhere]
  simp only [isDirty, same]

/-- A page that becomes resident in another frame because it is marked there is used. -/
theorem enters_of_marked (h : p.Sound) (here : p.frames[i]? = some page)
    (apart : p.frame? page.id ≠ some i) (enters : (p.marked t i page).Enters p' page.id) :
    p.Enters p' page.id := by
  have stays := p.stays_marked t i page
  obtain ⟨capacity, latched, entry⟩ := enters
  refine ⟨capacity.trans stays.capacity, latched.trans stays.latched, ?_⟩
  generalize p'.ids = ids at entry
  cases entry with
  | again here => exact stays.ids ▸ .again (stays.ids ▸ here)
  | fits new room => exact stays.ids ▸ .fits (stays.ids ▸ new) (stays.ids ▸ stays.capacity ▸ room)
  | replaces new full leaves =>
    rw [victim?_marked h here apart] at leaves
    rw [stays.ids] at new full ⊢
    exact .replaces new (stays.capacity ▸ full) leaves

/-! ## The ranking -/

/-- The number of uses since a page has been used last. -/
def idle (us : List PageId) (id : PageId) : Nat :=
  us.reverse.idxOf id

theorem idle_snoc : idle (us ++ [other]) id = if id = other then 0 else idle us id + 1 := by
  rw [idle, List.reverse_append, List.reverse_singleton, List.singleton_append]
  split
  · next eq => exact List.idxOf_cons_eq _ eq.symm
  · next ne => exact List.idxOf_cons_ne _ (Ne.symm ne)

/-- The resident pages have been used, and are in the order of their last use. -/
structure Ranked (us : List PageId) (p : Pool) : Prop where
  used : ∀ id ∈ p.ids, id ∈ us
  order : p.ids.Pairwise fun id other => idle us id < idle us other

/-- Pages that leave do not change the order. -/
theorem Ranked.fewer (h : Ranked us p) (fewer : p'.ids.Sublist p.ids) : Ranked us p' :=
  ⟨fun id mem => h.used id (fewer.subset mem), h.order.sublist fewer⟩

/-- A page that has been used is the first, and what is behind it was there before. -/
theorem Entry.exists_rest {ids : List PageId} (h : p.Entry id ids) :
    ∃ rest, ids = id :: rest ∧ rest.Sublist p.ids ∧ id ∉ rest := by
  cases h with
  | again => exact ⟨_, rfl, List.filter_sublist, by simp⟩
  | fits new => exact ⟨_, rfl, .refl _, new⟩
  | replaces new => exact ⟨_, rfl, List.filter_sublist, fun mem => new (List.mem_filter.mp mem).1⟩

/-- A use keeps the order. -/
theorem Ranked.enters (h : Ranked us p) (enters : p.Enters p' id) : Ranked (us ++ [id]) p' := by
  obtain ⟨rest, eq, fewer, out⟩ := enters.entry.exists_rest
  have later : ∀ other ∈ rest, idle (us ++ [id]) other = idle us other + 1 := by
    intro other mem
    have ne : other ≠ id := fun eq => out (eq ▸ mem)
    rw [idle_snoc, if_neg ne]
  refine ⟨fun other mem => ?_, ?_⟩
  · rw [eq] at mem
    rcases List.mem_cons.mp mem with rfl | mem
    · simp
    · exact List.mem_append_left _ (h.used other (fewer.subset mem))
  · rw [eq, List.pairwise_cons]
    refine ⟨fun other mem => ?_, (h.order.sublist fewer).imp_of_mem fun mem mem' lt => ?_⟩
    · rw [idle_snoc, if_pos rfl, later other mem]
      exact Nat.succ_pos _
    · rw [later _ mem, later _ mem']
      exact Nat.succ_lt_succ lt

/-- A use makes no more pages resident than fit. -/
theorem Enters.within (h : p.Enters p' id) (within : p.ids.length ≤ p.capacity) :
    p'.ids.length ≤ p'.capacity := by
  have left : ∀ {a : PageId}, a ∈ p.ids → (p.ids.filter (· ≠ a)).length < p.ids.length := by
    intro a mem
    exact List.length_filter_lt_length_iff_exists.mpr ⟨a, mem, by simp⟩
  obtain ⟨capacity, -, entry⟩ := h
  rw [capacity]
  generalize p'.ids = ids at entry
  cases entry with
  | again here => exact Nat.le_trans (left here) within
  | fits new room => exact room
  | replaces new full leaves => exact Nat.le_trans (left (mem_ids_of_victim? leaves)) within

/-- The victim has not been used for longer than every other page that could leave. -/
theorem Ranked.oldest (h : Ranked us p) (leaves : p.victim? = some victim) :
    ∀ id i, (id, i) ∈ p.resident → p.isDirty i = false → i ∉ p.latched → id ≠ victim →
      idle us id < idle us victim := by
  intro id i mem clean free ne
  rw [victim?, Option.map_eq_some_iff] at leaves
  obtain ⟨⟨a, j⟩, found, rfl⟩ := leaves
  obtain ⟨-, behind, before, split, kept⟩ := List.find?_eq_some_iff_append.mp found
  have resident : p.resident = before.reverse ++ (a, j) :: behind.reverse := by
    rw [← List.reverse_reverse p.resident, split]
    simp
  rw [resident, List.mem_append, List.mem_cons] at mem
  have order := h.order
  rw [ids, resident, List.map_append, List.map_cons, List.pairwise_append] at order
  rcases mem with mem | eq | mem
  · exact order.2.2 id (List.mem_map_of_mem mem) a (.head _)
  · exact absurd (congrArg Prod.fst eq) ne
  · -- what is behind the victim cannot leave
    have stuck := kept (id, i) (List.mem_reverse.mp mem)
    simp [clean, free] at stuck

end RowStore.Pool
