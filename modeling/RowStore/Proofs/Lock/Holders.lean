import RowStore.Proofs.Lock.Effect

/-! # Who holds which lock
A request gives locks to its transaction only and takes none away (`holds_acquire_of_ne`,
`holds_acquire_of_holds`); a release takes one lock (`holds_release`), and the end of a transaction all
its locks (`Sound.holds_releaseAll`), and no others. Who holds a lock alone shares it with nobody, and the
pages that the table lists for a transaction are those whose locks it holds (`Sound`). -/

namespace RowStore.LockTable

variable {l : LockTable} {t u : TxnId} {p q : PageId} {mode m : LockMode}

/-! ## Requests -/

theorem holds_granted_of_ne (free : (l.entry p).conflicts t mode = []) (ne : u ≠ t) :
    (l.granted t p mode).holds u q m = l.holds u q m := by
  rw [holds, entry_granted]
  split
  · next eq => rw [LockEntry.holds_grant_of_ne free ne, eq, holds]
  · rfl

theorem holds_granted_of_holds (h : l.holds t q m = true) :
    (l.granted t p mode).holds t q m = true := by
  rw [holds, entry_granted]
  split
  · next eq => exact LockEntry.holds_grant_of_holds (eq ▸ h)
  · exact h

theorem holds_granted_self : (l.granted t p mode).holds t p mode = true := by
  rw [holds, entry_granted, if_pos rfl, LockEntry.holds_grant_self]

/-- A grant gives its transaction the lock of no other page. -/
theorem holds_granted_of_page_ne (ne : q ≠ p) :
    (l.granted t p mode).holds u q m = l.holds u q m := by
  rw [holds, entry_granted, if_neg ne, holds]

@[simp] theorem holds_queued : (l.queued t p mode).holds u q m = l.holds u q m := by
  rw [holds, entry_queued]
  split
  · next eq => rw [LockEntry.holds_enqueue, eq, holds]
  · rfl

@[simp] theorem holds_refused : (l.refused t p).holds u q m = l.holds u q m := by
  rw [holds, entry_refused]
  split
  · next eq => rw [LockEntry.holds_dequeue, eq, holds]
  · rfl

/-- A request is of no consequence for what the other transactions hold. -/
theorem holds_request_of_ne (ne : u ≠ t) :
    (l.request t p mode).1.holds u q m = l.holds u q m := by
  rcases l.request_cases t p mode with ⟨free, eq⟩ | ⟨-, -, eq⟩ | ⟨-, -, eq⟩
  · rw [eq, holds_granted_of_ne free ne]
  · rw [eq, holds_queued]
  · rw [eq, holds_refused]

/-- A request takes no lock from its transaction. -/
theorem holds_request_of_holds (h : l.holds t q m = true) :
    (l.request t p mode).1.holds t q m = true := by
  rcases l.request_cases t p mode with ⟨-, eq⟩ | ⟨-, -, eq⟩ | ⟨-, -, eq⟩
  · rw [eq]
    exact holds_granted_of_holds h
  · rwa [eq, holds_queued]
  · rwa [eq, holds_refused]

/-- Who has been granted a lock holds it. -/
theorem holds_of_request (h : (l.request t p mode).2 = .granted) :
    (l.request t p mode).1.holds t p mode = true := by
  rcases l.request_cases t p mode with ⟨-, eq⟩ | ⟨-, -, eq⟩ | ⟨-, -, eq⟩
  · rw [eq]
    exact holds_granted_self
  · exact nomatch eq ▸ h
  · exact nomatch eq ▸ h

/-- To ask for a lock that is held already changes nothing. -/
theorem acquire_of_holds (held : l.holds t p mode = true) :
    l.acquire t p mode = (l, .granted) :=
  if_pos held

/-- A lock that is not held already is requested. -/
theorem acquire_of_not_holds (free : l.holds t p mode = false) :
    l.acquire t p mode = l.request t p mode :=
  if_neg (by simp [free])

/-- A lock that nobody else holds is granted. -/
theorem acquire_granted_of_alone (alone : ∀ u ≠ t, ∀ m, l.holds u p m = false) :
    (l.acquire t p mode).2 = .granted := by
  have free : (l.entry p).conflicts t mode = [] := by
    rw [List.eq_nil_iff_forall_not_mem]
    intro u mem
    obtain ⟨ne, held⟩ := LockEntry.mem_conflicts.mp mem
    have shared : l.holds u p .shared = true :=
      LockEntry.holds_shared_iff.mpr (held.imp_right And.right)
    simp [alone u ne] at shared
  cases held : l.holds t p mode with
  | true => rw [acquire_of_holds held]
  | false =>
    rw [acquire_of_not_holds held]
    rcases l.request_cases t p mode with ⟨-, eq⟩ | ⟨taken, -⟩ | ⟨taken, -⟩
    · rw [eq]
    · exact absurd free taken
    · exact absurd free taken

theorem holds_acquire_of_ne (ne : u ≠ t) :
    (l.acquire t p mode).1.holds u q m = l.holds u q m := by
  cases held : l.holds t p mode with
  | true => rw [acquire_of_holds held]
  | false => rw [acquire_of_not_holds held, holds_request_of_ne ne]

theorem holds_acquire_of_holds (h : l.holds t q m = true) :
    (l.acquire t p mode).1.holds t q m = true := by
  cases held : l.holds t p mode with
  | true => rwa [acquire_of_holds held]
  | false => rw [acquire_of_not_holds held, holds_request_of_holds h]

theorem holds_of_acquire (h : (l.acquire t p mode).2 = .granted) :
    (l.acquire t p mode).1.holds t p mode = true := by
  cases held : l.holds t p mode with
  | true => rwa [acquire_of_holds held]
  | false =>
    rw [acquire_of_not_holds held] at h ⊢
    exact holds_of_request h

/-- A request to share a lock makes nobody hold one alone, and takes this from nobody. -/
theorem exclusive_acquire_shared :
    ((l.acquire u p .shared).1.entry q).exclusive = (l.entry q).exclusive := by
  cases held : l.holds u p .shared with
  | true => rw [acquire_of_holds held]
  | false =>
    rw [acquire_of_not_holds held]
    rcases l.request_cases u p .shared with ⟨-, eq⟩ | ⟨-, -, eq⟩ | ⟨-, -, eq⟩
    · rw [eq, entry_granted]
      split
      · next here => rw [here]; rfl
      · rfl
    · rw [eq, entry_queued]
      split
      · next here => rw [here, LockEntry.exclusive_enqueue]
      · rfl
    · rw [eq, entry_refused]
      split
      · next here => rw [here]; rfl
      · rfl

/-- A lock can be shared by who holds it, and otherwise if nobody else holds it alone. -/
theorem acquire_shared_granted_iff : (l.acquire t p .shared).2 = .granted ↔
    l.holds t p .shared = true ∨ (l.entry p).conflicts t .shared = [] := by
  cases held : l.holds t p .shared with
  | true => simp [acquire_of_holds held]
  | false =>
    rw [acquire_of_not_holds held]
    rcases l.request_cases t p .shared with ⟨free, eq⟩ | ⟨taken, -, eq⟩ | ⟨taken, -, eq⟩
    · simp [eq, free]
    · simp [eq, taken]
    · simp [eq, taken]

/-- Who can share a lock can do so after others have asked to share locks. -/
theorem acquire_shared_granted (h : (l.acquire t q .shared).2 = .granted) :
    ((l.acquire u p .shared).1.acquire t q .shared).2 = .granted := by
  rw [acquire_shared_granted_iff] at h ⊢
  rcases h with held | free
  · left
    by_cases eq : t = u
    · subst eq
      exact holds_acquire_of_holds held
    · rwa [holds_acquire_of_ne eq]
  · right
    rw [LockEntry.conflicts, exclusive_acquire_shared]
    exact free

/-! ## Soundness -/

/-- What holds of a table that is only used for requests and ends of transactions. -/
structure Sound (l : LockTable) : Prop where
  /-- Who holds a lock alone shares it with nobody. -/
  alone : ∀ {t u p m}, l.holds t p .exclusive = true → l.holds u p m = true → u = t
  /-- The table lists the pages whose locks a transaction holds. -/
  listed : ∀ t p, p ∈ l.pagesOf t ↔ l.holdsAny t p = true

theorem holdsAny_of_holds (h : l.holds t p mode = true) : l.holdsAny t p = true :=
  LockEntry.holds_shared_of_holds h

namespace Sound

theorem empty : (∅ : LockTable).Sound where
  alone := by
    intro t u p m h
    simp [LockTable.holds, LockEntry.holds] at h
  listed t p := by
    simp [pagesOf, holdsAny, LockTable.holds, LockEntry.holds,
      show (∅ : LockTable).held = ∅ from rfl]

/-- Soundness depends on who holds which lock, and on the list, and on nothing else. -/
theorem congr (h : l.Sound) {l' : LockTable} (held : l'.held = l.held)
    (holds : ∀ u q m, l'.holds u q m = l.holds u q m) : l'.Sound where
  alone := by
    intro t u p m alone other
    rw [holds] at alone other
    exact h.alone alone other
  listed u q := by
    rw [pagesOf, held, holdsAny, holds]
    exact h.listed u q

theorem mem_addHeld {held : FinMap TxnId (List PageId)} :
    q ∈ (addHeld held t p).getD u [] ↔ u = t ∧ q = p ∨ q ∈ held.getD u [] := by
  rw [addHeld]
  split
  · next listed =>
    constructor
    · exact .inr
    · rintro (⟨rfl, rfl⟩ | mem)
      · exact listed
      · exact mem
  · rw [FinMap.getD_insert]
    by_cases eq : u = t
    · simp [eq, or_comm]
    · simp [eq]

theorem granted (h : l.Sound) (free : (l.entry p).conflicts t mode = []) :
    (l.granted t p mode).Sound where
  alone := by
    intro v u q m alone other
    have unopposed : ∀ w, w ∉ (l.entry p).conflicts t mode := by simp [free]
    by_cases here : q = p
    · -- of two holders at most one is new; the other has been there without a conflict
      subst here
      by_cases tv : v = t <;> by_cases tu : u = t
      · rw [tv, tu]
      · rw [holds_granted_of_ne free tu] at other
        subst tv
        cases mode with
        | shared =>
          -- `v` held the lock alone before it was shared
          rw [LockTable.holds, entry_granted, if_pos rfl,
            LockEntry.holds_exclusive_grant_shared] at alone
          exact h.alone alone other
        | exclusive =>
          exact absurd (LockEntry.mem_conflicts_of_holds other tu (.inr rfl)) (unopposed u)
      · rw [holds_granted_of_ne free tv] at alone
        exact absurd (LockEntry.mem_conflicts_of_holds alone tv (.inl rfl)) (unopposed v)
      · rw [holds_granted_of_ne free tv] at alone
        rw [holds_granted_of_ne free tu] at other
        exact h.alone alone other
    · rw [holds_granted_of_page_ne here] at alone other
      exact h.alone alone other
  listed u q := by
    have pages : q ∈ (l.granted t p mode).pagesOf u ↔ u = t ∧ q = p ∨ q ∈ l.pagesOf u := mem_addHeld
    rw [pages, h.listed]
    constructor
    · rintro (⟨rfl, rfl⟩ | held)
      · exact holdsAny_of_holds holds_granted_self
      · by_cases eq : u = t
        · subst eq
          exact holds_granted_of_holds held
        · rwa [holdsAny, holds_granted_of_ne free eq]
    · intro held
      by_cases eq : u = t
      · by_cases here : q = p
        · exact .inl ⟨eq, here⟩
        · rw [holdsAny, holds_granted_of_page_ne here] at held
          exact .inr held
      · rw [holdsAny, holds_granted_of_ne free eq] at held
        exact .inr held

/-- A request keeps the table sound. -/
theorem request (h : l.Sound) (t : TxnId) (p : PageId) (mode : LockMode) :
    (l.request t p mode).1.Sound := by
  rcases l.request_cases t p mode with ⟨free, eq⟩ | ⟨-, -, eq⟩ | ⟨-, -, eq⟩
  · rw [eq]
    exact h.granted free
  · rw [eq]
    exact h.congr rfl fun _ _ _ => holds_queued
  · rw [eq]
    exact h.congr rfl fun _ _ _ => holds_refused

theorem acquire (h : l.Sound) (t : TxnId) (p : PageId) (mode : LockMode) :
    (l.acquire t p mode).1.Sound := by
  cases held : l.holds t p mode with
  | true => rwa [acquire_of_holds held]
  | false =>
    rw [acquire_of_not_holds held]
    exact h.request t p mode

end Sound

/-! ## The release of a lock -/

@[simp] theorem held_releaseEntry : (l.releaseEntry t p).held = l.held := by
  rw [releaseEntry]
  split <;> rfl

@[simp] theorem held_foldl_releaseEntry (pages : List PageId) :
    (pages.foldl (·.releaseEntry t) l).held = l.held :=
  List.foldlRecOn (motive := fun l' : LockTable => l'.held = l.held) pages _ rfl
    fun _ same _ _ => held_releaseEntry.trans same

theorem mem_removeHeld {held : FinMap TxnId (List PageId)} :
    q ∈ (removeHeld held t p).getD u [] ↔ q ∈ held.getD u [] ∧ ¬ (u = t ∧ q = p) := by
  -- whether the list that is left is dropped or kept, it reads the same
  have left : (removeHeld held t p).getD u []
      = if u = t then (held.getD t []).filter (· ≠ p) else held.getD u [] := by
    rw [removeHeld]
    split
    · next none_left => rw [FinMap.getD_erase, none_left]
    · rw [FinMap.getD_insert]
  rw [left]
  by_cases eq : u = t
  · simp [eq]
  · simp [eq]

theorem mem_pagesOf_release :
    q ∈ (l.release t p).pagesOf u ↔ q ∈ l.pagesOf u ∧ ¬ (u = t ∧ q = p) := by
  rw [pagesOf, release, held_releaseEntry]
  exact mem_removeHeld

/-- A release takes one lock, and no others. -/
theorem holds_releaseEntry :
    (l.releaseEntry t p).holds u q m = if u = t ∧ q = p then false else l.holds u q m := by
  rw [holds, entry_releaseEntry]
  by_cases here : q = p
  · subst here
    rw [if_pos rfl]
    by_cases eq : u = t
    · subst eq
      rw [LockEntry.holds_release_self, if_pos ⟨rfl, rfl⟩]
    · rw [LockEntry.holds_release_of_ne eq, if_neg fun both => eq both.1, holds]
  · rw [if_neg here, if_neg fun both => here both.2, holds]

theorem holds_release :
    (l.release t p).holds u q m = if u = t ∧ q = p then false else l.holds u q m :=
  holds_releaseEntry

/-- A release keeps the table sound, also one of a lock that is not held. -/
theorem Sound.release (h : l.Sound) (t : TxnId) (p : PageId) : (l.release t p).Sound where
  alone := by
    intro v u q m alone other
    rw [holds_release] at alone other
    split at alone
    · exact nomatch alone
    · split at other
      · exact nomatch other
      · exact h.alone alone other
  listed u q := by
    rw [mem_pagesOf_release, h.listed, holdsAny, holdsAny, holds_release]
    split
    · next both => simp [both]
    · next apart => simp [apart]

/-! ## The end of a transaction -/

/-- The end of a transaction takes its locks, and no others. -/
theorem Sound.holds_releaseAll (h : l.Sound) :
    (l.releaseAll t).holds u q m = if u = t then false else l.holds u q m := by
  rw [holds, entry_releaseAll]
  by_cases eq : u = t
  · subst eq
    rw [if_pos rfl]
    split
    · exact LockEntry.holds_release_self
    · next unlisted =>
      -- the table lists every page that `u` holds, and this is none of them
      rw [h.listed, Bool.not_eq_true] at unlisted
      rw [Bool.eq_false_iff]
      intro held
      exact absurd (holdsAny_of_holds held) (by simp [unlisted])
  · rw [if_neg eq]
    split
    · exact LockEntry.holds_release_of_ne eq
    · rfl

theorem pagesOf_releaseAll :
    (l.releaseAll t).pagesOf u = if u = t then [] else l.pagesOf u := by
  rw [pagesOf, releaseAll, held_foldl_releaseEntry, FinMap.getD_erase, pagesOf]

theorem Sound.releaseAll (h : l.Sound) (t : TxnId) : (l.releaseAll t).Sound where
  alone := by
    intro v u q m alone other
    rw [h.holds_releaseAll] at alone other
    split at alone
    · exact nomatch alone
    · split at other
      · exact nomatch other
      · exact h.alone alone other
  listed u q := by
    rw [pagesOf_releaseAll, holdsAny, h.holds_releaseAll]
    split
    · simp
    · exact h.listed u q

end RowStore.LockTable
