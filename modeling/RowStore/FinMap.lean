/-! # Finite maps
A map with finitely many keys, as a list of pairs. The first pair of a key counts; `insert` and `erase`
leave no other. Main statements: what `get?` finds after `insert` and `erase`. -/

namespace RowStore

/-- A map from finitely many keys. -/
structure FinMap (κ α : Type) where
  toList : List (κ × α)
  deriving DecidableEq

namespace FinMap

variable {κ α : Type} [DecidableEq κ]

/-- The map without keys. -/
def empty : FinMap κ α := ⟨[]⟩

instance : EmptyCollection (FinMap κ α) := ⟨empty⟩

instance : Inhabited (FinMap κ α) := ⟨∅⟩

/-- The value of a key. -/
def get? (m : FinMap κ α) (k : κ) : Option α :=
  (m.toList.find? (·.1 = k)).map Prod.snd

/-- The value of a key, or another value if the key has none. -/
def getD (m : FinMap κ α) (k : κ) (a : α) : α :=
  (m.get? k).getD a

/-- Whether a key has a value. -/
def contains (m : FinMap κ α) (k : κ) : Bool :=
  (m.get? k).isSome

/-- The map without a key. -/
def erase (m : FinMap κ α) (k : κ) : FinMap κ α :=
  ⟨m.toList.filter (·.1 ≠ k)⟩

/-- The map with a value for a key. -/
def insert (m : FinMap κ α) (k : κ) (a : α) : FinMap κ α :=
  ⟨(k, a) :: (m.erase k).toList⟩

/-- The keys. -/
def keys (m : FinMap κ α) : List κ :=
  m.toList.map Prod.fst

@[simp] theorem get?_empty (k : κ) : (∅ : FinMap κ α).get? k = none := rfl

@[simp] theorem get?_erase_self (m : FinMap κ α) (k : κ) : (m.erase k).get? k = none := by
  simp [get?, erase, List.find?_filter]

theorem get?_erase_of_ne (m : FinMap κ α) {k l : κ} (h : l ≠ k) :
    (m.erase k).get? l = m.get? l := by
  simp only [get?, erase, List.find?_filter]
  congr 2
  funext p
  by_cases hp : p.1 = l <;> simp [hp, h]

@[simp] theorem get?_insert_self (m : FinMap κ α) (k : κ) (a : α) :
    (m.insert k a).get? k = some a := by
  simp [get?, insert]

theorem get?_insert_of_ne (m : FinMap κ α) {k l : κ} (a : α) (h : l ≠ k) :
    (m.insert k a).get? l = m.get? l := by
  rw [← m.get?_erase_of_ne h]
  simp [get?, insert, h.symm]

theorem get?_erase (m : FinMap κ α) (k l : κ) :
    (m.erase k).get? l = if l = k then none else m.get? l := by
  split
  · next h => rw [h, get?_erase_self]
  · next h => exact m.get?_erase_of_ne h

theorem get?_insert (m : FinMap κ α) (k l : κ) (a : α) :
    (m.insert k a).get? l = if l = k then some a else m.get? l := by
  split
  · next h => rw [h, get?_insert_self]
  · next h => exact m.get?_insert_of_ne a h

/-- A key without a value may as well be erased. -/
theorem get?_of_missing {m : FinMap κ α} {k : κ} (h : m.get? k = none) (l : κ) :
    m.get? l = if l = k then none else m.get? l := by
  split
  · next eq => rw [eq, h]
  · rfl

@[simp] theorem getD_empty (k : κ) (a : α) : (∅ : FinMap κ α).getD k a = a := rfl

theorem getD_erase (m : FinMap κ α) (k l : κ) (a : α) :
    (m.erase k).getD l a = if l = k then a else m.getD l a := by
  rw [getD, get?_erase]
  split <;> rfl

theorem getD_insert (m : FinMap κ α) (k l : κ) (a b : α) :
    (m.insert k a).getD l b = if l = k then a else m.getD l b := by
  rw [getD, get?_insert]
  split <;> rfl

theorem mem_toList_of_get? {m : FinMap κ α} {k : κ} {a : α} (h : m.get? k = some a) :
    (k, a) ∈ m.toList := by
  simp only [get?, Option.map_eq_some_iff] at h
  obtain ⟨p, hp, rfl⟩ := h
  have eq : p.1 = k := by simpa using List.find?_some hp
  exact eq ▸ List.mem_of_find?_eq_some hp

theorem mem_keys_of_get? {m : FinMap κ α} {k : κ} {a : α} (h : m.get? k = some a) : k ∈ m.keys :=
  List.mem_map_of_mem (mem_toList_of_get? h)

/-- If no key is listed twice, every pair counts. -/
theorem get?_of_mem_toList {m : FinMap κ α} (distinct : m.keys.Nodup) {k : κ} {a : α}
    (h : (k, a) ∈ m.toList) : m.get? k = some a := by
  obtain ⟨pairs⟩ := m
  simp only [get?, keys] at *
  induction pairs with
  | nil => simp at h
  | cons first rest ih =>
    rw [List.map_cons, List.nodup_cons] at distinct
    rcases List.mem_cons.mp h with rfl | later
    · simp
    · have ne : first.1 ≠ k := fun eq => distinct.1 (eq ▸ List.mem_map_of_mem later)
      simp [ne, ih distinct.2 later]

theorem nodup_keys_erase {m : FinMap κ α} (distinct : m.keys.Nodup) (k : κ) :
    (m.erase k).keys.Nodup :=
  distinct.sublist (List.filter_sublist.map _)

theorem nodup_keys_insert {m : FinMap κ α} (distinct : m.keys.Nodup) (k : κ) (a : α) :
    (m.insert k a).keys.Nodup := by
  rw [keys, insert, List.map_cons, List.nodup_cons]
  refine ⟨?_, nodup_keys_erase distinct k⟩
  simp [erase]

end FinMap

end RowStore
