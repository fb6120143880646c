import Mathlib.Data.List.Nodup
import Mathlib.Data.String.Basic
import RowStore.Proofs.Engine.Opening

/-! # Registered tables
Tables are registered and forgotten, and a registration replaces the table of its name and the table of
its file, which may be two different ones. Whatever has been registered, the two maps of the catalog agree
(`CatalogState.Consistent`), so names and ids stand for each other (`CatalogState.Paired`). Main statement:
`paired_registered`, which also tells what one more registration leads to (`CatalogState.Replaces`). -/

namespace RowStore

/-- What is done to a catalog. -/
inductive Registration where
  /-- A file is registered under a name. -/
  | add (name : String) (file : HeapFile) (primaryKey : Option String)
  /-- All tables are forgotten. -/
  | clear

namespace CatalogState

variable {s : CatalogState} {name : String} {id : TableId} {e : CatalogEntry} {file : HeapFile}
  {primaryKey : Option String}

/-- The maps after a registration, or without tables. -/
def register (s : CatalogState) : Registration → CatalogState
  | .add name file primaryKey => s.add name file primaryKey
  | .clear => s.clear

/-- The maps that registrations one after another lead to. -/
def registered (rs : List Registration) : CatalogState :=
  rs.foldl register ∅

theorem Consistent.register (h : s.Consistent) (r : Registration) : (s.register r).Consistent := by
  cases r with
  | add name file primaryKey => exact h.add name file primaryKey
  | clear => exact consistent_empty

theorem consistent_registered (rs : List Registration) : (registered rs).Consistent :=
  List.foldlRecOn rs CatalogState.register consistent_empty fun _ consistent r _ => consistent.register r

/-! ## Looking up -/

theorem tableId_eq_ok : s.tableId name = .ok id ↔ s.names.get? name = some id := by
  rw [tableId]
  cases s.names.get? name with
  | none => exact ⟨nofun, nofun⟩
  | some found => simp

/-- A name that no table has is told in the error. -/
theorem tableId_eq_error : s.tableId name = .error (.nameNotFound name) ↔ s.names.get? name = none := by
  rw [tableId]
  cases s.names.get? name with
  | none => exact ⟨fun _ => rfl, fun _ => rfl⟩
  | some found => exact ⟨nofun, nofun⟩

theorem tableName_eq_ok : s.tableName id = .ok name ↔ ∃ e, s.find? id = some e ∧ e.name = name := by
  rw [tableName, entry]
  cases s.find? id with
  | none => simp [Functor.map, Except.map]
  | some e => simp [Functor.map, Except.map]

/-! ## Names and ids -/

/-- Names and ids stand for each other, and every table is listed once, in the order of the names. -/
structure Paired (s : CatalogState) : Prop where
  names : ∀ name id, s.names.get? name = some id ↔ ∃ e, s.tables.get? id = some e ∧ e.name = name
  /-- The table of an id has its file there. -/
  file : ∀ id e, s.tables.get? id = some e → e.file.id = id
  tableId : ∀ name id, s.tableId name = .ok id ↔ s.names.get? name = some id
  tableName : ∀ name id, s.tableName id = .ok name ↔ s.tableId name = .ok id
  listed : ∀ id, id ∈ s.tableIds ↔ ∃ e, s.tables.get? id = some e
  once : s.tableIds.Nodup
  ordered : ∃ names : List String,
    s.tableIds.map s.tableName = names.map .ok ∧ names.Pairwise (· < ·)

theorem Consistent.mem_sorted (h : s.Consistent) :
    (name, id) ∈ s.sorted ↔ s.names.get? name = some id :=
  List.mem_mergeSort.trans ⟨FinMap.get?_of_mem_toList h.distinct, FinMap.mem_toList_of_get?⟩

/-- The names increase in their order. -/
theorem Consistent.pairwise_sorted (h : s.Consistent) : (s.sorted.map Prod.fst).Pairwise (· < ·) := by
  have sorted : s.sorted.Pairwise (·.1 ≤ ·.1) := by
    refine (List.pairwise_mergeSort ?trans ?total s.names.toList).imp
      fun {a b} le => Std.LawfulBCmp.isLE_iff_le.mp le
    case trans =>
      intro a b d
      simp only [Std.LawfulBCmp.isLE_iff_le]
      exact le_trans
    case total =>
      intro a b
      simpa only [Bool.or_eq_true, Std.LawfulBCmp.isLE_iff_le] using le_total a.1 b.1
  have distinct : (s.sorted.map Prod.fst).Nodup :=
    ((List.mergeSort_perm ..).map _).nodup_iff.mpr h.distinct
  rw [List.pairwise_map]
  exact sorted.imp₂ (fun _ _ le ne => lt_of_le_of_ne le ne) (List.pairwise_map.mp distinct)

/-- No two names stand for one id. -/
theorem Consistent.nodup_tableIds (h : s.Consistent) : s.tableIds.Nodup := by
  have increasing := List.pairwise_map.mp h.pairwise_sorted
  refine List.Nodup.map_on ?_ (increasing.imp fun lt eq => (eq ▸ lt).ne rfl)
  rintro ⟨name, id⟩ mem ⟨other, id'⟩ mem' (rfl : id = id')
  obtain ⟨e, here, rfl⟩ := (h.paired name id).mp (h.mem_sorted.mp mem)
  obtain ⟨e', here', rfl⟩ := (h.paired other id).mp (h.mem_sorted.mp mem')
  rw [Option.some.inj (here.symm.trans here')]

theorem Consistent.paired_lookups (h : s.Consistent) : s.Paired where
  names := h.paired
  file := h.keyed
  tableId _ _ := tableId_eq_ok
  tableName name id := by rw [tableName_eq_ok, tableId_eq_ok, h.paired, find?]
  listed id := by
    constructor
    · intro mem
      obtain ⟨⟨name, _⟩, listed, rfl⟩ := List.mem_map.mp mem
      obtain ⟨e, here, -⟩ := (h.paired name _).mp (h.mem_sorted.mp listed)
      exact ⟨e, here⟩
    · rintro ⟨e, here⟩
      exact List.mem_map.mpr ⟨(e.name, id), h.mem_sorted.mpr ((h.paired _ _).mpr ⟨e, here, rfl⟩), rfl⟩
  once := h.nodup_tableIds
  ordered := by
    refine ⟨_, ?_, h.pairwise_sorted⟩
    rw [tableIds, List.map_map, List.map_map]
    refine List.map_congr_left ?_
    rintro ⟨name, id⟩ mem
    exact tableName_eq_ok.mpr ((h.paired name id).mp (h.mem_sorted.mp mem))

/-! ## One more registration -/

/-- What the registration of a file under a name leads to: the tables of this name and of this file are
gone, and every other table is as it was. -/
structure Replaces (s s' : CatalogState) (name : String) (file : HeapFile)
    (primaryKey : Option String) : Prop where
  tables : ∀ id, s'.tables.get? id =
    if id = file.id then some ⟨name, file, primaryKey⟩
    else if s.names.get? name = some id then none else s.tables.get? id
  names : ∀ other, s'.names.get? other =
    if other = name then some file.id
    else if s.names.get? other = some file.id then none else s.names.get? other
  /-- Of the tables that were there, those with another name and another file are left. -/
  left : ∀ id e, s.tables.get? id = some e →
    (s'.tables.get? id = some e ↔ e.name ≠ name ∧ id ≠ file.id ∨ e = ⟨name, file, primaryKey⟩)

theorem Consistent.replaces (h : s.Consistent) (name : String) (file : HeapFile)
    (primaryKey : Option String) :
    s.Replaces (s.add name file primaryKey) name file primaryKey where
  tables := s.find?_add name file primaryKey
  names := h.get?_names_add name file primaryKey
  left id e here := by
    have named : s.names.get? name = some id ↔ e.name = name := by simp [h.paired, here]
    change (s.add name file primaryKey).find? id = some e ↔ _
    rw [s.find?_add]
    split_ifs with same taken
    · simp [same, eq_comm]
    · -- the table of the name cannot be the new one, which has another id
      have ne : e ≠ ⟨name, file, primaryKey⟩ := by
        rintro rfl
        exact same (h.keyed id _ here).symm
      simp [named.mp taken, ne]
    · have kept : e.name ≠ name ∧ id ≠ file.id := ⟨fun eq => taken (named.mpr eq), same⟩
      exact ⟨fun _ => .inl kept, fun _ => here⟩

/-- **Names and ids of registered tables.** Whatever has been registered and forgotten, under names and
with files that may repeat, the two maps agree: names and ids stand for each other, and every table is
listed once, in the order of the names. One more registration gives the name to the file, and takes away
just the tables that had this name or this file, however many these are. -/
theorem paired_registered (rs : List Registration) (name : String) (file : HeapFile)
    (primaryKey : Option String) : (registered rs).Paired ∧
      (registered rs).Replaces ((registered rs).add name file primaryKey) name file primaryKey :=
  ⟨(consistent_registered rs).paired_lookups, (consistent_registered rs).replaces name file primaryKey⟩

/-- Two tables are registered, and then the file of the first under the name of the second. Both are gone,
each from both maps. -/
theorem paired_registered_displaced :
    let before := registered [.add "a" (numbersAt ["t"]) none, .add "b" (numbersAt ["u"]) none]
    let after := before.add "b" (numbersAt ["t"]) (some "n")
    before.tableId "a" = .ok (.file ["t"]) ∧ before.tableName (.file ["t"]) = .ok "a" ∧
      before.tableId "b" = .ok (.file ["u"]) ∧ before.tableName (.file ["u"]) = .ok "b" ∧
      after.names.get? "a" = none ∧ after.names.get? "b" = some (.file ["t"]) ∧
      after.tables.get? (.file ["u"]) = none ∧
      after.tables.get? (.file ["t"]) = some ⟨"b", numbersAt ["t"], some "n"⟩ := by
  intro before after
  have replaces : before.Replaces after "b" (numbersAt ["t"]) (some "n") := (paired_registered _ ..).2
  refine ⟨rfl, rfl, rfl, rfl, ?_, ?_, ?_, ?_⟩
  · exact (replaces.names "a").trans (by decide +kernel)
  · exact (replaces.names "b").trans (if_pos rfl)
  · exact (replaces.tables (.file ["u"])).trans (by decide +kernel)
  · exact (replaces.tables (.file ["t"])).trans (if_pos rfl)

end CatalogState

namespace Catalog

/-- The catalog after a registration, or without tables. -/
def register (c : Catalog) : Registration → Catalog
  | .add name file primaryKey => c.add name file primaryKey
  | .clear => c.clear

/-- The catalog that registrations one after another lead to. -/
def registered (rs : List Registration) : Catalog :=
  rs.foldl register ∅

/-- The maps of a catalog are those that the registrations lead to. -/
theorem toCatalogState_registered (rs : List Registration) :
    (registered rs).toCatalogState = CatalogState.registered rs := by
  refine (List.foldl_hom Catalog.toCatalogState fun c r => ?_).symm
  cases r with
  | add name file primaryKey => rfl
  | clear => rfl

end Catalog

end RowStore
