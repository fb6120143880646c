import RowStore.Proofs.Catalog.Registration
import RowStore.Proofs.Engine.Opening

/-! # Declared tables
The tables of a document are registered one after another. When all have been, every one of them has
been opened as it was declared (`CatalogEntry.Fulfils`), and it is still registered unless a table that
is declared later has the same file: names are checked to be different, files are not. Main statement:
`registered_of_register`. -/

namespace RowStore

namespace Catalog

variable {c : Catalog} {e : CatalogEntry} {es : List CatalogEntry}

/-- The catalog after tables have been registered one after another. -/
def addAll (c : Catalog) (es : List CatalogEntry) : Catalog :=
  es.foldl (fun c e => c.add e.name e.file e.primaryKey) c

/-- A registered table is found by its name. -/
theorem names_of_find? (here : c.find? e.id = some e) : c.names.get? e.name = some e.id :=
  (c.consistent.paired _ _).mpr ⟨e, here, rfl⟩

/-- A table stays registered when one of another name and another file is. -/
theorem find?_add_of_ne (here : c.find? e.id = some e) {name : String} {file : HeapFile}
    (name_ne : e.name ≠ name) (id_ne : e.id ≠ file.id) (primaryKey : Option String) :
    (c.add name file primaryKey).find? e.id = some e := by
  refine (c.find?_add name file primaryKey e.id).trans ?_
  rw [if_neg id_ne, if_neg, here]
  intro taken
  obtain ⟨other, there, named⟩ := (c.consistent.paired _ _).mp taken
  exact name_ne (Option.some.inj (here.symm.trans there) ▸ named)

section After

variable (names : ∀ later ∈ es, e.name ≠ later.name)

include names

/-- A table stays registered if none that is registered later has its name or its file. -/
theorem find?_addAll (here : c.find? e.id = some e) (ids : ∀ later ∈ es, e.id ≠ later.id) :
    (c.addAll es).find? e.id = some e := by
  induction es generalizing c with
  | nil => exact here
  | cons a es ih =>
    obtain ⟨name_ne, names⟩ := List.forall_mem_cons.mp names
    obtain ⟨id_ne, ids⟩ := List.forall_mem_cons.mp ids
    exact ih names (find?_add_of_ne here name_ne id_ne a.primaryKey) ids

/-- A name stays free as long as no table is registered under it. -/
theorem names_addAll_of_free (free : c.names.get? e.name = none) :
    (c.addAll es).names.get? e.name = none := by
  induction es generalizing c with
  | nil => exact free
  | cons a es ih =>
    obtain ⟨name_ne, names⟩ := List.forall_mem_cons.mp names
    refine ih names ((c.consistent.get?_names_add a.name a.file a.primaryKey e.name).trans ?_)
    rw [if_neg name_ne, free]
    exact if_neg nofun

/-- A table that is registered later with the same file takes the table away with its name. -/
theorem names_addAll_of_displaced (here : c.find? e.id = some e)
    (displaced : ∃ later ∈ es, e.id = later.id) : (c.addAll es).names.get? e.name = none := by
  induction es generalizing c with
  | nil => exact absurd displaced nofun
  | cons a es ih =>
    obtain ⟨name_ne, names⟩ := List.forall_mem_cons.mp names
    by_cases same : e.id = a.id
    · have freed : (c.add a.name a.file a.primaryKey).names.get? e.name = none := by
        refine (c.consistent.get?_names_add a.name a.file a.primaryKey e.name).trans ?_
        rw [if_neg name_ne]
        exact if_pos ((names_of_find? here).trans (congrArg some same))
      have stays := names_addAll_of_free names freed
      exact stays
    · obtain ⟨later, mem, eq⟩ := displaced
      have later_mem : later ∈ es := (List.mem_cons.mp mem).resolve_left fun first => same (first ▸ eq)
      exact ih names (find?_add_of_ne here name_ne same a.primaryKey) ⟨later, later_mem, eq⟩

end After

/-- Of tables of different names that are registered one after another, those whose file no later one
has are registered in the end. -/
theorem spec_of_addAll (names : (es.map CatalogEntry.name).Nodup) {i : Nat} (here : es[i]? = some e) :
    if e.id ∈ (es.map CatalogEntry.id).drop (i + 1) then
      (c.addAll es).tableId e.name = .error (.nameNotFound e.name)
    else (c.addAll es).find? e.id = some e ∧ (c.addAll es).tableId e.name = .ok e.id := by
  obtain ⟨inside, rfl⟩ := List.getElem?_eq_some_iff.mp here
  -- what is registered before the table does not matter
  have split : es = es.take i ++ es[i] :: es.drop (i + 1) := by
    rw [List.getElem_cons_drop, List.take_append_drop]
  have catalog : c.addAll es = ((c.addAll (es.take i)).add es[i].name es[i].file
      es[i].primaryKey).addAll (es.drop (i + 1)) := by
    conv => lhs; rw [split]
    rw [addAll, List.foldl_append]
    rfl
  have apart : ∀ later ∈ es.drop (i + 1), es[i].name ≠ later.name := by
    rw [split, List.map_append, List.map_cons, List.nodup_append] at names
    intro later mem same
    exact (List.nodup_cons.mp names.2.1).1 (List.mem_map.mpr ⟨later, mem, same.symm⟩)
  have here : ((c.addAll (es.take i)).add es[i].name es[i].file es[i].primaryKey).find? es[i].id
      = some es[i] := find?_add_self ..
  rw [catalog, ← List.map_drop]
  split
  · next displaced =>
    obtain ⟨later, mem, same⟩ := List.mem_map.mp displaced
    exact CatalogState.tableId_eq_error.mpr
      (names_addAll_of_displaced apart here ⟨later, mem, same.symm⟩)
  · next last =>
    have stays := find?_addAll apart here fun later mem same =>
      last (List.mem_map.mpr ⟨later, mem, same.symm⟩)
    exact ⟨stays, CatalogState.tableId_eq_ok.mpr (names_of_find? stays)⟩

end Catalog

/-- Whether a table has been opened as it is declared: it has the name, the columns and the primary key,
and its file is the one that the declared path leads to from the base directory. -/
structure CatalogEntry.Fulfils (e : CatalogEntry) (d : TableDecl) (disk : FileTree) (base : Path)
    (pageSize : Nat) : Prop where
  name : e.name = d.name
  schema : d.schema = .ok e.file.schema
  pageSize : e.file.pageSize = pageSize
  primaryKey : e.primaryKey = d.primaryKey
  place : ∃ content,
    disk.find (base.join (.parse disk.root d.file)) = .ok (e.file.location, .file content)

namespace Tables

variable {s s' : Tables} {base : Path} {pageSize : Nat} {d : TableDecl} {id : TableId}

/-- The path of a file that has been opened leads to it as long as nothing is removed. -/
theorem find_of_open {t t' t'' : FileTree} {p : Path} {l : Location}
    (h : t.openWithDirectories p = (t', .ok l)) (keeps : t'.Keeps t'') :
    ∃ content, t''.find p = .ok (l, .file content) := by
  obtain ⟨-, again⟩ := FileTree.openWithDirectories_again h keeps
  obtain ⟨-, last, plain, content, here⟩ := FileTree.exists_file_of_open again
  exact ⟨content, FileTree.find_of_lastEntry last here plain⟩

/-- A table that is declared is opened as it is declared, and registered. -/
theorem spec_of_declare (h : s.declare base pageSize d = (s', .ok id)) : s.disk.Makes s'.disk ∧
    ∃ e : CatalogEntry, e.id = id ∧ s'.catalog = s.catalog.add e.name e.file e.primaryKey ∧
      ∀ disk, s'.disk.Keeps disk → e.Fulfils d disk base pageSize := by
  rw [declare] at h
  split at h
  · cases (Prod.mk.inj h).2
  · next schema declared =>
    dsimp only [openTable] at h
    split at h
    · cases (Prod.mk.inj h).2
    · split at h
      · cases (Prod.mk.inj h).2
      · next disk f opened =>
        obtain ⟨rfl, eq⟩ := Prod.mk.inj h
        obtain rfl := Except.ok.inj eq
        obtain ⟨columns, size, opened⟩ := HeapFile.openAt_eq_ok.mp opened
        have makes := FileTree.makes_openWithDirectories s.disk (base.join (.parse s.disk.root d.file))
        rw [opened] at makes
        refine ⟨makes, ⟨d.name, f, d.primaryKey⟩, rfl, rfl, fun later keeps => ?_⟩
        refine ⟨rfl, columns ▸ declared, size, rfl, ?_⟩
        rw [keeps.root, makes.root]
        exact find_of_open opened keeps

/-- Declared tables are registered one after another, under names that are all different. -/
theorem spec_of_declareAll {seen : List String} {ds : List TableDecl} {ids : List TableId}
    (h : declareAll base pageSize s seen ds = (s', .ok ids)) :
    s.disk.Makes s'.disk ∧ (∀ d ∈ ds, d.name ∉ seen) ∧ (ds.map TableDecl.name).Nodup ∧
      ∃ es : List CatalogEntry, ids = es.map CatalogEntry.id ∧ s'.catalog = s.catalog.addAll es ∧
        ∀ disk, s'.disk.Keeps disk → List.Forall₂ (·.Fulfils · disk base pageSize) es ds := by
  induction ds generalizing s seen ids with
  | nil =>
    obtain ⟨rfl, eq⟩ := Prod.mk.inj h
    obtain rfl := Except.ok.inj eq
    exact ⟨.refl _, List.forall_mem_nil _, List.nodup_nil, [], rfl, rfl, fun _ _ => .nil⟩
  | cons d ds ih =>
    rw [declareAll] at h
    split at h
    · cases (Prod.mk.inj h).2
    · next fresh =>
      split at h
      · cases (Prod.mk.inj h).2
      · next mid id declared =>
        dsimp only at h
        obtain ⟨rfl, eq⟩ := Prod.mk.inj h
        obtain ⟨rest, ended, rfl⟩ := exists_of_map_eq_ok eq
        obtain ⟨makes, e, rfl, added, fulfils⟩ := spec_of_declare declared
        have tail : declareAll base pageSize mid (d.name :: seen) ds = (_, .ok rest) :=
          Prod.ext rfl ended
        obtain ⟨more, unseen, distinct, es, rfl, catalog, all⟩ := ih tail
        refine ⟨makes.trans more, ?unseen, ?distinct, e :: es, rfl, ?_, ?_⟩
        case unseen =>
          refine List.forall_mem_cons.mpr ⟨fresh, fun d mem => ?_⟩
          exact fun seen => unseen d mem (.tail _ seen)
        case distinct =>
          refine List.nodup_cons.mpr ⟨fun mem => ?_, distinct⟩
          obtain ⟨d', mem, same⟩ := List.mem_map.mp mem
          exact unseen d' mem (same ▸ .head _)
        · rw [catalog, added]
          rfl
        · exact fun disk keeps => .cons (fulfils disk (more.keeps.trans keeps)) (all disk keeps)

/-- Tables that have been opened as they are declared have the declared names. -/
theorem names_of_fulfils {es : List CatalogEntry} {ds : List TableDecl} {disk : FileTree}
    (all : List.Forall₂ (·.Fulfils · disk base pageSize) es ds) :
    es.map CatalogEntry.name = ds.map TableDecl.name := by
  induction all with
  | nil => rfl
  | cons fulfils _ ih => rw [List.map_cons, List.map_cons, fulfils.name, ih]

/-- What has become of the declared table at each place when all have been registered. -/
def Settled (s : Tables) (base : Path) (pageSize : Nat) (ds : List TableDecl) (ids : List TableId) :
    Prop :=
  ∀ i d id, ds[i]? = some d → ids[i]? = some id →
    ∃ e : CatalogEntry, e.id = id ∧ e.Fulfils d s.disk base pageSize ∧
      if id ∈ ids.drop (i + 1) then s.catalog.tableId d.name = .error (.nameNotFound d.name)
      else s.catalog.find? id = some e ∧ s.catalog.tableId d.name = .ok id

/-- Tables that have been registered one after another are settled, also if the disk has changed since. -/
theorem settled_of_declareAll {seen : List String} {ds : List TableDecl} {ids : List TableId}
    {later : Tables} (h : declareAll base pageSize s seen ds = (s', .ok ids))
    (keeps : s'.disk.Keeps later.disk) (unchanged : later.catalog = s'.catalog) :
    ids.length = ds.length ∧ later.Settled base pageSize ds ids := by
  obtain ⟨-, -, distinct, es, rfl, catalog, all⟩ := spec_of_declareAll h
  obtain ⟨length, fulfils⟩ := List.forall₂_iff_get.mp (all later.disk keeps)
  have names : es.map CatalogEntry.name = ds.map TableDecl.name := names_of_fulfils (all later.disk keeps)
  refine ⟨by simpa using length, fun i d id declared listed => ?_⟩
  rw [List.getElem?_map] at listed
  obtain ⟨e, here, rfl⟩ := Option.map_eq_some_iff.mp listed
  have opened : e.Fulfils d later.disk base pageSize := by
    obtain ⟨inside, rfl⟩ := List.getElem?_eq_some_iff.mp here
    obtain ⟨inside', rfl⟩ := List.getElem?_eq_some_iff.mp declared
    exact fulfils i inside inside'
  refine ⟨e, rfl, opened, ?_⟩
  rw [unchanged, catalog, ← opened.name]
  exact Catalog.spec_of_addAll (names ▸ distinct) here

/-- **Declared tables that are registered.** If the tables of a document can all be registered, there is
one id for each of them, in the order of the document, and each has been opened as it was declared. Those
whose file no later one shares are registered under their names with these ids; the others are not
registered any more. So all of them are registered just if their files are all different. -/
theorem registered_of_register {doc : SchemaDocument} {ids : List TableId}
    (h : s.register doc base pageSize = (s', .ok ids)) :
    ids.length = doc.tables.length ∧ s'.Settled base pageSize doc.tables ids ∧
      ((∀ d ∈ doc.tables, ∃ id, s'.catalog.tableId d.name = .ok id) ↔ ids.Nodup) := by
  obtain ⟨length, settled⟩ := settled_of_declareAll h (FileTree.Makes.refl s'.disk).keeps rfl
  refine ⟨length, settled, ⟨fun registered => ?different, fun different d mem => ?registered⟩⟩
  case different =>
    rw [List.nodup_iff_getElem?_ne_getElem?]
    intro i j before inside same
    have place : i < doc.tables.length := by omega
    obtain ⟨id, found⟩ := registered doc.tables[i] (List.getElem_mem place)
    obtain ⟨e, -, -, result⟩ := settled i doc.tables[i] ids[j] (List.getElem?_eq_getElem place)
      (same.trans (List.getElem?_eq_getElem inside))
    -- the id at the later place is one of those after the earlier place
    have later : ids[j] ∈ ids.drop (i + 1) := by
      refine List.mem_of_getElem? (i := j - (i + 1)) ?_
      rw [List.getElem?_drop, Nat.add_sub_cancel' before, List.getElem?_eq_getElem inside]
    rw [if_pos later, found] at result
    exact nomatch result
  case registered =>
    obtain ⟨i, declared⟩ := List.getElem?_of_mem mem
    have inside : i < ids.length := length ▸ (List.getElem?_eq_some_iff.mp declared).1
    obtain ⟨e, -, -, result⟩ := settled i d ids[i] declared (List.getElem?_eq_getElem inside)
    have last : ids[i] ∉ ids.drop (i + 1) := by
      rw [← List.take_append_drop i ids, ← List.getElem_cons_drop inside] at different
      exact (List.nodup_cons.mp (List.nodup_append.mp different).2.1).1
    rw [if_neg last] at result
    exact ⟨ids[i], result.2⟩

/-- A declared table of one column of integers. -/
def numbersIn (name file : String) : TableDecl := ⟨name, file, [⟨"n", "int"⟩], some "n"⟩

/-- No tables, on an empty disk. -/
def noTables : Tables := ⟨.empty "", ∅⟩

/-- Two tables are declared with files of their own, one of them in a directory that is missing. -/
theorem registered_of_register_apart : ∃ s',
    noTables.register ⟨none, [numbersIn "a" "t.dat", numbersIn "b" "d/u.dat"]⟩ (.parse "" ".") 9
      = (s', .ok [.file ["t.dat"], .file ["d", "u.dat"]]) ∧
    (∃ id, s'.catalog.tableId "a" = .ok id) ∧ ∃ id, s'.catalog.tableId "b" = .ok id := by
  obtain ⟨s', h⟩ : ∃ s', noTables.register
      ⟨none, [numbersIn "a" "t.dat", numbersIn "b" "d/u.dat"]⟩ (.parse "" ".") 9
        = (s', .ok [.file ["t.dat"], .file ["d", "u.dat"]]) :=
    ⟨_, Prod.ext rfl (by decide +kernel)⟩
  have all := (registered_of_register h).2.2.mpr (by decide)
  exact ⟨s', h, all (numbersIn "a" "t.dat") (.head _), all (numbersIn "b" "d/u.dat") (.tail _ (.head _))⟩

/-- Two tables are declared with one file. Both are said to be registered, but the first is not. -/
theorem displaced_by_shared_file : ∃ s',
    noTables.register ⟨none, [numbersIn "a" "t.dat", numbersIn "b" "t.dat"]⟩ (.parse "" ".") 9
      = (s', .ok [.file ["t.dat"], .file ["t.dat"]]) ∧
    s'.catalog.tableId "a" = .error (.nameNotFound "a") ∧
    s'.catalog.tableId "b" = .ok (.file ["t.dat"]) :=
  ⟨_, Prod.ext rfl (by decide +kernel), by decide +kernel, by decide +kernel⟩

end Tables

end RowStore
