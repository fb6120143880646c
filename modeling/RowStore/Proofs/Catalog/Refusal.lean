import RowStore.Proofs.Catalog.Declaration

/-! # Refused documents
The tables of a document are registered one after another, up to the first that is refused
(`Tables.Refuses`). Nothing is taken back then: the tables before it stay registered, also in place of
tables that had their names or their files before (`Catalog.Spares`). Main statement: `halts_of_error`. -/

namespace RowStore

namespace Catalog

variable {c c' : Catalog} {name : String} {id : TableId} {file : HeapFile} {primaryKey : Option String}

/-! ## What registrations spare -/

/-- What is left of the tables of a catalog when others have been registered, with these names and these
ids: a table that has one of them is gone, and every other table is as it was. -/
structure Spares (c c' : Catalog) (names : List String) (ids : List TableId) : Prop where
  tableId : ∀ name, name ∉ names → c'.tableId name =
    if ∃ id ∈ ids, c.tableId name = .ok id then .error (.nameNotFound name) else c.tableId name
  find? : ∀ id, id ∉ ids → c'.find? id =
    if ∃ name ∈ names, c.tableId name = .ok id then none else c.find? id

/-- What is told for a name after a registration. -/
theorem tableId_add (c : Catalog) (name : String) (file : HeapFile) (primaryKey : Option String)
    (other : String) : (c.add name file primaryKey).tableId other =
      if other = name then .ok file.id
      else if c.tableId other = .ok file.id then .error (.nameNotFound other) else c.tableId other := by
  have names := c.consistent.get?_names_add name file primaryKey other
  simp only [CatalogState.tableId_eq_ok]
  rw [CatalogState.tableId, add, names]
  split_ifs <;> rfl

/-- The tables with other ids than the new one keep their names, but for the name that is given to it. -/
theorem tableId_add_eq_ok_iff (c : Catalog) (ne : id ≠ file.id) (other : String) :
    (c.add name file primaryKey).tableId other = .ok id ↔ other ≠ name ∧ c.tableId other = .ok id := by
  rw [tableId_add]
  split_ifs with new taken
  · simp [new, Ne.symm ne]
  · simp [taken, Ne.symm ne]
  · simp [new]

/-- The tables with other ids than the new one stay, but for the one that had its name. -/
theorem find?_add_of_id_ne (c : Catalog) (ne : id ≠ file.id) :
    (c.add name file primaryKey).find? id
      = if c.tableId name = .ok id then none else c.find? id := by
  refine (c.find?_add name file primaryKey id).trans ?_
  simp only [if_neg ne, CatalogState.tableId_eq_ok]

/-- Registrations one after another spare what each of them does not replace. -/
theorem spares_addAll (c : Catalog) (es : List CatalogEntry) :
    c.Spares (c.addAll es) (es.map CatalogEntry.name) (es.map CatalogEntry.id) := by
  induction es generalizing c with
  | nil => exact ⟨by simp [addAll], by simp [addAll]⟩
  | cons e es ih =>
    have rest := ih (c.add e.name e.file e.primaryKey)
    constructor
    · intro name new
      refine (rest.tableId name (List.not_mem_of_not_mem_cons new)).trans ?_
      rw [tableId_add, if_neg (List.ne_of_not_mem_cons new)]
      by_cases taken : c.tableId name = .ok e.file.id <;> simp [taken, CatalogEntry.id]
    · intro id new
      refine (rest.find? id (List.not_mem_of_not_mem_cons new)).trans ?_
      have ne : id ≠ e.file.id := List.ne_of_not_mem_cons new
      simp only [c.tableId_add_eq_ok_iff ne]
      rw [c.find?_add_of_id_ne ne]
      -- the table of the id is gone at once, or it stays with its name until this is registered
      by_cases taken : c.tableId e.name = .ok id
      · simp [taken]
      · have others : (∃ name ∈ es.map CatalogEntry.name, name ≠ e.name ∧ c.tableId name = .ok id) ↔
            ∃ name ∈ (e :: es).map CatalogEntry.name, c.tableId name = .ok id := by
          constructor
          · rintro ⟨name, mem, -, found⟩
            exact ⟨name, .tail _ mem, found⟩
          · rintro ⟨name, mem, found⟩
            have ne : name ≠ e.name := by
              rintro rfl
              exact taken found
            exact ⟨name, List.mem_of_ne_of_mem ne mem, ne, found⟩
        rw [if_neg taken]
        exact if_congr others rfl rfl

end Catalog

namespace Tables

variable {s s' : Tables} {base : Path} {pageSize : Nat} {d : TableDecl} {ds : List TableDecl}
  {seen : List String} {err : CatalogError}

/-! ## The first table that is refused -/

/-- Why a declared table is refused after tables of the names `seen`, with what is there afterwards: its
name is one of theirs, a column has no type, the primary key is no column, or the file cannot be opened,
which may have made directories. -/
inductive Refuses (s : Tables) (base : Path) (pageSize : Nat) (seen : List String) (d : TableDecl) :
    Tables → CatalogError → Prop where
  | name (taken : d.name ∈ seen) : Refuses s base pageSize seen d s (.duplicateTable d.name)
  | columns {e : RecordError} (fresh : d.name ∉ seen) (untyped : d.schema = .error e) :
      Refuses s base pageSize seen d s (.record e)
  | primaryKey {schema : Schema} {e : RecordError} (fresh : d.name ∉ seen) (typed : d.schema = .ok schema)
      (foreign : d.primaryKey.mapM schema.fieldIndex = .error e) :
      Refuses s base pageSize seen d s (.record e)
  | file {schema : Schema} {key : Option Nat} {disk : FileTree} {e : FileError} (fresh : d.name ∉ seen)
      (typed : d.schema = .ok schema) (indexed : d.primaryKey.mapM schema.fieldIndex = .ok key)
      (closed : HeapFile.openAt s.disk (base.join (.parse s.disk.root d.file)) schema pageSize
        = (disk, .error e)) :
      Refuses s base pageSize seen d { s with disk } (.file e)

theorem refuses_of_declare (fresh : d.name ∉ seen) (h : s.declare base pageSize d = (s', .error err)) :
    s.Refuses base pageSize seen d s' err := by
  rw [declare] at h
  split at h
  · next e untyped =>
    cases h
    exact .columns fresh untyped
  · next schema typed =>
    dsimp only [openTable] at h
    split at h
    · next e foreign =>
      cases h
      exact .primaryKey fresh typed foreign
    · next key indexed =>
      split at h
      · next disk e closed =>
        cases h
        exact .file fresh typed indexed closed
      · cases (Prod.mk.inj h).2

/-- A table that is refused is not registered, and nothing that was on the disk is changed. -/
theorem Refuses.unchanged (h : s.Refuses base pageSize seen d s' err) :
    s'.catalog = s.catalog ∧ s.disk.Makes s'.disk := by
  cases h with
  | name | columns | primaryKey => exact ⟨rfl, .refl _⟩
  | @file schema _ disk _ _ _ _ closed =>
    have makes := HeapFile.makes_openAt s.disk (base.join (.parse s.disk.root d.file)) schema pageSize
    rw [closed] at makes
    exact ⟨rfl, makes⟩

/-- Where the registration of tables fails, the tables up to some place have been registered, and the one
in this place is refused. -/
theorem exists_refuses_of_declareAll (h : declareAll base pageSize s seen ds = (s', .error err)) :
    ∃ earlier d later mid ids, ds = earlier ++ d :: later ∧
      declareAll base pageSize s seen earlier = (mid, .ok ids) ∧
      mid.Refuses base pageSize ((earlier.map TableDecl.name).reverse ++ seen) d s' err := by
  induction ds generalizing s seen with
  | nil => cases (Prod.mk.inj h).2
  | cons d ds ih =>
    rw [declareAll] at h
    split at h
    · next taken =>
      cases h
      exact ⟨[], d, ds, _, [], rfl, rfl, .name taken⟩
    · next fresh =>
      split at h
      · next mid e declared =>
        cases h
        exact ⟨[], d, ds, _, [], rfl, rfl, refuses_of_declare fresh declared⟩
      · next next id declared =>
        cases tail : declareAll base pageSize next (d.name :: seen) ds with
        | mk last result =>
          rw [tail] at h
          cases result with
          | ok ids => cases (Prod.mk.inj h).2
          | error e =>
            cases h
            obtain ⟨earlier, refused, later, mid, ids, rfl, registered, refuses⟩ := ih tail
            refine ⟨d :: earlier, refused, later, mid, id :: ids, rfl, ?_, by simpa using refuses⟩
            rw [declareAll, if_neg fresh, declared]
            dsimp only
            rw [registered]
            rfl

/-! ## What is left behind -/

/-- What is there when a table has been refused: the tables declared before it have been registered, and
nothing else has changed. -/
structure HaltsAt (s : Tables) (base : Path) (pageSize : Nat) (s' : Tables) (err : CatalogError)
    (earlier : List TableDecl) (d : TableDecl) (ids : List TableId) : Prop where
  refuses : ∃ mid, declareAll base pageSize s [] earlier = (mid, .ok ids) ∧
    mid.Refuses base pageSize (earlier.map TableDecl.name).reverse d s' err
  settled : s'.Settled base pageSize earlier ids
  spares : s.catalog.Spares s'.catalog (earlier.map TableDecl.name) ids
  makes : s.disk.Makes s'.disk

/-- Whether the registration of declared tables has halted at one of them. -/
def Halts (s : Tables) (base : Path) (pageSize : Nat) (ds : List TableDecl) (s' : Tables)
    (err : CatalogError) : Prop :=
  ∃ earlier d later ids, ds = earlier ++ d :: later ∧ s.HaltsAt base pageSize s' err earlier d ids

theorem halts_of_declareAll (h : declareAll base pageSize s [] ds = (s', .error err)) :
    s.Halts base pageSize ds s' err := by
  obtain ⟨earlier, d, later, mid, ids, rfl, registered, refuses⟩ := exists_refuses_of_declareAll h
  rw [List.append_nil] at refuses
  obtain ⟨unchanged, makes⟩ := refuses.unchanged
  obtain ⟨-, settled⟩ := settled_of_declareAll registered makes.keeps unchanged
  obtain ⟨made, -, -, es, rfl, added, all⟩ := spec_of_declareAll registered
  refine ⟨earlier, d, later, _, rfl, ⟨mid, registered, refuses⟩, settled, ?_, made.trans makes⟩
  -- the names that are registered are those that are declared
  rw [unchanged, added, ← names_of_fulfils (all s'.disk makes.keeps)]
  exact s.catalog.spares_addAll es

/-- **Documents that are refused.** Whatever has been registered and forgotten, if the tables of a document
cannot all be registered, those before the first that is refused have been, each as it was declared, and
they stay: they have taken away the tables that had their names or their files. Every other lookup of a
name or an id has the result that it had, and what was on the disk is as it was. A document in a file that
cannot be loaded changes nothing. -/
theorem halts_of_error (disk : FileTree) (rs : List Registration) (pageSize : Nat) (s' : Tables)
    (err : CatalogError) :
    (∀ (doc : SchemaDocument) (base : Path),
      (⟨disk, .registered rs⟩ : Tables).register doc base pageSize = (s', .error err) →
        (⟨disk, .registered rs⟩ : Tables).Halts base pageSize doc.tables s' err) ∧
    ∀ p : Path, (⟨disk, .registered rs⟩ : Tables).loadSchema p pageSize = (s', .error err) →
      SchemaDocument.load disk p = .error err ∧ s' = ⟨disk, .registered rs⟩ ∨
        ∃ doc, SchemaDocument.load disk p = .ok doc ∧
          (⟨disk, .registered rs⟩ : Tables).Halts p.parent pageSize doc.tables s' err := by
  refine ⟨fun doc base h => halts_of_declareAll h, fun p h => ?_⟩
  rw [loadSchema] at h
  split at h
  · next e unread =>
    cases h
    exact .inl ⟨unread, rfl⟩
  · next doc read => exact .inr ⟨doc, read, halts_of_declareAll h⟩

/-- A declared table of one column that has no type. -/
def untypedIn (name file : String) : TableDecl := ⟨name, file, [⟨"x", "float"⟩], none⟩

/-- The second table of a document has a column without a type. -/
theorem halts_of_error_untyped : ∃ s',
    noTables.register ⟨none, [numbersIn "a" "t.dat", untypedIn "b" "u.dat"]⟩ (.parse "" ".") 9
      = (s', .error (.record (.invalidType "float"))) ∧
    noTables.Halts (.parse "" ".") 9 [numbersIn "a" "t.dat", untypedIn "b" "u.dat"] s'
      (.record (.invalidType "float")) := by
  obtain ⟨s', h⟩ : ∃ s', noTables.register
      ⟨none, [numbersIn "a" "t.dat", untypedIn "b" "u.dat"]⟩ (.parse "" ".") 9
        = (s', .error (.record (.invalidType "float"))) :=
    ⟨_, Prod.ext rfl (by decide +kernel)⟩
  exact ⟨s', h, (halts_of_error (.empty "") [] 9 s' _).1 _ _ h⟩

/-- A document is refused for its second table. The first one has taken the name of a table that was
registered before, and this table is not found any more. -/
theorem displaced_by_refused : ∃ s s',
    noTables.register ⟨none, [numbersIn "a" "u.dat"]⟩ (.parse "" ".") 9 = (s, .ok [.file ["u.dat"]]) ∧
    s.register ⟨none, [numbersIn "a" "t.dat", untypedIn "b" "v.dat"]⟩ (.parse "" ".") 9
      = (s', .error (.record (.invalidType "float"))) ∧
    s.catalog.tableId "a" = .ok (.file ["u.dat"]) ∧ s.catalog.tableName (.file ["u.dat"]) = .ok "a" ∧
    s'.catalog.tableId "a" = .ok (.file ["t.dat"]) ∧
    s'.catalog.tableName (.file ["u.dat"]) = .error (.tableNotFound (.file ["u.dat"])) :=
  ⟨_, _, Prod.ext rfl (by decide +kernel), Prod.ext rfl (by decide +kernel), by decide +kernel,
    by decide +kernel, by decide +kernel, by decide +kernel⟩

end Tables

end RowStore
