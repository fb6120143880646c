import RowStore.Proofs.Traffic.Rescan

/-! # The columns of scanned tuples
An insertion needs the column types of its table, and keeps the column names of the inserted tuple: in
memory the tuple stays as it has been inserted. A page that is read from the disk has the names of its
table. So the columns that a scan shows depend on whether a page has left memory since (`InMemory`).
Main statements: `schema_of_yielded`, whatever a scan yields has stood in memory since it was inserted, or
has the columns of the table; and `yielded_renamed`, one row that is yielded with two column names. -/

namespace RowStore

namespace Engine

variable {e e' : Engine} {t : TxnId} {p : PageId} {permission : Permission} {page : Page} {c : Call}
  {progress : Progress} {f : HeapFile} {r : RecordId} {tuple : Tuple} {faults : Faults}

/-! ## Tuples in memory -/

/-- Whether memory holds a tuple at a record id. -/
def InMemory (e : Engine) (r : RecordId) (tuple : Tuple) : Prop :=
  ∃ page, e.pool.page? r.page = some page ∧ page.tuple? r.slot = some tuple

/-- Whether a tuple has the columns of the table of a record id. -/
def Labelled (e : Engine) (r : RecordId) (tuple : Tuple) : Prop :=
  ∃ f, e.catalog.file? r.page.table = some f ∧ tuple.schema = f.schema

/-- A tuple in memory knows its record id, and has the column types of its table. -/
theorem InMemory.spec (here : e.InMemory r tuple) (h : e.Coherent)
    (found : e.catalog.file? r.page.table = some f) :
    tuple.id? = some r ∧ tuple.schema.types = f.schema.types := by
  obtain ⟨page, resident, at_slot⟩ := here
  obtain ⟨id, sound, layout⟩ := h.spec_of_current? found (current?_of_resident resident)
  obtain ⟨fills, told⟩ := sound.fills_of_tuple? at_slot
  rw [id] at told
  rw [layout] at fills
  exact ⟨told, fills.1⟩

/-- What is read from the disk has the columns of its table. -/
theorem labelled_of_stored? (h : e.stored? r.page = some page)
    (here : page.tuple? r.slot = some tuple) : e.Labelled r tuple := by
  obtain ⟨f, found, read⟩ := stored?_eq_some.mp h
  obtain ⟨-, -, decoded⟩ := HeapFile.readPage_eq_ok.mp read
  rw [Page.tuple?_of_decode decoded] at here
  split at here
  · exact ⟨f, found, congrArg Tuple.schema (Option.some.inj here).symm⟩
  · cases here

/-! ## Where tuples in memory come from -/

/-- Memory holds nothing new but what has the columns of its table. -/
structure Recalls (e e' : Engine) : Prop where
  catalog : e'.catalog = e.catalog
  tuples : ∀ r tuple, e'.InMemory r tuple → e.InMemory r tuple ∨ e.Labelled r tuple

theorem Recalls.of_page? (catalog : e'.catalog = e.catalog)
    (pages : ∀ p, e'.pool.page? p = e.pool.page? p) : e.Recalls e' where
  catalog := catalog
  tuples r tuple here := by
    obtain ⟨page, resident, at_slot⟩ := here
    exact .inl ⟨page, pages _ ▸ resident, at_slot⟩

theorem Recalls.refl (e : Engine) : e.Recalls e :=
  .of_page? rfl fun _ => rfl

theorem Recalls.trans {e'' : Engine} (h : e.Recalls e') (h' : e'.Recalls e'') : e.Recalls e'' where
  catalog := h'.catalog.trans h.catalog
  tuples r tuple here := by
    rcases h'.tuples r tuple here with old | ⟨f, found, columns⟩
    · exact h.tuples r tuple old
    · exact .inr ⟨f, h.catalog ▸ found, columns⟩

/-- A fetch moves pages between memory and disk. -/
theorem recalls_getPage (h : e.Coherent) {fetch : Fetch}
    (hg : e.getPage t p permission = (e', fetch)) : e.Recalls e' := by
  have asked : e.Recalls (e.asking t p permission.mode) := .of_page? rfl fun _ => rfl
  have gets := gets_of_getPage hg
  generalize (e.locks.acquire t p permission.mode).2 = reply at gets
  cases gets with
  | waiting | deadlock | unserved => exact asked
  | served brought =>
    have coherent := (fetches_asking h t p permission.mode).coherent
    obtain ⟨brings, -⟩ := brings_of_bring coherent.pool brought
    refine asked.trans ⟨by rw [brings.same], fun r tuple here => ?_⟩
    obtain ⟨page, resident, at_slot⟩ := here
    rcases brings.pages r.page with same | ⟨gone, -⟩ | ⟨-, new, resident', stored⟩
    · exact .inl ⟨page, same ▸ resident, at_slot⟩
    · cases gone.symm.trans resident
    · obtain rfl := Option.some.inj (resident.symm.trans resident')
      exact .inr (labelled_of_stored? stored at_slot)

/-! ## Steps -/

/-- Where a tuple in memory can be from after a step: it was there before, it has been read, or it has
been inserted by the step. -/
def Arises (e : Engine) (c : Call) (r : RecordId) (tuple : Tuple) : Prop :=
  e.InMemory r tuple ∨ e.Labelled r tuple ∨
    ∃ i, c = .insertInto i ∧ i.file.id = r.page.table ∧ tuple = { i.tuple with id? := some r }

theorem Recalls.arises (h : e.Recalls e') (here : e'.InMemory r tuple) : e.Arises c r tuple :=
  (h.tuples r tuple here).imp_right .inl

/-- What a step does with its page comes after what the fetch of it has done. -/
theorem arises_of_withPage (h : e.Coherent)
    {use : Engine → PageRef → Page → Engine × Progress}
    (uses : ∀ (e₁ : Engine) ref page, e₁.Coherent → e₁.pool.frame? page.id = some ref.frame →
      e₁.pool.page? page.id = some page → page.id = p → ref.permission = permission →
      (use e₁ ref page).1.InMemory r tuple → e₁.Arises c r tuple)
    (here : (e.withPage t p permission use).1.InMemory r tuple) : e.Arises c r tuple := by
  rcases hg : e.getPage t p permission with ⟨e₁, fetch⟩
  have recalls := recalls_getPage h hg
  rw [withPage, hg] at here
  cases fetch with
  | waiting => exact recalls.arises here
  | failed err => exact recalls.arises here
  | fetched ref =>
    obtain ⟨fetches, spec⟩ := fetches_getPage h hg
    obtain ⟨granted, frame, -⟩ := spec ref rfl
    obtain ⟨page, at_frame, current, id⟩ := current?_of_fetched h hg
    simp only [at_frame] at here
    rcases uses e₁ ref page fetches.coherent (id ▸ frame) (id ▸ current) id granted here with
      old | ⟨f, found, columns⟩ | inserted
    · exact recalls.arises old
    · exact .inr (.inl ⟨f, recalls.catalog ▸ found, columns⟩)
    · exact .inr (.inr inserted)

/-- A change of a fetched page leaves the tuples of the others alone. -/
theorem inMemory_of_changed {ref : PageRef} (h : e.Coherent)
    (resident : e.pool.frame? page.id = some ref.frame)
    (here : (e.changed t ref page).InMemory r tuple) :
    r.page = page.id ∧ page.tuple? r.slot = some tuple ∨ e.InMemory r tuple := by
  obtain ⟨new, current, at_slot⟩ := here
  rw [page?_changed resident h.pool] at current
  split at current
  · next eq =>
    obtain rfl := Option.some.inj current
    exact .inl ⟨eq, at_slot⟩
  · exact .inr ⟨new, current, at_slot⟩

section Change

variable {ref : PageRef} (h : e.Coherent) (resident : e.pool.frame? page.id = some ref.frame)
  (current : e.pool.page? page.id = some page) (write : ref.permission = .readWrite)

include h resident current write

/-- An insertion puts its tuple into one slot. -/
theorem arises_of_place {i : Insertion} (noted : i.noted = true) (table : i.file.id = page.id.table)
    (here : (e.place t i ref page).1.InMemory r tuple) : e.Arises (.insertInto i) r tuple := by
  rw [place] at here
  split at here
  · exact .inl here
  · next id new inserted =>
    obtain ⟨-, at_page, inside, same, layout, -, bits, slots⟩ := Page.insert_cases inserted
    rw [noted, endChange_of_resident h.pool (same ▸ resident) write] at here
    rcases inMemory_of_changed h (same ▸ resident) here with ⟨page_eq, at_slot⟩ | old
    · rw [Page.tuple?_of_set layout inside bits slots, if_pos rfl] at at_slot
      split at at_slot
      · next slot_eq =>
        have record : r = id := by
          rw [same, ← at_page] at page_eq
          cases r
          cases id
          exact congr (congrArg _ page_eq) slot_eq
        subst record
        refine .inr (.inr ⟨i, rfl, ?_, (Option.some.inj at_slot).symm⟩)
        rw [at_page, table]
      · exact .inl ⟨page, by rw [page_eq, same, current], at_slot⟩
    · exact .inl old

/-- A deletion puts no tuple anywhere. -/
theorem arises_of_delete {new : Page} {id : RecordId} {reply : Reply} (deleted : page.delete id = .ok new)
    (here : ((e.setPage ref (new.mark (some t))).endChange t ref true reply).1.InMemory r tuple) :
    e.InMemory r tuple := by
  obtain ⟨-, used, same, layout, -, bits, slots⟩ := Page.delete_cases deleted
  rw [endChange_of_resident h.pool (same ▸ resident) write] at here
  rcases inMemory_of_changed h (same ▸ resident) here with ⟨page_eq, at_slot⟩ | old
  · rw [Page.tuple?_of_set layout (Page.isUsed_iff.mp used).1 bits slots] at at_slot
    split at at_slot
    · cases at_slot
    · exact ⟨page, by rw [page_eq, same, current], at_slot⟩
  · exact old

end Change

/-- What an insertion does to memory in a step. -/
theorem arises_of_stepInsert {i : Insertion} (h : e.Coherent) (noted : i.noted = true)
    (here : (e.stepInsert t i).1.InMemory r tuple) : e.Arises (.insertInto i) r tuple := by
  obtain ⟨file, row, noted', stage⟩ := i
  cases stage with
  | check =>
    simp only [stepInsert] at here
    split at here
    · exact .inl here
    · exact .inl here
  | probe n numPages =>
    simp only [stepInsert] at here
    split at here
    · exact arises_of_withPage h (fun _ _ _ _ _ _ _ _ here => .inl here) here
    · exact .inl here
  | fill n numPages | settle n =>
    refine arises_of_withPage h ?_ here
    intro e₁ ref page coherent resident current id write here
    split at here
    · exact .inl here
    · exact arises_of_place coherent resident current write noted (congrArg PageId.table id).symm here
  | grow => exact .inl here

/-- **Where tuples in memory come from.** -/
theorem arises_of_step (h : e.Coherent) (hc : c.Sound e)
    (here : (e.step t c).1.InMemory r tuple) : e.Arises c r tuple := by
  cases c with
  | lock => exact hc.elim
  | deleteFrom | advance => exact .inl here
  | fetch | turn => exact arises_of_withPage h (fun _ _ _ _ _ _ _ _ here => .inl here) here
  | insertInto i => exact arises_of_stepInsert h hc.noted here
  | insert table row =>
    rw [step] at here
    split at here
    · exact .inl here
    · exact .inl here
  | delete id? =>
    cases id? with
    | none => exact .inl here
    | some id =>
      rw [step] at here
      split at here
      · exact .inl here
      · exact .inl here
  | deleteAt id noted =>
    obtain rfl : noted = true := hc
    refine arises_of_withPage h ?_ here
    intro e₁ ref page coherent resident current _ write here
    split at here
    · exact .inl here
    · next deleted => exact .inl (arises_of_delete coherent resident current write deleted here)

/-- The tuples that a search finds are in memory when it finds them. -/
theorem inMemory_of_looking {place next : CursorPosition} (h : e.Coherent)
    (looking : LooksFrom f place c)
    (hs : e.step t c = (e', .goesOn (.advance ⟨f, some next⟩))) (mem : tuple ∈ next.buffered) :
    ∃ slot, e'.InMemory ⟨⟨f.id, place.nextPage⟩, slot⟩ tuple := by
  obtain ⟨n, buffered⟩ := place
  rcases looking with rfl | ⟨-, rfl⟩
  · -- a cursor asks for a page before it goes on
    obtain ⟨-, going⟩ := Prod.mk.inj hs
    rw [checkCursor] at going
    split at going
    · cases going
    · cases going
    · split at going
      · cases going
      · cases going
  · obtain ⟨e₁, ref, page, fetched, here, going⟩ := goesOn_of_withPage hs
    cases going
    obtain ⟨page', here', current, -⟩ := current?_of_fetched h fetched
    obtain rfl := Option.some.inj (here'.symm.trans here)
    rw [Page.tuples_eq] at mem
    obtain ⟨slot, -, at_slot⟩ := List.mem_filterMap.mp mem
    exact ⟨slot, page', current, at_slot⟩

/-! ## Ends -/

/-- A page that is written stays in memory as it is. -/
theorem recalls_writeBack {result : Except FileError Unit} (h : e.Coherent)
    (hw : e.writeBack p faults = (e', result)) : e.Recalls e' := by
  cases writesBack_of_writeBack hw with
  | clean => exact .refl e
  | failed => exact .of_page? rfl fun _ => rfl
  | @dirty t page frame disk current resident =>
    refine ⟨rfl, fun r tuple here => .inl ?_⟩
    obtain ⟨new, resident', at_slot⟩ := here
    rw [page?_written resident h.pool] at resident'
    split at resident'
    · next eq =>
      obtain rfl := Option.some.inj resident'
      exact ⟨page, eq ▸ current, at_slot⟩
    · exact ⟨new, resident', at_slot⟩

/-- A page that is read again has the columns of its table from then on. -/
theorem recalls_revertPage (h : e.Coherent) (faults : Faults) (p : PageId) :
    e.Recalls (e.revertPage faults p) := by
  rw [revertPage]
  split
  · exact .refl e
  · next frame resident =>
    split
    · next page _ read =>
      have stored : e.stored? p = some page := toOption_eq_some.mpr read
      refine ⟨rfl, fun r tuple here => ?_⟩
      obtain ⟨new, resident', at_slot⟩ := here
      rw [Pool.page?_setFrame h.pool resident] at resident'
      split at resident'
      · next eq =>
        obtain rfl := Option.some.inj resident'
        exact .inr (labelled_of_stored? (eq ▸ stored) at_slot)
      · exact .inl ⟨new, resident', at_slot⟩
    · refine ⟨rfl, fun r tuple here => ?_⟩
      obtain ⟨page, resident', at_slot⟩ := here
      rw [Pool.page?_drop] at resident'
      split at resident'
      · cases resident'
      · exact .inl ⟨page, resident', at_slot⟩

/-- The end of a transaction brings no tuple into memory but from the disk. -/
theorem recalls_complete (h : e.Coherent) (t : TxnId) (commit : Bool) (faults : Faults) :
    e.Recalls (e.complete t commit faults).1 := by
  have before : ∃ e' : Engine, (e'.Coherent ∧ e.Recalls e') ∧
      (e.complete t commit faults).1 = e'.finish t := by
    refine complete_induction ⟨h, .refl e⟩ ?write ?revert t commit
    case write =>
      rintro e₁ e₂ p result ⟨coherent, recalls⟩ wrote
      exact ⟨coherent_writeBack coherent wrote, recalls.trans (recalls_writeBack coherent wrote)⟩
    case revert =>
      rintro e₁ p ⟨coherent, recalls⟩
      exact ⟨(reverts_revertPage coherent faults p).coherent,
        recalls.trans (recalls_revertPage coherent faults p)⟩
  obtain ⟨e', ⟨-, recalls⟩, done⟩ := before
  exact done ▸ recalls.trans (.of_page? rfl fun _ => rfl)

end Engine

namespace Traffic

variable {first : Rows} {s s' : Traffic} {ev : TrafficEvent} {t u : TxnId} {c : Call}
  {r : RecordId} {tuple : Tuple} {what : TableId × Tuple}

/-- What is about to be inserted after an event was so before, or has been asked for. -/
theorem inserts?_of_next (hs : s.next? ev = some s') (turn : s'.calls.get? u = some c)
    (inserts : c.inserts? = some what) : ev = .start u (.insert what.1 what.2) ∨
      ∃ c', s.calls.get? u = some c' ∧ c'.inserts? = some what := by
  rcases call_of_next hs turn with rfl | still | ⟨-, c', before, goes⟩
  · left
    cases next_of_next? hs with
    | start request _ =>
      cases c with
      | insert table row =>
        obtain rfl := Option.some.inj inserts
        rfl
      | insertInto i => cases request
      | lock | fetch | delete | deleteFrom | deleteAt | advance | turn => cases inserts
  · exact .inr ⟨c, still, inserts⟩
  · exact .inr ⟨c', before, Engine.inserts?_of_goesOn goes inserts⟩

/-- Where a tuple in memory is from after an event. -/
theorem inMemory_of_next (h : s.Sound first) (hs : s.next? ev = some s')
    (here : s'.engine.InMemory r tuple) :
    s.engine.InMemory r tuple ∨ s.engine.Labelled r tuple ∨
      ∃ u i, ev = .step u ∧ s.calls.get? u = some (.insertInto i) ∧ i.file.id = r.page.table ∧
        tuple = { i.tuple with id? := some r } := by
  cases next_of_next? hs with
  | start => exact .inl here
  | @step u call turn =>
    rcases Engine.arises_of_step h.engine.toCoherent (h.calls u call turn) here with
      old | columns | ⟨i, rfl, table, rfl⟩
    · exact .inl old
    · exact .inr (.inl columns)
    · exact .inr (.inr ⟨u, i, rfl, turn, table, rfl⟩)
  | @complete u commit faults _ =>
    have recalls := Engine.recalls_complete h.engine.toCoherent u commit faults
    exact (recalls.tuples r tuple here).imp_right .inl

end Traffic

namespace Reader

variable {e : Engine} {first : Rows} {t : TxnId} {f : HeapFile} {r r' : Reader} {s' : Traffic}
  {ev : ReaderEvent} {es done : List ReaderEvent} {place : CursorPosition} {id : RecordId}
  {tuple : Tuple} {call : Call}

/-! ## What a scan yields -/

/-- Whether the last event has been the step of an insertion that puts a tuple at a record id. -/
def JustInserted (e : Engine) (t : TxnId) (f : HeapFile) (es : List ReaderEvent) (id : RecordId)
    (tuple : Tuple) : Prop :=
  ∃ before u r i, es = before ++ [.traffic (.step u)] ∧ (start e f none).run t before = some r ∧
    r.traffic.calls.get? u = some (.insertInto i) ∧
    .traffic (.start u (.insert f.id i.tuple)) ∈ before ∧ tuple = { i.tuple with id? := some id }

/-- At some time a tuple had the columns of its table, or was inserted, and since then it has stood in
memory. -/
def StandsSince (e : Engine) (t : TxnId) (f : HeapFile) (es : List ReaderEvent) (id : RecordId)
    (tuple : Tuple) : Prop :=
  ∃ earlier later, es = earlier ++ later ∧
    (tuple.schema = f.schema ∨ JustInserted e t f earlier id tuple) ∧
    ∀ done, done <+: later → ∃ r, (start e f none).run t (earlier ++ done) = some r ∧
      r.traffic.engine.InMemory id tuple

/-- Whether a tuple of a table was in memory at some time. -/
def Met (e : Engine) (t : TxnId) (f : HeapFile) (es : List ReaderEvent) (tuple : Tuple) : Prop :=
  ∃ done id, done <+: es ∧ id.page.table = f.id ∧ tuple.id? = some id ∧ StandsSince e t f done id tuple

theorem Met.snoc (h : Met e t f es tuple) (ev : ReaderEvent) : Met e t f (es ++ [ev]) tuple := by
  obtain ⟨done, id, pre, spec⟩ := h
  exact ⟨done, id, pre.trans (List.prefix_append ..), spec⟩

/-- A tuple that is still in memory stands there since the same time. -/
theorem StandsSince.snoc {ev : ReaderEvent} (h : StandsSince e t f es id tuple)
    (ran : (start e f none).run t (es ++ [ev]) = some r) (here : r.traffic.engine.InMemory id tuple) :
    StandsSince e t f (es ++ [ev]) id tuple := by
  obtain ⟨earlier, later, rfl, origin, stands⟩ := h
  refine ⟨earlier, later ++ [ev], List.append_assoc .., origin, fun done pre => ?_⟩
  rcases List.prefix_concat_iff.mp pre with rfl | pre
  · rw [← List.append_assoc]
    exact ⟨r, ran, here⟩
  · exact stands done pre

/-- A tuple that has just come into memory stands there from now on. -/
theorem StandsSince.now (origin : tuple.schema = f.schema ∨ JustInserted e t f es id tuple)
    (ran : (start e f none).run t es = some r) (here : r.traffic.engine.InMemory id tuple) :
    StandsSince e t f es id tuple := by
  refine ⟨es, [], (List.append_nil es).symm, origin, fun done pre => ?_⟩
  rw [List.prefix_nil.mp pre, List.append_nil]
  exact ⟨r, ran, here⟩

/-- What is in memory has stood there since it was read or inserted. -/
structure Grounded (e : Engine) (t : TxnId) (f : HeapFile) (es : List ReaderEvent) (r : Reader) :
    Prop where
  ran : (start e f none).run t es = some r
  sound : r.traffic.Sound e.storedRow
  registered : r.traffic.engine.catalog.file? f.id = some f
  /-- What is about to be inserted has been asked for. -/
  asked : ∀ u c what, r.traffic.calls.get? u = some c → c.inserts? = some what →
    .traffic (.start u (.insert what.1 what.2)) ∈ es
  memory : ∀ id tuple, id.page.table = f.id → r.traffic.engine.InMemory id tuple →
    StandsSince e t f es id tuple

/-- A tuple in memory has been met. -/
theorem Grounded.met (h : Grounded e t f es r) (table : id.page.table = f.id)
    (here : r.traffic.engine.InMemory id tuple) : Met e t f es tuple := by
  obtain ⟨told, -⟩ := here.spec h.sound.engine.toCoherent (table ▸ h.registered)
  exact ⟨es, id, List.prefix_rfl, table, told, h.memory id tuple table here⟩

theorem run_snoc (ran : (start e f none).run t es = some r) (hs : r.next? t ev = some r') :
    (start e f none).run t (es ++ [ev]) = some r' := by
  rw [run, runEvents_append, ← run, ran]
  exact runEvents_cons.mpr ⟨r', hs, rfl⟩

/-- What happens to the scan alone leaves memory as it is. -/
theorem Grounded.of_traffic_eq (h : Grounded e t f es r) (hs : r.next? t ev = some r')
    (same : r'.traffic = r.traffic) : Grounded e t f (es ++ [ev]) r' := by
  have ran := run_snoc h.ran hs
  refine ⟨ran, same ▸ h.sound, same ▸ h.registered, fun u c what turn inserts => ?_, ?_⟩
  · exact List.mem_append_left _ (h.asked u c what (same ▸ turn) inserts)
  · intro id tuple table here
    exact (h.memory id tuple table (same ▸ here)).snoc ran here

/-- What happens among the transactions leaves in memory what stood there, or was read or inserted. -/
theorem Grounded.of_next (h : Grounded e t f es r) (hs : r.next? t ev = some r')
    {inner : TrafficEvent} (step : r.traffic.next? inner = some r'.traffic)
    (asks : ∀ u table row, inner = .start u (.insert table row) → ev = .traffic inner)
    (inserts : ∀ u i, inner = .step u → r.traffic.calls.get? u = some (.insertInto i) →
      ev = .traffic inner) : Grounded e t f (es ++ [ev]) r' := by
  have ran := run_snoc h.ran hs
  have registered : r'.traffic.engine.catalog.file? f.id = some f :=
    (Traffic.extends_next h.sound step).catalog ▸ h.registered
  refine ⟨ran, h.sound.next step, registered, fun u c what turn what_next => ?asked,
    fun id tuple table here => ?memory⟩
  case asked =>
    rcases Traffic.inserts?_of_next step turn what_next with started | ⟨c', before, inserts'⟩
    · rw [← started, ← asks u what.1 what.2 started]
      exact List.mem_append_right _ (List.mem_singleton_self _)
    · exact List.mem_append_left _ (h.asked u c' what before inserts')
  case memory =>
    rcases Traffic.inMemory_of_next h.sound step here with
      old | ⟨g, found, columns⟩ | ⟨u, i, stepped, turn, same, put⟩
    · exact (h.memory id tuple table old).snoc ran here
    · obtain rfl : g = f := Option.some.inj (found.symm.trans (table ▸ h.registered))
      exact .now (.inl columns) ran here
    · have asked := h.asked u _ _ turn rfl
      rw [same, table] at asked
      refine .now (.inr ⟨es, u, r, i, ?_, h.ran, turn, asked, put⟩) ran here
      rw [inserts u i stepped turn, stepped]

/-- What a scan holds, what it has yielded, and what is in memory has been met. -/
structure Traced (e : Engine) (t : TxnId) (f : HeapFile) (es : List ReaderEvent) (r : Reader) :
    Prop extends Grounded e t f es r where
  plain : r.scan.view? = none
  holds : ∃ place, r.StandsAt t f place ∧ ∀ tuple ∈ place.buffered, Met e t f es tuple
  yielded : ∀ tuple, .ok tuple ∈ r.yielded → Met e t f es tuple

theorem traced_start (fresh : e.Fresh) (found : e.catalog.file? f.id = some f) :
    Traced e t f [] (start e f none) where
  ran := rfl
  sound := Traffic.sound_quiet fresh
  registered := found
  asked u c what turn := by simp [start, Traffic.quiet] at turn
  memory id tuple _ here := by
    obtain ⟨page, resident, -⟩ := here
    cases (fresh.page?_eq_none id.page).symm.trans resident
  plain := rfl
  holds := ⟨⟨0, []⟩, rfl, nofun⟩
  yielded := nofun

/-- A step of the search finds tuples that are in memory. -/
theorem Traced.settle (h : Traced e t f es r) (searching : r.searching = true)
    (turn : r.traffic.calls.get? t = some call) (hs : r.next? t .step = some r')
    (settled : r' = { r with traffic := r.traffic.advance t call }.settle call
      (r.traffic.engine.step t call).2) : Traced e t f (es ++ [.step]) r' := by
  obtain ⟨place, stands, held⟩ := h.holds
  rw [StandsAt, if_pos searching] at stands
  obtain ⟨c, turn', looking⟩ := stands
  obtain rfl := Option.some.inj (turn.symm.trans turn')
  have step : r.traffic.next? (.step t) = some (r.traffic.advance t call) := by
    rw [Traffic.next?, turn, Option.map_some]
  have idle : ∀ i, call ≠ .insertInto i := by
    rintro i rfl
    rcases looking with eq | ⟨-, eq⟩
    · cases eq
    · cases eq
  have held' : ∀ tuple ∈ place.buffered, Met e t f (es ++ [.step]) tuple :=
    fun tuple mem => (held tuple mem).snoc .step
  have yielded : ∀ tuple, .ok tuple ∈ r.yielded → Met e t f (es ++ [.step]) tuple :=
    fun tuple mem => (h.yielded tuple mem).snoc .step
  rcases going : r.traffic.engine.step t call with ⟨e', progress⟩
  have engine : (r.traffic.advance t call).engine = e' := by rw [Traffic.advance, going]
  have calls : (r.traffic.advance t call).calls = Traffic.follow r.traffic.calls t progress := by
    rw [Traffic.advance, going]
  rw [going] at settled
  have grounded : r'.traffic = r.traffic.advance t call → Grounded e t f (es ++ [.step]) r' := by
    intro same
    have advances : r.traffic.next? (.step t) = some r'.traffic := same ▸ step
    refine h.toGrounded.of_next hs advances (by simp) fun u i stepped inserts => ?_
    obtain rfl := TrafficEvent.step.inj stepped
    exact absurd (Option.some.inj (turn.symm.trans inserts)) (idle i)
  have looks := Engine.looks_step h.sound.engine.toCoherent h.registered looking going
  subst settled
  cases looks with
  | holds | ends => exact ⟨grounded rfl, h.plain, ⟨place, rfl, held'⟩, yielded⟩
  | turns nothing =>
    refine ⟨grounded rfl, h.plain, ⟨place, ?_, held'⟩, yielded⟩
    exact (if_pos searching).mpr ⟨_, calls ▸ FinMap.get?_insert_self .., .inr ⟨nothing, rfl⟩⟩
  | @reads page nothing locked inside tuples =>
    refine ⟨grounded rfl, h.plain, ⟨⟨place.nextPage + 1, page.tuples⟩, ?_, ?_⟩, yielded⟩
    · exact (if_pos searching).mpr ⟨_, calls ▸ FinMap.get?_insert_self .., .inl rfl⟩
    · intro tuple mem
      obtain ⟨slot, here⟩ :=
        Engine.inMemory_of_looking h.sound.engine.toCoherent looking going mem
      exact (grounded rfl).met rfl (engine.symm ▸ here)
  | fails at_page =>
    subst at_page
    exact ⟨grounded rfl, h.plain, ⟨place, rfl, held'⟩, yielded⟩
  | waits =>
    refine ⟨grounded rfl, h.plain, ⟨place, ?_, held'⟩, yielded⟩
    exact (if_pos searching).mpr ⟨call, calls ▸ turn, looking⟩

/-- Whatever happens, what the scan holds and has yielded has been met. -/
theorem Traced.next (h : Traced e t f es r) (hs : r.next? t ev = some r') :
    Traced e t f (es ++ [ev]) r' := by
  obtain ⟨place, stands, held⟩ := h.holds
  have held' : ∀ tuple ∈ place.buffered, Met e t f (es ++ [ev]) tuple :=
    fun tuple mem => (held tuple mem).snoc ev
  have yielded : ∀ tuple, .ok tuple ∈ r.yielded → Met e t f (es ++ [ev]) tuple :=
    fun tuple mem => (h.yielded tuple mem).snoc ev
  have happens := hs
  cases ev with
  | traffic inner =>
    rw [next?, Option.ite_none_left_eq_some] at hs
    obtain ⟨other, hs⟩ := hs
    obtain ⟨s', step, rfl⟩ := Option.map_eq_some_iff.mp hs
    have grounded := h.toGrounded.of_next happens step (fun _ _ _ _ => rfl) fun _ _ _ _ => rfl
    refine ⟨grounded, h.plain, ⟨place, ?_, held'⟩, yielded⟩
    by_cases searching : r.searching = true
    · rw [StandsAt, if_pos searching] at stands
      obtain ⟨c, turn, looking⟩ := stands
      rw [searching, Bool.true_and, Bool.not_eq_true] at other
      exact (if_pos searching).mpr ⟨c, Traffic.get?_of_next turn other step, looking⟩
    · rw [StandsAt, if_neg searching] at stands
      exact (if_neg searching).mpr stands
  | reopen =>
    rw [next?, Option.ite_none_left_eq_some] at hs
    obtain ⟨idle, hs⟩ := hs
    obtain rfl := Option.some.inj hs
    rw [StandsAt, if_neg idle] at stands
    refine ⟨h.toGrounded.of_traffic_eq happens rfl, h.plain, ⟨⟨0, []⟩, ?_, by simp⟩, by simp⟩
    refine (if_neg idle).mpr ?_
    rw [stands]
    rfl
  | search =>
    rw [next?, Option.ite_none_left_eq_some] at hs
    obtain ⟨idle, hs⟩ := hs
    obtain ⟨s', step, rfl⟩ := Option.map_eq_some_iff.mp hs
    rw [StandsAt, if_neg idle] at stands
    have grounded := h.toGrounded.of_next happens step (by simp) (by simp)
    refine ⟨grounded, h.plain, ⟨place, ?_, held'⟩, yielded⟩
    refine (if_pos rfl).mpr ⟨.advance r.scan.cursor, ?_, .inl (congrArg Call.advance stands)⟩
    cases Traffic.next_of_next? step with
    | start _ _ => exact FinMap.get?_insert_self ..
  | step =>
    rw [next?, Option.ite_none_right_eq_some] at hs
    obtain ⟨searching, hs⟩ := hs
    obtain ⟨call, turn, rfl⟩ := Option.map_eq_some_iff.mp hs
    exact h.settle searching turn happens rfl
  | take =>
    rw [next?] at hs
    split at hs
    · next n first rest idle position =>
      obtain rfl := Option.some.inj hs
      have grounded := h.toGrounded.of_traffic_eq happens rfl
      rw [StandsAt, if_neg (by simp [idle])] at stands
      obtain ⟨traffic, ⟨cursor, view?⟩, searching, taken, ended⟩ := r
      obtain rfl : view? = none := h.plain
      obtain rfl : searching = false := idle
      obtain rfl : cursor = ⟨f, some place⟩ := stands
      obtain rfl : place = ⟨n, first :: rest⟩ := Option.some.inj position
      refine ⟨grounded, rfl, ⟨⟨n, rest⟩, rfl, fun tuple mem => held' tuple (.tail _ mem)⟩, ?_⟩
      -- the tuple that was held is now yielded
      intro tuple mem
      rcases List.mem_append.mp mem with old | new
      · exact yielded tuple old
      · obtain rfl := Except.ok.inj (List.mem_singleton.mp new)
        exact held' _ (.head _)
    · cases hs

/-- What the scan holds and has yielded has been met, in every run. -/
theorem traced_run (fresh : e.Fresh) (found : e.catalog.file? f.id = some f)
    (h : (start e f none).run t es = some r) : Traced e t f es r :=
  runEvents_history_induction (motive := Traced e t f) (fun _ hs traced => traced.next hs) h
    (traced_start fresh found)

/-- **The columns of what a scan yields.** Whatever transactions do meanwhile, a tuple that a scan of a
table yields has the column types of the table. Its column names are those of the table, or those with
which it was inserted; the latter only if it had stood in memory ever since when the scan met it. So if
all tuples that are inserted into the table have its column names, all that are yielded have them. -/
theorem schema_of_yielded (fresh : e.Fresh) (found : e.catalog.file? f.id = some f)
    (h : (start e f none).run t es = some r) (mem : .ok tuple ∈ r.yielded) :
    tuple.schema.types = f.schema.types ∧ Met e t f es tuple ∧
      ((∀ u row, .traffic (.start u (.insert f.id row)) ∈ es → row.schema = f.schema) →
        tuple.schema = f.schema) := by
  obtain ⟨done, id, pre, table, told, since⟩ := (traced_run fresh found h).yielded tuple mem
  refine ⟨?types, ⟨done, id, pre, table, told, since⟩, fun named => ?names⟩
  all_goals obtain ⟨earlier, later, rfl, origin, stands⟩ := since
  case types =>
    obtain ⟨mid, ran, here⟩ := stands [] (List.nil_prefix ..)
    have traced := traced_run fresh found ran
    exact (here.spec traced.sound.engine.toCoherent (table ▸ traced.registered)).2
  case names =>
    rcases origin with columns | ⟨before, u, mid, i, rfl, -, -, asked, rfl⟩
    · exact columns
    · refine named u i.tuple (pre.subset ?_)
      exact List.mem_append_left _ (List.mem_append_left _ asked)

/-- Columns of one number, under another name than that of `numbers`. -/
def renamedColumns : Schema := ⟨[⟨"m", .int⟩]⟩

/-- A number is inserted with these columns and committed, and a scan goes through the page. -/
def relabelled : List ReaderEvent :=
  others (.start ⟨1⟩ (.insert numbers.id ⟨renamedColumns, [.int 7], none⟩)
      :: List.replicate 5 (.step ⟨1⟩) ++ [.complete ⟨1⟩ true ∅])
    ++ turning 1

/-- The page leaves memory, as another one comes, and the scan goes through the table again. -/
def returning : List ReaderEvent :=
  others ([.complete ⟨2⟩ true ∅] ++ Traffic.inserting ⟨3⟩ 8 4 ++ [.complete ⟨3⟩ true ∅]
      ++ Traffic.inserting ⟨4⟩ 9 6 ++ [.complete ⟨4⟩ true ∅])
    ++ [.reopen] ++ turning 1

/-- The record of the number, with columns. -/
def sevenAs (columns : Schema) : Tuple :=
  ⟨columns, [.int 7], some ⟨⟨numbers.id, 0⟩, 0⟩⟩

theorem yielded_relabelled :
    ((start .sample numbers none).run ⟨2⟩ relabelled).map Reader.yielded
      = some [.ok (sevenAs renamedColumns)] := by decide +kernel

theorem yielded_returning :
    ((start .sample numbers none).run ⟨2⟩ (relabelled ++ returning)).map Reader.yielded
      = some [.ok (sevenAs numbers.schema)] := by decide +kernel

/-- The tuple that is yielded under the name with which it was inserted had stood in memory since then. -/
theorem schema_of_yielded_relabelled : ∃ r, (start .sample numbers none).run ⟨2⟩ relabelled = some r ∧
    .ok (sevenAs renamedColumns) ∈ r.yielded ∧
    (sevenAs renamedColumns).schema.types = numbers.schema.types ∧
    Met .sample ⟨2⟩ numbers relabelled (sevenAs renamedColumns) := by
  obtain ⟨r, ran, yielded⟩ := Option.map_eq_some_iff.mp yielded_relabelled
  have mem : .ok (sevenAs renamedColumns) ∈ r.yielded := yielded ▸ List.mem_singleton_self _
  obtain ⟨types, met, -⟩ := schema_of_yielded Engine.fresh_sample rfl ran mem
  exact ⟨r, ran, mem, types, met⟩

/-- **A column name that comes and goes.** The same row is yielded with the column name with which it was
inserted, and not that of its table, while its page is in memory, and with that of its table when the page
has been read again. -/
theorem yielded_renamed : ∃ r r', (start .sample numbers none).run ⟨2⟩ relabelled = some r ∧
    r.yielded = [.ok (sevenAs renamedColumns)] ∧ renamedColumns ≠ numbers.schema ∧
    (start .sample numbers none).run ⟨2⟩ (relabelled ++ returning) = some r' ∧
    r'.yielded = [.ok (sevenAs numbers.schema)] := by
  obtain ⟨r, ran, yielded⟩ := Option.map_eq_some_iff.mp yielded_relabelled
  obtain ⟨r', ran', yielded'⟩ := Option.map_eq_some_iff.mp yielded_returning
  exact ⟨r, r', ran, yielded, by decide, ran', yielded'⟩

end Reader

end RowStore
