import RowStore.Database
import RowStore.Proofs.Engine.Alike
import RowStore.Proofs.Traffic.Sound

/-! # The capacity of the pool
Transactions that work through a database cannot tell how many pages the pool has room for, as long as
there is room at all. Two engines that differ in their capacities keep different pages in memory, but
they are alike: what each event comes to, the files and the locks are the same. Steps keep this
(`alike_step`), and so do all events (`Twins.after`). Main statement: `capacity_unobservable`. -/

namespace RowStore

/-- What a transaction learns from a reply, which is not in which frame a page stands. -/
def Reply.unframed : Reply → Reply
  | fetched ref => fetched { ref with frame := 0 }
  | inserted id ref => inserted id { ref with frame := 0 }
  | deleted ref => deleted { ref with frame := 0 }
  | reply => reply

/-- What a transaction learns from a step. -/
def Progress.unframed : Progress → Progress
  | done (.ok reply) => done (.ok reply.unframed)
  | progress => progress

/-- Whether the tuple that a call inserts has the columns of its table. -/
def Call.Fits (c : Catalog) : Call → Prop
  | .insert table tuple => ∀ f, c.file? table = some f → tuple.schema = f.schema
  | .insertInto i => i.tuple.schema = i.file.schema
  | _ => True

namespace Engine

variable {e e' e₁ e₁' : Engine} {t : TxnId} {p : PageId} {permission : Permission}
  {ref ref' : PageRef} {page : Page} {c : Call} {progress progress' : Progress}

/-! ## Steps -/

/-- What comes after the same page was fetched from engines that are alike: nothing is changed, or the
page is, in the same way. -/
inductive UsesAlike (e e' : Engine) (t : TxnId) (ref ref' : PageRef) (page : Page) :
    Engine × Progress → Engine × Progress → Prop where
  | quiet {progress progress' : Progress} (same : progress'.unframed = progress.unframed)
      (fits : ∀ next, progress = .goesOn next → next.Fits e.catalog) :
    UsesAlike e e' t ref ref' page (e, progress) (e', progress')
  | changes {new : Page} {reply reply' : Reply} (id : new.id = page.id) (tidy : new.Tidy)
      (same : reply'.unframed = reply.unframed) :
    UsesAlike e e' t ref ref' page (e.changed t ref new, .done (.ok reply))
      (e'.changed t ref' new, .done (.ok reply'))

section Uses

variable (holding : e.Holding p .readWrite ref page) (holding' : e'.Holding p .readWrite ref' page)

include holding holding'

/-- A change that is noted is made to the page in memory. -/
theorem usesAlike_endChange {new : Page} (id : new.id = page.id) (tidy : new.Tidy) {reply reply' : Reply}
    (same : reply'.unframed = reply.unframed) : UsesAlike e e' t ref ref' page
      ((e.setPage ref (new.mark (some t))).endChange t ref true reply)
      ((e'.setPage ref' (new.mark (some t))).endChange t ref' true reply') := by
  have named : new.id = p := id.trans holding.id
  rw [endChange_of_resident holding.coherent.pool (named ▸ holding.frame) holding.permission,
    endChange_of_resident holding'.coherent.pool (named ▸ holding'.frame) holding'.permission]
  exact .changes id tidy same

theorem usesAlike_place {i : Insertion} (sound : i.Sound e) (fits : i.tuple.schema = i.file.schema)
    (table : p.table = i.file.id) :
    UsesAlike e e' t ref ref' page (e.place t i ref page) (e'.place t i ref' page) := by
  have layout := (holding.coherent.spec_of_current? (table ▸ sound.registered)
    (current?_of_resident holding.resident)).2.2
  rw [place, place, sound.noted]
  cases inserted : page.insert i.tuple with
  | error err => exact .quiet rfl (by simp)
  | ok placed =>
    obtain ⟨r, new⟩ := placed
    obtain ⟨-, -, -, id, -⟩ := Page.insert_cases inserted
    have tidy := holding.neat p page holding.resident
    have columns : i.tuple.schema = page.layout.schema := by rw [fits, layout, HeapFile.schema]
    refine usesAlike_endChange holding holding' id (tidy.of_insert inserted columns) ?_
    rw [Reply.unframed, Reply.unframed, holding.permission, holding'.permission]

theorem usesAlike_delete (r : RecordId) : UsesAlike e e' t ref ref' page
    (match page.delete r with
      | .error err => (e, .done (.error (.record err)))
      | .ok page => (e.setPage ref (page.mark (some t))).endChange t ref true (.deleted ref))
    (match page.delete r with
      | .error err => (e', .done (.error (.record err)))
      | .ok page => (e'.setPage ref' (page.mark (some t))).endChange t ref' true (.deleted ref')) := by
  cases deleted : page.delete r with
  | error err => exact .quiet rfl nofun
  | ok new =>
    obtain ⟨-, -, id, -⟩ := Page.delete_cases deleted
    have tidy := holding.neat p page holding.resident
    refine usesAlike_endChange holding holding' id (tidy.of_delete deleted) ?_
    rw [Reply.unframed, Reply.unframed, holding.permission, holding'.permission]

end Uses

/-- A step that asks for a page does the same with it on engines that are alike. -/
theorem usesAlike_of_asks (t : TxnId) (asks : c.asks? = some (p, permission)) :
    ∃ use, (∀ e : Engine, e.step t c = e.withPage t p permission use) ∧
      ∀ {e e' : Engine} {ref ref' : PageRef} {page : Page}, e.Holding p permission ref page →
        e'.Holding p permission ref' page → c.Sound e → c.Fits e.catalog →
        e.UsesAlike e' t ref ref' page (use e ref page) (use e' ref' page) := by
  cases c with
  | lock | insert | delete | deleteFrom | advance => exact nomatch asks
  | fetch q permission' =>
    obtain ⟨rfl, rfl⟩ := Prod.mk.inj (Option.some.inj asks)
    refine ⟨_, fun _ => rfl, fun holding holding' _ _ => .quiet ?_ nofun⟩
    simp only [Progress.unframed, Reply.unframed, holding.permission, holding'.permission]
  | turn cursor n =>
    obtain ⟨rfl, rfl⟩ := Prod.mk.inj (Option.some.inj asks)
    refine ⟨_, fun _ => rfl, fun _ _ _ _ => .quiet rfl fun next eq => ?_⟩
    obtain rfl := Progress.goesOn.inj eq
    trivial
  | deleteAt r noted =>
    obtain ⟨rfl, rfl⟩ := Prod.mk.inj (Option.some.inj asks)
    refine ⟨_, fun _ => rfl, fun holding holding' sound _ => ?_⟩
    obtain rfl : noted = true := sound
    exact usesAlike_delete holding holding' r
  | insertInto i =>
    obtain ⟨file, tuple, noted, stage⟩ := i
    cases stage with
    | check | grow => exact nomatch asks
    | probe n numPages =>
      rw [Call.asks?, Option.ite_none_right_eq_some] at asks
      obtain ⟨inside, asks⟩ := asks
      obtain ⟨rfl, rfl⟩ := Prod.mk.inj (Option.some.inj asks)
      refine ⟨_, fun _ => if_pos inside, fun _ _ _ fits => .quiet rfl fun next eq => ?_⟩
      obtain rfl := Progress.goesOn.inj eq
      exact fits
    | fill n numPages =>
      obtain ⟨rfl, rfl⟩ := Prod.mk.inj (Option.some.inj asks)
      refine ⟨_, fun _ => rfl, fun {e e' ref ref' page} holding holding' sound fits => ?_⟩
      dsimp only
      split
      · refine .quiet rfl fun next eq => ?_
        obtain rfl := Progress.goesOn.inj eq
        exact fits
      · exact usesAlike_place holding holding' sound fits rfl
    | settle n =>
      obtain ⟨rfl, rfl⟩ := Prod.mk.inj (Option.some.inj asks)
      refine ⟨_, fun _ => rfl, fun {e e' ref ref' page} holding holding' sound fits => ?_⟩
      dsimp only
      split
      · refine .quiet rfl fun next eq => ?_
        obtain rfl := Progress.goesOn.inj eq
        exact fits
      · exact usesAlike_place holding holding' sound fits rfl

/-- What a step leads to on engines that are alike. -/
structure StepsAlike (e₁ e₁' : Engine) (progress progress' : Progress) : Prop where
  alike : e₁.Alike e₁'
  neat : e₁.Neat
  neat' : e₁'.Neat
  same : progress'.unframed = progress.unframed
  fits : ∀ next, progress = .goesOn next → next.Fits e₁.catalog

/-- A step that asks for a page finds the same page in engines that are alike, unless one of them has no
room for it. -/
theorem stepsAlike_of_asks (h : e.Twins e') (hc : c.Sound e) (fits : c.Fits e.catalog)
    (asks : c.asks? = some (p, permission)) (hs : e.step t c = (e₁, progress))
    (hs' : e'.step t c = (e₁', progress')) (roomy : progress ≠ .done (.error .poolFull))
    (roomy' : progress' ≠ .done (.error .poolFull)) : StepsAlike e₁ e₁' progress progress' := by
  obtain ⟨use, eq, uses⟩ := usesAlike_of_asks t asks
  rcases hg : e.getPage t p permission with ⟨e₂, fetch⟩
  rcases hg' : e'.getPage t p permission with ⟨e₂', fetch'⟩
  obtain ⟨alike, fetched⟩ := alike_getPage h.toAlike h.sound.toCoherent h.sound'.toCoherent h.neat
    h.neat' hg hg'
  have neat := (serves_getPage h.sound.toCoherent h.neat hg).2.2.2
  have neat' := (serves_getPage h.sound'.toCoherent h.neat' hg').2.2.2
  rw [eq, withPage, hg] at hs
  rw [eq, withPage, hg'] at hs'
  cases fetched with
  | full => exact absurd (Prod.mk.inj hs).2.symm roomy
  | full' => exact absurd (Prod.mk.inj hs').2.symm roomy'
  | waiting =>
    obtain ⟨rfl, rfl⟩ := Prod.mk.inj hs
    obtain ⟨rfl, rfl⟩ := Prod.mk.inj hs'
    exact ⟨alike, neat, neat', rfl, by simp⟩
  | failed err =>
    obtain ⟨rfl, rfl⟩ := Prod.mk.inj hs
    obtain ⟨rfl, rfl⟩ := Prod.mk.inj hs'
    exact ⟨alike, neat, neat', rfl, by simp⟩
  | @fetched ref ref' page holding holding' =>
    have fetches := (fetches_getPage h.sound.toCoherent hg).1
    have used := uses holding holding' (hc.extends (.of_disk fetches.disk fetches.catalog))
      (fetches.catalog ▸ fits)
    simp only [holding.page] at hs
    simp only [holding'.page] at hs'
    rw [hs, hs'] at used
    cases used with
    | quiet same fits => exact ⟨alike, neat, neat', same, fits⟩
    | changes id tidy same =>
      have named := id.trans holding.id
      have frame := named ▸ holding.frame
      have frame' := named ▸ holding'.frame
      exact ⟨alike_changed alike holding.coherent holding'.coherent frame frame',
        neat_changed holding.coherent neat frame tidy, neat_changed holding'.coherent neat' frame' tidy,
        congrArg (Progress.done ∘ .ok) same, by simp⟩

theorem StepsAlike.still (h : e.Twins e')
    (fits : ∀ next, progress = .goesOn next → next.Fits e.catalog) :
    StepsAlike e e' progress progress :=
  ⟨h.toAlike, h.neat, h.neat', rfl, fits⟩

/-- An insertion that asks for no page goes by the length of its file. -/
theorem stepsAlike_insertion_of_not_asks {i : Insertion} (h : e.Twins e') (hi : i.Sound e)
    (fits : i.tuple.schema = i.file.schema) (silent : (Call.insertInto i).asks? = none)
    (hs : e.step t (.insertInto i) = (e₁, progress))
    (hs' : e'.step t (.insertInto i) = (e₁', progress')) : StepsAlike e₁ e₁' progress progress' := by
  obtain ⟨file, tuple, noted, stage⟩ := i
  have onwards : ∀ stage' next, Progress.goesOn (.insertInto ⟨file, tuple, noted, stage'⟩)
      = .goesOn next → next.Fits e.catalog := by
    intro stage' next eq
    obtain rfl := Progress.goesOn.inj eq
    exact fits
  cases stage with
  | fill | settle => exact (Option.some_ne_none _ silent).elim
  | check =>
    by_cases compatible : tuple.schema.compatible file.schema = true
    · simp only [step, stepInsert, if_pos compatible] at hs
      simp only [step, stepInsert, if_pos compatible, h.numPages] at hs'
      obtain ⟨rfl, rfl⟩ := Prod.mk.inj hs
      obtain ⟨rfl, rfl⟩ := Prod.mk.inj hs'
      exact .still h (onwards _)
    · simp only [step, stepInsert, if_neg compatible] at hs hs'
      obtain ⟨rfl, rfl⟩ := Prod.mk.inj hs
      obtain ⟨rfl, rfl⟩ := Prod.mk.inj hs'
      exact .still h (by simp)
  | probe n numPages =>
    have passed : ¬ n < numPages := by
      intro lt
      simp only [Call.asks?, if_pos lt, reduceCtorEq] at silent
    simp only [step, stepInsert, if_neg passed] at hs hs'
    obtain ⟨rfl, rfl⟩ := Prod.mk.inj hs
    obtain ⟨rfl, rfl⟩ := Prod.mk.inj hs'
    exact .still h (onwards _)
  | grow =>
    obtain ⟨alike, same⟩ := alike_allocate h.toAlike h.sound.toCoherent h.sound'.toCoherent
      hi.registered hi.stage
    obtain ⟨rfl, rfl⟩ := Prod.mk.inj hs
    obtain ⟨rfl, rfl⟩ := Prod.mk.inj hs'
    exact ⟨alike, h.neat, h.neat', congrArg (fun p : PageId =>
      Progress.goesOn (.insertInto ⟨file, tuple, noted, .settle p.number⟩)) same, onwards _⟩

/-- A step that asks for no page goes by the files and the tables. -/
theorem stepsAlike_of_not_asks (h : e.Twins e') (hc : c.Sound e) (fits : c.Fits e.catalog)
    (silent : c.asks? = none) (hs : e.step t c = (e₁, progress))
    (hs' : e'.step t c = (e₁', progress')) : StepsAlike e₁ e₁' progress progress' := by
  cases c with
  | fetch | turn | deleteAt => exact (Option.some_ne_none _ silent).elim
  | lock => exact hc.elim
  | insertInto i => exact stepsAlike_insertion_of_not_asks h hc fits silent hs hs'
  | insert table tuple =>
    rw [step] at hs
    rw [step, h.file] at hs'
    split at hs
    · next file found =>
      rw [found] at hs'
      obtain ⟨rfl, rfl⟩ := Prod.mk.inj hs
      obtain ⟨rfl, rfl⟩ := Prod.mk.inj hs'
      refine .still h fun next eq => ?_
      obtain rfl := Progress.goesOn.inj eq
      exact fits file (file_eq_ok.mp found)
    · next missing =>
      rw [missing] at hs'
      obtain ⟨rfl, rfl⟩ := Prod.mk.inj hs
      obtain ⟨rfl, rfl⟩ := Prod.mk.inj hs'
      exact .still h (by simp)
  | delete id? =>
    cases id? with
    | none =>
      obtain ⟨rfl, rfl⟩ := Prod.mk.inj hs
      obtain ⟨rfl, rfl⟩ := Prod.mk.inj hs'
      exact .still h (by simp)
    | some id =>
      rw [step] at hs
      rw [step, h.file] at hs'
      split at hs
      · next found =>
        rw [found] at hs'
        obtain ⟨rfl, rfl⟩ := Prod.mk.inj hs
        obtain ⟨rfl, rfl⟩ := Prod.mk.inj hs'
        refine .still h fun next eq => ?_
        obtain rfl := Progress.goesOn.inj eq
        trivial
      · next missing =>
        rw [missing] at hs'
        obtain ⟨rfl, rfl⟩ := Prod.mk.inj hs
        obtain ⟨rfl, rfl⟩ := Prod.mk.inj hs'
        exact .still h (by simp)
  | deleteFrom f id? noted =>
    have same : e'.checkDelete f id? noted = e.checkDelete f id? noted := by
      simp only [checkDelete, h.numPages]
    obtain ⟨rfl, rfl⟩ := Prod.mk.inj hs
    obtain ⟨rfl, rfl⟩ := Prod.mk.inj hs'
    rw [same]
    refine .still h fun next eq => ?_
    cases id? with
    | none => cases eq
    | some id =>
      rw [checkDelete] at eq
      split at eq
      · obtain rfl := Progress.goesOn.inj eq
        trivial
      · cases eq
  | advance cursor =>
    have same : e'.checkCursor cursor = e.checkCursor cursor := by
      simp only [checkCursor, h.numPages]
    obtain ⟨rfl, rfl⟩ := Prod.mk.inj hs
    obtain ⟨rfl, rfl⟩ := Prod.mk.inj hs'
    rw [same]
    refine .still h fun next eq => ?_
    rw [checkCursor] at eq
    split at eq
    · cases eq
    · cases eq
    · split at eq
      · obtain rfl := Progress.goesOn.inj eq
        trivial
      · cases eq

/-- **A step on engines that are alike.** Its transaction learns the same, and the engines stay alike,
unless one of them has no room for a page. -/
theorem alike_step (h : e.Twins e') (hc : c.Sound e) (fits : c.Fits e.catalog)
    (hs : e.step t c = (e₁, progress)) (hs' : e'.step t c = (e₁', progress'))
    (roomy : progress ≠ .done (.error .poolFull)) (roomy' : progress' ≠ .done (.error .poolFull)) :
    StepsAlike e₁ e₁' progress progress' := by
  cases asks : c.asks? with
  | some asked => exact stepsAlike_of_asks h hc fits asks hs hs' roomy roomy'
  | none => exact stepsAlike_of_not_asks h hc fits asks hs hs'

/-- What is asked of an engine through its database: to insert a record into a table, to delete one, or
to go on with a scan. -/
inductive Requests (e : Engine) : Call → Prop where
  | insert {table : TableId} {values : List Value} {call : Call}
    (h : e.insertCall table values = .ok call) : e.Requests call
  | delete (id? : Option RecordId) : e.Requests (.delete id?)
  | scan (cursor : Cursor) : e.Requests (.advance cursor)

theorem Requests.fits (h : e.Requests c) : c.Fits e.catalog := by
  cases h with
  | delete | scan => trivial
  | @insert table values _ h =>
    obtain ⟨schema, found, h⟩ := bind_eq_ok.mp h
    split at h
    · next tuple made =>
      obtain rfl := Except.ok.inj h
      intro f hf
      obtain ⟨entry, here, rfl⟩ := Option.map_eq_some_iff.mp hf
      have columns : e.schema table = .ok entry.file.schema := by
        simp [Engine.schema, CatalogState.schema, CatalogState.entry, here]
      rw [(Tuple.spec_of_new made).1, Except.ok.inj (found.symm.trans columns)]
    · cases h

/-- An engine with a pool of another capacity, and nothing in memory. -/
def withCapacity (e : Engine) (capacity : Nat) : Engine :=
  { e with config.poolPages := capacity, pool := .new capacity }

theorem Fresh.withCapacity (h : e.Fresh) (capacity : Nat) : (e.withCapacity capacity).Fresh :=
  ⟨h.storable, ⟨capacity, rfl⟩, h.locks⟩

theorem twins_withCapacity (h : e.Fresh) (capacity capacity' : Nat) :
    (e.withCapacity capacity).Twins (e.withCapacity capacity') := by
  refine ⟨⟨rfl, rfl, rfl, rfl, current?_congr rfl rfl rfl⟩, (h.withCapacity _).sound,
    (h.withCapacity _).sound, ?_, ?_⟩
  · intro p page here
    rw [(h.withCapacity _).page?_eq_none] at here
    cases here
  · intro p page here
    rw [(h.withCapacity _).page?_eq_none] at here
    cases here

end Engine

/-! ## Runs -/

/-- What an event comes to, as far as the transactions learn. -/
inductive Sight where
  /-- It cannot happen now. -/
  | refused
  | begun
  | stepped (progress : Progress)
  | ended (result : Except FileError Unit)

/-- What is seen of an event: what it comes to, and the files and the locks after it. The locks tell who
holds and who waits for which page, and which pages have been released to those who wait. -/
structure Observation where
  sight : Sight
  disk : FileTree
  locks : LockTable

/-- Whether the pool has had no room for a page. -/
def Sight.isFull : Sight → Bool
  | stepped (.done (.error .poolFull)) => true
  | _ => false

namespace Traffic

/-- What an event comes to. -/
def sight (s : Traffic) : TrafficEvent → Sight
  | .start t call => if (s.next? (.start t call)).isSome then .begun else .refused
  | .step t =>
    match s.calls.get? t with
    | some call => .stepped (s.engine.step t call).2.unframed
    | none => .refused
  | .complete t commit faults =>
    if s.calls.contains t then .refused else .ended (s.engine.complete t commit faults).2

/-- What an event leads to; one that cannot happen changes nothing. -/
def after (s : Traffic) (ev : TrafficEvent) : Traffic :=
  (s.next? ev).getD s

/-- What is seen of events one after another. -/
def observations : Traffic → List TrafficEvent → List Observation
  | _, [] => []
  | s, ev :: es => ⟨s.sight ev, (s.after ev).engine.disk, (s.after ev).engine.locks⟩ ::
      (s.after ev).observations es

/-- The same transactions are in the middle of the same calls, on engines that are alike. -/
structure Twins (first : Rows) (c : Catalog) (s s' : Traffic) : Prop where
  sound : s.Sound first
  sound' : s'.Sound first
  engine : s.engine.Twins s'.engine
  calls : s'.calls = s.calls
  catalog : s.engine.catalog = c
  fits : ∀ t call, s.calls.get? t = some call → call.Fits c

namespace Twins

variable {first : Rows} {c : Catalog} {s s' : Traffic} {t : TxnId} {call : Call}

/-- To ask for something needs no engine. -/
theorem start (h : Twins first c s s') (fits : call.Fits c) :
    s'.sight (.start t call) = s.sight (.start t call) ∧
      Twins first c (s.after (.start t call)) (s'.after (.start t call)) := by
  by_cases asks : (call.isRequest && !s.calls.contains t) = true
  · have next : s.next? (.start t call) = some { s with calls := s.calls.insert t call } := if_pos asks
    have next' : s'.next? (.start t call) = some { s' with calls := s.calls.insert t call } := by
      rw [next?, h.calls, if_pos asks]
    rw [sight, sight, after, after, next, next']
    refine ⟨rfl, h.sound.next next, h.sound'.next next', h.engine, rfl, h.catalog, ?_⟩
    intro u call' here
    rw [Option.getD_some, FinMap.get?_insert] at here
    split at here
    · exact Option.some.inj here ▸ fits
    · exact h.fits u call' here
  · have next : s.next? (.start t call) = none := if_neg asks
    have next' : s'.next? (.start t call) = none := by
      rw [next?, h.calls, if_neg asks]
    rw [sight, sight, after, after, next, next']
    exact ⟨rfl, h⟩

/-- Where a call goes on is told by what its transaction learns. -/
theorem follow_unframed (calls : FinMap TxnId Call) (t : TxnId) (progress : Progress) :
    follow calls t progress.unframed = follow calls t progress := by
  cases progress with
  | goesOn next => rfl
  | waits p => rfl
  | done result => cases result <;> rfl

/-- Whoever has found no room learns so. -/
theorem ne_full {progress : Progress} (h : (Sight.stepped progress.unframed).isFull = false) :
    progress ≠ .done (.error .poolFull) := by
  rintro rfl
  cases h

/-- The same step is taken by the same transaction, if any. -/
theorem step (h : Twins first c s s') (roomy : (s.sight (.step t)).isFull = false)
    (roomy' : (s'.sight (.step t)).isFull = false) : s'.sight (.step t) = s.sight (.step t) ∧
      Twins first c (s.after (.step t)) (s'.after (.step t)) := by
  cases turn : s.calls.get? t with
  | none =>
    have next : s.next? (.step t) = none := by rw [next?, turn, Option.map_none]
    have next' : s'.next? (.step t) = none := by rw [next?, h.calls, turn, Option.map_none]
    rw [sight, sight, h.calls, turn, after, after, next, next']
    exact ⟨rfl, h⟩
  | some call =>
    have next : s.next? (.step t) = some (s.advance t call) := by
      rw [next?, turn, Option.map_some]
    have next' : s'.next? (.step t) = some (s'.advance t call) := by
      rw [next?, h.calls, turn, Option.map_some]
    have sound := h.sound.next next
    have sound' := h.sound'.next next'
    rcases hs : s.engine.step t call with ⟨e, progress⟩
    rcases hs' : s'.engine.step t call with ⟨e', progress'⟩
    simp only [sight, h.calls, turn, hs, hs'] at roomy roomy' ⊢
    have steps := Engine.alike_step h.engine (h.sound.calls t call turn)
      (h.catalog ▸ h.fits t call turn) hs hs' (ne_full roomy) (ne_full roomy')
    have extends_ := (Engine.steps_step h.sound.engine (h.sound.calls t call turn) hs).1.files
    rw [after, after, next, next', Option.getD_some, Option.getD_some]
    simp only [Traffic.advance, hs, hs'] at sound sound' ⊢
    refine ⟨congrArg Sight.stepped steps.same, sound, sound',
      ⟨steps.alike, sound.engine, sound'.engine, steps.neat, steps.neat'⟩, ?calls,
      extends_.catalog.trans h.catalog, ?fits⟩
    case calls =>
      dsimp only
      rw [← follow_unframed, steps.same, follow_unframed, h.calls]
    case fits =>
      intro u call' here
      cases progress with
      | waits p => exact h.fits u call' here
      | done result =>
        rw [follow, FinMap.get?_erase, Option.ite_none_left_eq_some] at here
        exact h.fits u call' here.2
      | goesOn onwards =>
        rw [follow, FinMap.get?_insert] at here
        split at here
        · obtain rfl := Option.some.inj here
          have catalog : e.catalog = c := extends_.catalog.trans h.catalog
          exact catalog ▸ steps.fits _ rfl
        · exact h.fits u call' here

/-- The same transactions can end, and end in the same way. -/
theorem complete (h : Twins first c s s') (t : TxnId) (commit : Bool) (faults : Faults) :
    s'.sight (.complete t commit faults) = s.sight (.complete t commit faults) ∧
      Twins first c (s.after (.complete t commit faults)) (s'.after (.complete t commit faults)) := by
  by_cases busy : s.calls.contains t = true
  · have next : s.next? (.complete t commit faults) = none := if_pos busy
    have next' : s'.next? (.complete t commit faults) = none := by rw [next?, h.calls, if_pos busy]
    rw [sight, sight, h.calls, if_pos busy, if_pos busy, after, after, next, next']
    exact ⟨rfl, h⟩
  · have next : s.next? (.complete t commit faults) = some (s.finish t commit faults) :=
      if_neg busy
    have next' : s'.next? (.complete t commit faults) = some (s'.finish t commit faults) := by
      rw [next?, h.calls, if_neg busy]
    have sound := h.sound.next next
    have sound' := h.sound'.next next'
    obtain ⟨alike, neat, neat', same⟩ := Engine.alike_complete h.engine t commit faults
    have ended : s.engine.complete t commit faults
        = ((s.engine.complete t commit faults).1, (s.engine.complete t commit faults).2) := rfl
    obtain ⟨written, torn?, completes, -⟩ := Engine.completes_complete h.sound.engine ended
    rw [sight, sight, h.calls, if_neg busy, if_neg busy, after, after, next, next', Option.getD_some,
      Option.getD_some]
    exact ⟨congrArg Sight.ended same, sound, sound', ⟨alike, sound.engine, sound'.engine, neat, neat'⟩,
      h.calls, completes.catalog.trans h.catalog, h.fits⟩

/-- Every event comes to the same, and leaves the engines alike. -/
theorem after (h : Twins first c s s') {ev : TrafficEvent}
    (fits : ∀ t call, ev = .start t call → call.Fits c) (roomy : (s.sight ev).isFull = false)
    (roomy' : (s'.sight ev).isFull = false) :
    s'.sight ev = s.sight ev ∧ Twins first c (s.after ev) (s'.after ev) := by
  cases ev with
  | start t call => exact h.start (fits t call rfl)
  | step t => exact h.step roomy roomy'
  | complete t commit faults => exact h.complete t commit faults

/-- The same is seen of all events. -/
theorem observations {es : List TrafficEvent} (h : Twins first c s s')
    (fits : ∀ t call, .start t call ∈ es → call.Fits c)
    (roomy : ∀ o ∈ s.observations es, o.sight.isFull = false)
    (roomy' : ∀ o ∈ s'.observations es, o.sight.isFull = false) :
    s'.observations es = s.observations es := by
  induction es generalizing s s' with
  | nil => rfl
  | cons ev es ih =>
    rw [Traffic.observations] at roomy roomy' ⊢
    obtain ⟨same, next⟩ := h.after (fun t call eq => fits t call (eq ▸ .head _)) (roomy _ (.head _))
      (roomy' _ (.head _))
    have rest := ih next (fun t call mem => fits t call (.tail _ mem))
      (fun o mem => roomy o (.tail _ mem)) (fun o mem => roomy' o (.tail _ mem))
    rw [Traffic.observations, same, next.engine.disk, next.engine.locks, rest]

end Twins

/-- **The capacity of the pool cannot be observed.** Transactions insert, delete and scan through a
database, wait for each other, and are committed and aborted. If the pool never runs out of room, with
one capacity and with another, then each event comes to the same with both, and the files and the locks
are the same after it, also where a commit fails. -/
theorem capacity_unobservable {e : Engine} (fresh : e.Fresh) {es : List TrafficEvent}
    (requests : ∀ t call, .start t call ∈ es → e.Requests call) (capacity capacity' : Nat)
    (roomy : ∀ o ∈ (quiet (e.withCapacity capacity)).observations es, o.sight.isFull = false)
    (roomy' : ∀ o ∈ (quiet (e.withCapacity capacity')).observations es, o.sight.isFull = false) :
    (quiet (e.withCapacity capacity)).observations es
      = (quiet (e.withCapacity capacity')).observations es := by
  have twins : Twins e.storedRow e.catalog (quiet (e.withCapacity capacity'))
      (quiet (e.withCapacity capacity)) := by
    have stored : ∀ n, (e.withCapacity n).storedRow = e.storedRow := fun _ =>
      Engine.storedRow_congr rfl rfl
    refine ⟨stored capacity' ▸ sound_quiet (fresh.withCapacity capacity'),
      stored capacity ▸ sound_quiet (fresh.withCapacity capacity),
      Engine.twins_withCapacity fresh capacity' capacity, rfl, rfl, ?_⟩
    intro t call here
    simp [quiet] at here
  exact twins.observations (fun t call mem => (requests t call mem).fits) roomy' roomy

/-- Three numbers are inserted into the table of `Engine.sample`, the third into a second page, and then
the first page is scanned. -/
def turnover : List TrafficEvent :=
  inserting ⟨1⟩ 7 5 ++ [.complete ⟨1⟩ true ∅] ++ inserting ⟨1⟩ 8 4 ++ [.complete ⟨1⟩ true ∅] ++
    inserting ⟨2⟩ 9 6 ++ [.complete ⟨2⟩ true ∅,
      .start ⟨3⟩ (.advance (Cursor.new numbers).opened),
      .step ⟨3⟩, .step ⟨3⟩, .step ⟨3⟩]

/-- A pool of one page and a pool of two do the same, although only the second one still has the second
page in the end. -/
theorem capacity_unobservable_turnover :
    (quiet (Engine.sample.withCapacity 1)).observations turnover
      = (quiet (Engine.sample.withCapacity 2)).observations turnover ∧
    (turnover.foldl after (quiet (Engine.sample.withCapacity 1))).engine.pool.isResident
      ⟨.file ["t"], 1⟩ = false ∧
    (turnover.foldl after (quiet (Engine.sample.withCapacity 2))).engine.pool.isResident
      ⟨.file ["t"], 1⟩ = true := by
  refine ⟨capacity_unobservable Engine.fresh_sample ?_ 1 2 ?_ ?_, ?_, ?_⟩
  · intro t call mem
    have inserts : ∀ n : Int32, Engine.sample.insertCall (.file ["t"]) [.int n] =
        .ok (.insert numbers.id (numberRecord n)) := fun _ => rfl
    have asked : (call = .insert numbers.id (numberRecord 7) ∨
        call = .insert numbers.id (numberRecord 8) ∨
        call = .insert numbers.id (numberRecord 9)) ∨
        ∃ cursor, call = .advance cursor := by
      simp only [turnover, inserting, List.cons_append, List.mem_append, List.mem_cons,
        List.mem_replicate, List.not_mem_nil, TrafficEvent.start.injEq, reduceCtorEq, and_false,
        or_false, false_or] at mem
      grind
    rcases asked with (rfl | rfl | rfl) | ⟨cursor, rfl⟩
    · exact .insert (inserts 7)
    · exact .insert (inserts 8)
    · exact .insert (inserts 9)
    · exact .scan cursor
  · decide +kernel
  · decide +kernel
  · decide +kernel
  · decide +kernel

end Traffic

end RowStore
