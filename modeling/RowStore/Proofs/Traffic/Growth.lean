import RowStore.Proofs.Traffic.Isolation

/-! # When files grow
An insertion counts the pages of its file, looks into one after another, and keeps each of them locked;
so the pages that it has passed stay full until it appends one (`Searched`). But it counts them once, and
may then wait for a lock while others append pages and are committed. Main statements: `full_of_grow`,
the pages that have been counted are full when one is appended; and `grows_with_room`, a file that gets
another page although one that has come after the count has room. -/

namespace RowStore

/-- What a call is about to insert, and into which table. -/
def Call.inserts? : Call → Option (TableId × Tuple)
  | .insert table tuple => some (table, tuple)
  | .insertInto i => some (i.file.id, i.tuple)
  | _ => none

namespace Engine

variable {e e' : Engine} {t : TxnId} {f : HeapFile} {p : PageId} {page : Page} {n counted : Nat}
  {permission : Permission}

/-! ## Full pages -/

/-- Whether there is a row in every slot of a page. -/
def Crowded (e : Engine) (f : HeapFile) (n : Nat) : Prop :=
  ∀ slot < f.layout.slotCount, (e.currentRow ⟨⟨f.id, n⟩, slot⟩).isSome = true

/-- The pages with a row in every slot are those that are full. -/
theorem Coherent.crowded_iff (h : e.Coherent) (found : e.catalog.file? f.id = some f) :
    e.Crowded f n ↔ ∃ page, e.current? ⟨f.id, n⟩ = some page ∧ page.isFull = true := by
  constructor
  · intro crowded
    -- a page has at least one slot, so there is a page where there are rows
    obtain ⟨page, here⟩ : ∃ page, e.current? ⟨f.id, n⟩ = some page := by
      have first := crowded 0 f.layout.slotCount_pos
      rw [currentRow] at first
      exact Option.isSome_iff_exists.mp (Option.isSome_of_isSome_bind first)
    obtain ⟨-, sound, layout⟩ := h.spec_of_current? found here
    refine ⟨page, here, sound.isFull_iff.mpr ?_⟩
    intro slot inside
    rw [Page.slotCount, layout] at inside
    have row := crowded slot inside
    rwa [currentRow, here, Option.bind_some] at row
  · rintro ⟨page, here, full⟩ slot inside
    obtain ⟨-, sound, layout⟩ := h.spec_of_current? found here
    rw [currentRow, here, Option.bind_some]
    exact sound.isFull_iff.mp full slot (by rwa [Page.slotCount, layout])

/-- Whether a page is full, and stays so because a transaction has locked it. -/
def Barred (e : Engine) (t : TxnId) (f : HeapFile) (n : Nat) : Prop :=
  e.locks.holdsAny t ⟨f.id, n⟩ = true ∧ e.Crowded f n

/-- A page that is found full is barred by the lock under which it has been fetched. -/
theorem Coherent.barred_of_fetched (h : e.Coherent) (found : e.catalog.file? f.id = some f)
    {ref : PageRef} (fetched : e.getPage t ⟨f.id, n⟩ permission = (e', .fetched ref))
    (here : e'.page? ref = some page) (full : page.isFull = true) : e'.Barred t f n := by
  obtain ⟨fetches, spec⟩ := fetches_getPage h fetched
  obtain ⟨-, -, held⟩ := spec ref rfl
  obtain ⟨page', here', current, -⟩ := current?_of_fetched h fetched
  obtain rfl := Option.some.inj (here'.symm.trans here)
  refine ⟨LockTable.holdsAny_of_holds held, ?_⟩
  rw [fetches.coherent.crowded_iff (fetches.catalog ▸ found)]
  exact ⟨page', current?_of_resident current, full⟩

/-! ## The search for a free slot -/

/-- What an insertion that has counted so many pages has found out about them. -/
def Searched (e : Engine) (t : TxnId) (f : HeapFile) (counted : Nat) : InsertStage → Prop
  | .check => False
  | .probe n numPages | .fill n numPages => numPages = counted ∧ ∀ m < n, e.Barred t f m
  | .grow | .settle _ => ∀ m < counted, e.Barred t f m

/-- What has been found out stays true while pages that are barred stay so. -/
theorem Searched.mono {stage : InsertStage} (h : e.Searched t f counted stage)
    (barred : ∀ m, e.Barred t f m → e'.Barred t f m) : e'.Searched t f counted stage := by
  cases stage with
  | check => exact h.elim
  | probe n numPages | fill n numPages => exact ⟨h.1, fun m lt => barred m (h.2 m lt)⟩
  | grow | settle n => exact fun m lt => barred m (h m lt)

/-- A call that goes on after a fetch has got its page. -/
theorem goesOn_of_withPage {use : Engine → PageRef → Page → Engine × Progress} {next : Call}
    (hs : e.withPage t p permission use = (e', .goesOn next)) :
    ∃ e₁ ref page, e.getPage t p permission = (e₁, .fetched ref) ∧ e₁.page? ref = some page ∧
      use e₁ ref page = (e', .goesOn next) := by
  rw [withPage] at hs
  split at hs
  · cases hs
  · cases hs
  · next e₁ ref fetched =>
    split at hs
    · next page here => exact ⟨e₁, ref, page, fetched, here, hs⟩
    · cases hs

/-- A change ends its call. -/
theorem endChange_ne_goesOn {ref : PageRef} {noted : Bool} {reply : Reply} {next : Call} :
    e.endChange t ref noted reply ≠ (e', .goesOn next) := by
  intro hs
  rw [endChange] at hs
  split at hs
  · split at hs
    · cases hs
    · cases hs
  · cases hs

theorem place_ne_goesOn {i : Insertion} {ref : PageRef} {next : Call} :
    e.place t i ref page ≠ (e', .goesOn next) := by
  intro hs
  rw [place] at hs
  split at hs
  · cases hs
  · exact endChange_ne_goesOn hs

/-- One more page has been passed. -/
theorem barred_succ (h : ∀ m < n, e.Barred t f m) (here : e.Barred t f n) :
    ∀ m < n + 1, e.Barred t f m := by
  intro m lt
  rcases Nat.lt_succ_iff_lt_or_eq.mp lt with before | rfl
  · exact h m before
  · exact here

/-- The first step of an insertion that goes on counts the pages, and each other one adds what it has
found out. -/
theorem searched_of_goesOn {i j : Insertion} (h : e.Coherent) (hi : i.Sound e)
    (hs : e.step t (.insertInto i) = (e', .goesOn (.insertInto j))) :
    j = { i with stage := j.stage } ∧
      (i.stage = .check → e'.Searched t i.file (e.numPages i.file) j.stage) ∧
      ∀ counted, e'.Searched t i.file counted i.stage → e'.Searched t i.file counted j.stage := by
  obtain ⟨f, tuple, noted, stage⟩ := i
  have found : e.catalog.file? f.id = some f := hi.registered
  cases stage with
  | check =>
    simp only [step, stepInsert] at hs
    split at hs
    · obtain ⟨rfl, going⟩ := Prod.mk.inj hs
      cases going
      exact ⟨rfl, fun _ => ⟨rfl, by simp⟩, fun _ known => known.elim⟩
    · cases hs
  | probe n numPages =>
    simp only [step, stepInsert] at hs
    split at hs
    · obtain ⟨e₁, ref, page, fetched, here, hs⟩ := goesOn_of_withPage hs
      obtain ⟨rfl, going⟩ := Prod.mk.inj hs
      cases going
      cases full : page.isFull with
      | true =>
        have barred := h.barred_of_fetched found fetched here full
        exact ⟨rfl, by simp, fun counted known => ⟨known.1, barred_succ known.2 barred⟩⟩
      | false => exact ⟨rfl, by simp, fun counted known => known⟩
    · next last =>
      -- all pages that were counted have been passed
      obtain ⟨rfl, going⟩ := Prod.mk.inj hs
      cases going
      refine ⟨rfl, by simp, fun counted known m lt => known.2 m ?_⟩
      rw [← known.1] at lt
      exact Nat.lt_of_lt_of_le lt (Nat.not_lt.mp last)
  | fill n numPages =>
    simp only [step, stepInsert] at hs
    obtain ⟨e₁, ref, page, fetched, here, hs⟩ := goesOn_of_withPage hs
    split at hs
    · next full =>
      obtain ⟨rfl, going⟩ := Prod.mk.inj hs
      cases going
      have barred := h.barred_of_fetched found fetched here full
      exact ⟨rfl, by simp, fun counted known => ⟨known.1, barred_succ known.2 barred⟩⟩
    · exact absurd hs place_ne_goesOn
  | grow =>
    obtain ⟨rfl, going⟩ := Prod.mk.inj hs
    cases going
    exact ⟨rfl, by simp, fun counted known => known⟩
  | settle n =>
    simp only [step, stepInsert] at hs
    obtain ⟨e₁, ref, page, fetched, here, hs⟩ := goesOn_of_withPage hs
    split at hs
    · obtain ⟨rfl, going⟩ := Prod.mk.inj hs
      cases going
      exact ⟨rfl, by simp, fun counted known => known⟩
    · exact absurd hs place_ne_goesOn

/-- An insertion into a file that goes on is at another of its stages. -/
theorem goesOn_of_stepInsert {i : Insertion} {next : Call}
    (hs : e.stepInsert t i = (e', .goesOn next)) : ∃ stage, next = .insertInto { i with stage } := by
  obtain ⟨f, tuple, noted, stage⟩ := i
  cases stage with
  | check =>
    simp only [stepInsert] at hs
    split at hs
    · cases hs
      exact ⟨_, rfl⟩
    · cases hs
  | probe n numPages =>
    simp only [stepInsert] at hs
    split at hs
    · obtain ⟨_, _, _, -, -, hs⟩ := goesOn_of_withPage hs
      cases hs
      exact ⟨_, rfl⟩
    · cases hs
      exact ⟨_, rfl⟩
  | fill n numPages | settle n =>
    obtain ⟨_, _, _, -, -, hs⟩ := goesOn_of_withPage hs
    split at hs
    · cases hs
      exact ⟨_, rfl⟩
    · exact absurd hs place_ne_goesOn
  | grow =>
    cases hs
    exact ⟨_, rfl⟩

/-- What a call can go on to. -/
inductive GoesOnTo (e : Engine) : Call → Call → Prop where
  | insert {table : TableId} {tuple : Tuple} {f : HeapFile} (found : e.catalog.file? table = some f) :
    GoesOnTo e (.insert table tuple) (.insertInto ⟨f, tuple, true, .check⟩)
  | insertInto {i : Insertion} (stage : InsertStage) :
    GoesOnTo e (.insertInto i) (.insertInto { i with stage })
  | delete {id : RecordId} (f : HeapFile) :
    GoesOnTo e (.delete (some id)) (.deleteFrom f (some id) true)
  | deleteFrom {f : HeapFile} {id : RecordId} {noted : Bool} :
    GoesOnTo e (.deleteFrom f (some id) noted) (.deleteAt id noted)
  | advance {cursor : Cursor} (n : Nat) : GoesOnTo e (.advance cursor) (.turn cursor n)
  | turn {cursor : Cursor} {n : Nat} (later : Cursor) : GoesOnTo e (.turn cursor n) (.advance later)

/-- A call that goes on goes on to one of these. -/
theorem goesOnTo_of_goesOn {c next : Call} (hs : e.step t c = (e', .goesOn next)) :
    e.GoesOnTo c next := by
  cases c with
  | insertInto i =>
    obtain ⟨stage, rfl⟩ := goesOn_of_stepInsert hs
    exact .insertInto stage
  | insert table tuple =>
    rw [step] at hs
    split at hs
    · next found =>
      cases hs
      exact .insert (file_eq_ok.mp found)
    · cases hs
  | lock p mode =>
    rw [step] at hs
    dsimp only at hs
    split at hs
    · cases hs
    · cases hs
    · cases hs
  | delete id? =>
    cases id? with
    | none => cases hs
    | some id =>
      rw [step] at hs
      split at hs
      · cases hs
        exact .delete _
      · cases hs
  | deleteFrom g id? noted =>
    cases id? with
    | none => cases hs
    | some id =>
      rw [step, checkDelete] at hs
      split at hs
      · cases hs
        exact .deleteFrom
      · cases hs
  | advance cursor =>
    rw [step, checkCursor] at hs
    split at hs
    · cases hs
    · cases hs
    · split at hs
      · cases hs
        exact .advance _
      · cases hs
  | fetch q permission =>
    obtain ⟨_, _, _, -, -, hs⟩ := goesOn_of_withPage hs
    cases hs
  | turn cursor n =>
    obtain ⟨_, _, _, -, -, hs⟩ := goesOn_of_withPage hs
    cases hs
    exact .turn _
  | deleteAt id noted =>
    obtain ⟨_, _, _, -, -, hs⟩ := goesOn_of_withPage hs
    split at hs
    · cases hs
    · exact absurd hs endChange_ne_goesOn

/-- A call that goes on inserts what it was about to insert. -/
theorem inserts?_of_goesOn {c next : Call} {what : TableId × Tuple}
    (hs : e.step t c = (e', .goesOn next)) (inserts : next.inserts? = some what) :
    c.inserts? = some what := by
  cases goesOnTo_of_goesOn hs with
  | insert found => rw [← inserts, Call.inserts?, Call.inserts?, Catalog.id_of_file? found]
  | insertInto stage => exact inserts
  | delete | deleteFrom | advance | turn => cases inserts

/-- An insertion into a file that has been begun is where it is after a step of it. -/
theorem of_goesOn_insertInto {c : Call} {j : Insertion}
    (hs : e.step t c = (e', .goesOn (.insertInto j))) (begun : j.stage ≠ .check) :
    ∃ i, c = .insertInto i := by
  cases goesOnTo_of_goesOn hs with
  | insert found => exact absurd rfl begun
  | insertInto stage => exact ⟨_, rfl⟩

end Engine

namespace Traffic

variable {first : Rows} {s s' : Traffic} {t u : TxnId} {f : HeapFile} {n : Nat} {e : Engine}
  {ev : TrafficEvent} {c : Call} {i : Insertion} {done : List TrafficEvent}

/-! ## Runs -/

/-- A barred page stays so while its transaction changes nothing. -/
theorem Guards.barred {new : List Change} (guards : Guards t ⟨f.id, n⟩ s s' new)
    (same : s'.changes t = s.changes t) (h : s.engine.Barred t f n) : s'.engine.Barred t f n := by
  have nothing : new = [] := by
    have told := guards.changes
    rw [same] at told
    exact List.self_eq_append_right.mp told
  subst nothing
  refine ⟨guards.held, fun slot inside => ?_⟩
  rw [guards.current]
  exact h.2 slot inside

/-- Where an insertion stands after an event: where it stood before, or behind a step of it. -/
theorem calls_of_next (hs : s.next? ev = some s') (turn : s'.calls.get? t = some (.insertInto i))
    (begun : i.stage ≠ .check) :
    (∀ commit faults, ev ≠ .complete t commit faults) ∧ (∀ call, ev ≠ .start t call) ∧
      (s.calls.get? t = some (.insertInto i) ∨ ev = .step t ∧ ∃ j,
        s.calls.get? t = some (.insertInto j) ∧
        s.engine.step t (.insertInto j) = (s'.engine, .goesOn (.insertInto i))) := by
  have unasked : ∀ call, ev ≠ .start t call := by
    rintro call rfl
    cases next_of_next? hs with
    | start request _ =>
      -- nobody asks for this: it is where a request leads to
      rw [FinMap.get?_insert_self] at turn
      obtain rfl := Option.some.inj turn
      cases request
  refine ⟨?goesOn, unasked, ?before⟩
  case goesOn =>
    -- a transaction that is in the middle of something does not end
    rintro commit faults rfl
    cases next_of_next? hs with
    | complete idle => cases idle.symm.trans turn
  case before =>
    rcases call_of_next hs turn with asked | still | ⟨step, call, at_call, goes⟩
    · exact (unasked _ asked).elim
    · exact .inl still
    · obtain ⟨j, rfl⟩ := Engine.of_goesOn_insertInto goes begun
      exact .inr ⟨step, j, at_call, goes⟩

/-- What is known of an insertion that has begun: when it has counted the pages of its file, and what it
has found out since. -/
def Counted (e : Engine) (done : List TrafficEvent) (s : Traffic) (t : TxnId) (i : Insertion) : Prop :=
  ∃ earlier later mid, done = earlier ++ .step t :: later ∧ (quiet e).run earlier = some mid ∧
    mid.calls.get? t = some (.insertInto { i with stage := .check }) ∧
    (∀ call, .start t call ∉ later) ∧
    s.engine.Searched t i.file (mid.engine.numPages i.file) i.stage

/-- In an event an insertion counts the pages, or finds out more, or nothing changes for it. -/
theorem counted_snoc (h : s.Sound first) (ran : (quiet e).run done = some s)
    (known : ∀ t i, s.calls.get? t = some (.insertInto i) → i.stage ≠ .check → Counted e done s t i)
    (hs : s.next? ev = some s') (turn : s'.calls.get? t = some (.insertInto i))
    (begun : i.stage ≠ .check) : Counted e (done ++ [ev]) s' t i := by
  obtain ⟨goesOn, unasked, before⟩ := calls_of_next hs turn begun
  have barred : ∀ f m, s.engine.Barred t f m → s'.engine.Barred t f m := by
    intro f m barred
    obtain ⟨new, guards⟩ := guards_next h barred.1 goesOn hs
    exact guards.barred (changes_of_turn hs turn) barred
  have onwards : ∀ {later : List TrafficEvent}, (∀ call, .start t call ∉ later) →
      ∀ call, .start t call ∉ later ++ [ev] := by
    intro later out call mem
    rcases List.mem_append.mp mem with old | last
    · exact out call old
    · exact unasked call (List.mem_singleton.mp last).symm
  rcases before with still | ⟨rfl, j, at_j, going⟩
  · obtain ⟨earlier, later, mid, rfl, ran', at_check, out, searched⟩ := known t i still begun
    exact ⟨earlier, later ++ [ev], mid, by simp, ran', at_check, onwards out,
      searched.mono (barred i.file)⟩
  · obtain ⟨eq, first, more⟩ :=
      Engine.searched_of_goesOn h.engine.toCoherent (h.calls t _ at_j) going
    obtain ⟨f, tuple, noted, stage⟩ := j
    obtain ⟨f', tuple', noted', stage'⟩ := i
    cases eq
    by_cases count : stage = .check
    · -- this step counts the pages
      subst count
      exact ⟨done, [], s, rfl, ran, at_j, nofun, first rfl⟩
    · obtain ⟨earlier, later, mid, rfl, ran', at_check, out, searched⟩ := known t _ at_j count
      exact ⟨earlier, later ++ [.step t], mid, by simp, ran', at_check, onwards out,
        more _ (searched.mono (barred _))⟩

/-- Every insertion in a run has counted the pages of its file when it began. -/
theorem counted_of_run (fresh : e.Fresh) {es : List TrafficEvent} (h : (quiet e).run es = some s)
    (turn : s.calls.get? t = some (.insertInto i)) (begun : i.stage ≠ .check) :
    Counted e es s t i := by
  have all := ((sound_quiet fresh).run_induction (motive := fun done s =>
    (quiet e).run done = some s ∧
      ∀ t i, s.calls.get? t = some (.insertInto i) → i.stage ≠ .check → Counted e done s t i)
    ?step h ?base).2.2
  · exact all t i turn begun
  case step =>
    rintro done s s' ev - sound hs ⟨ran, known⟩
    refine ⟨?_, fun t i turn begun => counted_snoc sound ran known hs turn begun⟩
    rw [run, runEvents_append, ← run, ran]
    exact runEvents_cons.mpr ⟨s', hs, rfl⟩
  case base =>
    refine ⟨rfl, fun t i turn => ?_⟩
    simp [quiet] at turn

/-- **What is full when a file grows.** Whenever, in any run, an insertion is about to append a page, every
page that the file had when the insertion counted its pages is full. So what has room is among the pages
that have been appended since then. -/
theorem full_of_grow (fresh : e.Fresh) {es : List TrafficEvent} (h : (quiet e).run es = some s)
    (turn : s.calls.get? t = some (.insertInto i)) (grow : i.stage = .grow) :
    ∃ earlier later mid, es = earlier ++ .step t :: later ∧ (quiet e).run earlier = some mid ∧
      mid.calls.get? t = some (.insertInto { i with stage := .check }) ∧
      (∀ call, .start t call ∉ later) ∧
      ∀ n < mid.engine.numPages i.file,
        ∃ page, s.engine.current? ⟨i.file.id, n⟩ = some page ∧ page.isFull = true := by
  have sound := Sound.run fresh h
  have begun : i.stage ≠ .check := by
    rw [grow]
    exact nofun
  obtain ⟨earlier, later, mid, split, ran, at_check, out, searched⟩ :=
    counted_of_run fresh h turn begun
  have valid : i.Sound s.engine := sound.calls t _ turn
  rw [grow] at searched
  refine ⟨earlier, later, mid, split, ran, at_check, out, fun n inside => ?_⟩
  exact (sound.engine.crowded_iff valid.registered).mp (searched n inside).2

/-- The insertion of a number into the table of `Engine.sample`. -/
def numbering (n : Int32) (stage : InsertStage) : Insertion :=
  ⟨numbers, numberRecord n, true, stage⟩

/-- The file has one page when the second transaction counts, and then waits for it. Meanwhile the first
transaction fills this page, and a third one puts a record into another one; both are committed. -/
def overtaken : List TrafficEvent :=
  inserting ⟨1⟩ 1 5 ++ inserting ⟨2⟩ 2 3 ++ inserting ⟨1⟩ 3 4 ++ [.complete ⟨1⟩ true ∅]
    ++ inserting ⟨3⟩ 4 6 ++ [.complete ⟨3⟩ true ∅, .step ⟨2⟩, .step ⟨2⟩]

/-- After `overtaken` the second transaction is about to append a page, and the page that it has counted is
full. -/
theorem full_of_grow_overtaken : ∃ s page, (quiet .sample).run overtaken = some s ∧
    s.calls.get? ⟨2⟩ = some (.insertInto (numbering 2 .grow)) ∧
    s.engine.current? ⟨.file ["t"], 0⟩ = some page ∧ page.isFull = true := by
  have ran : ((quiet .sample).run overtaken).map (fun s => s.calls.get? ⟨2⟩)
      = some (some (.insertInto (numbering 2 .grow))) := by decide +kernel
  -- there is only one place in the run where it counts
  have count : ∀ k ≤ overtaken.length, ∀ s ∈ (quiet .sample).run (overtaken.take k),
      s.calls.get? ⟨2⟩ = some (.insertInto (numbering 2 .check)) →
        s.engine.numPages (numbering 2 .check).file = 1 := by decide +kernel
  obtain ⟨s, run, turn⟩ := Option.map_eq_some_iff.mp ran
  obtain ⟨earlier, later, mid, split, ran', at_check, -, full⟩ :=
    full_of_grow Engine.fresh_sample run turn rfl
  have counted : mid.engine.numPages (numbering 2 .check).file = 1 := by
    refine count earlier.length ?_ mid ?_ at_check
    · rw [split, List.length_append]
      exact Nat.le_add_right ..
    · rw [split, List.take_left]
      exact ran'
  obtain ⟨page, here, crowded⟩ := full 0 (counted ▸ Nat.one_pos)
  exact ⟨s, page, run, turn, here, crowded⟩

/-- It appends a page then, although another one, which it has not counted, has room. -/
theorem grows_with_room : ∃ s page s', (quiet .sample).run overtaken = some s ∧
    s.calls.get? ⟨2⟩ = some (.insertInto (numbering 2 .grow)) ∧
    s.engine.numPages (numbering 2 .grow).file = 2 ∧
    s.engine.current? ⟨.file ["t"], 1⟩ = some page ∧ page.isFull = false ∧
    s.next? (.step ⟨2⟩) = some s' ∧ s'.engine.numPages (numbering 2 .grow).file = 3 := by
  have ran : ((quiet .sample).run overtaken).map (fun s => (s.calls.get? ⟨2⟩,
      s.engine.numPages (numbering 2 .grow).file,
      (s.engine.current? ⟨.file ["t"], 1⟩).map Page.isFull,
      (s.next? (.step ⟨2⟩)).map fun s => s.engine.numPages (numbering 2 .grow).file))
        = some (some (.insertInto (numbering 2 .grow)), 2, some false, some 3) := by decide +kernel
  obtain ⟨s, run, told⟩ := Option.map_eq_some_iff.mp ran
  simp only [Prod.mk.injEq, Option.map_eq_some_iff] at told
  obtain ⟨turn, two, ⟨page, here, room⟩, s', step, three⟩ := told
  exact ⟨s, page, s', run, turn, two, here, room, step, three⟩

end Traffic

end RowStore
