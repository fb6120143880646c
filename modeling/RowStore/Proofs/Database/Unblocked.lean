import RowStore.Proofs.Database.Folding

/-! # Loading without waiting
A load of a session takes its records from the file as it goes, and may have to wait between two of them;
one that never waits reads all of the file first. Whichever records the stream yields, both insert the same
tuples for as long as the first need not wait (`follow_nextRecord`). Main statement:
`load_eq_of_not_blocked`. -/

namespace RowStore.Session

variable {s s' : Session} {l : Load} {o : TaskOwner} {label : String} {t : TxnId}

/-- What a load answers when it has ended. -/
def loadAnswer : Except DatabaseError Nat → Except Failure Outcome
  | .ok count => .ok (.loaded count)
  | .error err => .error (.database err)

/-- Takes what follows as far as it goes, but not more than so many calls. -/
def follow (bound : Nat) : Session × Follow → Session × Pause
  | (s, .over result) => (s, .over result)
  | (s, .goOn task) => advance bound s task

/-- Whether a step waits, or has ended with an engine and an answer. -/
inductive Completes (s : Session) (e : Engine) (answer : Except Failure Outcome) :
    Session × Pause → Prop
  | waits {s' : Session} {w : WaitingTask} : Completes s e answer (s', .waits w)
  | ended : Completes s e answer ({ s with engine := e }, .over answer)

/-- It makes no difference which engine was there before. -/
theorem Completes.since {e e' : Engine} {answer : Except Failure Outcome} {r : Session × Pause}
    (h : Completes { s with engine := e } e' answer r) : Completes s e' answer r := by
  cases h with
  | waits => exact .waits
  | ended => exact .ended

/-- A load that goes on takes the records that its stream yields, whichever these are, up to the first whose
insertion has to wait. -/
theorem follow_nextRecord {records : List Csv.Record} {e : Engine}
    {result : Except DatabaseError Nat} (bound : Nat) (s : Session) (apart : l.table ≠ .file l.source)
    (yields : l.stream.Yields (s.engine.disk.content l.source) records)
    (enough : records.length ≤ bound)
    (loaded : s.engine.loadRecords o.txn l.table l.schema records = (e, result)) :
    Completes s e (loadAnswer ((· + l.loaded) <$> result)) (follow bound (s.nextRecord o l)) := by
  induction records generalizing s l bound result with
  | nil =>
    cases yields with | nil ends => ?_
    obtain ⟨rfl, rfl⟩ := Prod.mk.inj loaded
    rw [nextRecord, Load.next, ends]
    simp only [Functor.map, Except.map, Nat.zero_add]
    exact .ended
  | cons r rest ih =>
    cases yields with | @cons _ stream _ _ first later => ?_
    rw [Engine.loadRecords] at loaded
    rw [nextRecord, Load.next, first]
    dsimp only
    cases spelt : r.tuple l.schema with
    | error err =>
      simp only [spelt] at loaded
      obtain ⟨rfl, rfl⟩ := Prod.mk.inj loaded
      exact .ended
    | ok tuple =>
      obtain _ | bound := bound
      · exact absurd enough (Nat.not_succ_le_zero _)
      simp only [spelt, Engine.call] at loaded
      rcases ran : s.engine.run o.txn (.insert l.table tuple) with ⟨e₁, ended⟩
      obtain ⟨files, ends⟩ := Engine.run_insertion .begins ran
      rw [ran] at loaded
      simp only [follow, advance, ran]
      cases ends with
      | waits => exact .waits
      | failed =>
        obtain ⟨rfl, rfl⟩ := Prod.mk.inj loaded
        exact .ended
      | inserted =>
        rcases others : Engine.loadRecords o.txn l.table l.schema e₁ rest with ⟨e₂, count⟩
        simp only [others] at loaded
        obtain ⟨rfl, rfl⟩ := Prod.mk.inj loaded
        -- the insertion has left the file of the records as it was
        have unread : stream.Yields (e₁.disk.content l.source) rest :=
          (files.content _ apart).symm ▸ later
        have goes := ih (l := { l with stream, loaded := l.loaded + 1 }) bound { s with engine := e₁ }
          apart unread (Nat.le_of_succ_le_succ enough) others
        have counted : (· + l.loaded) <$> (· + 1) <$> count = (· + (l.loaded + 1)) <$> count := by
          cases count with
          | error err => rfl
          | ok n => exact congrArg Except.ok (Nat.add_right_comm n 1 l.loaded)
        rw [counted]
        exact goes.since

/-- A load is not cut short: a record takes an octet at least. -/
theorem carryOn_nextRecord {records : List Csv.Record} {e : Engine} {result : Except DatabaseError Nat}
    (s : Session) (apart : l.table ≠ .file l.source)
    (yields : l.stream.Yields (s.engine.disk.content l.source) records)
    (loaded : s.engine.loadRecords o.txn l.table l.schema records = (e, result)) :
    Completes s e (loadAnswer ((· + l.loaded) <$> result)) (carryOn (s.nextRecord o l)) := by
  have goes := fun bound enough => follow_nextRecord bound s apart yields enough loaded
  rcases next : s.nextRecord o l with ⟨s', answer | task⟩
  · rw [next] at goes
    exact goes _ (Nat.le_refl _)
  · rw [next] at goes
    refine goes _ ?_
    rw [nextRecord, Load.next] at next
    cases yields with
    | nil ends =>
      rw [ends] at next
      cases next
    | @cons _ stream r rest first later =>
      rw [first] at next
      dsimp only at next
      cases spelt : r.tuple l.schema with
      | error err =>
        simp only [spelt] at next
        cases next
      | ok tuple =>
        simp only [spelt] at next
        obtain ⟨rfl, eq⟩ := Prod.mk.inj next
        obtain rfl := Follow.goOn.inj eq
        have left := Csv.length_records_le stream (s.engine.disk.content l.source)
        rw [Csv.Stream.yields_iff.mp later] at left
        simp only [callBound, Engine.loadBound, List.length_cons]
        omega

/-! ## Both loads -/

/-- A load that cannot begin fails alike. -/
theorem load_of_startLoad_error {e : Engine} {table : TableId} {path : Path} {delimiter : UInt8}
    {err : DatabaseError} (t : TxnId) (h : e.startLoad table path delimiter = .error err) :
    e.load t table path delimiter = (e, .error err) := by
  rw [Engine.startLoad] at h
  rw [Engine.load, FileTree.read]
  cases columns : e.schema table with
  | error err' =>
    rw [columns] at h
    exact Except.error.inj h ▸ rfl
  | ok schema =>
    rw [columns] at h
    rcases found : e.disk.find path with err' | ⟨source, content | _⟩
    all_goals simp only [found, bind, Except.bind, pure, Except.pure] at h ⊢
    all_goals cases h
    all_goals rfl

/-- A load that begins has all the records of its file before it. -/
theorem load_of_startLoad {e : Engine} {table : TableId} {path : Path} {delimiter : UInt8} (t : TxnId)
    (h : e.startLoad table path delimiter = .ok l) :
    e.load t table path delimiter
      = e.loadRecords t table l.schema (Csv.read delimiter (e.disk.content l.source)) := by
  obtain ⟨columns, -⟩ := startLoad_eq_ok h
  rw [Engine.startLoad, columns] at h
  rw [Engine.load, columns, FileTree.read]
  rcases found : e.disk.find path with err | ⟨source, content | _⟩
  all_goals simp only [found, bind, Except.bind, pure, Except.pure] at h ⊢
  · cases h
  · have same : source = l.source := congrArg Load.source (Except.ok.inj h)
    rw [FileTree.content, ← same, (FileTree.exists_walk_of_find found).2]
  · cases h

/-- **One load, two ways.** Where a load of a session need not wait, it does what a load does that reads
all of the file first, and tells the same of it. -/
theorem load_eq_of_not_blocked {table : TableId} {text : String} {delimiter : UInt8}
    {answer : Except Failure Outcome} (named : s.txn? label = .ok t) (opened : s.isOpen = true)
    (apart : ∀ l, s.engine.startLoad table (s.path text) delimiter = .ok l → table ≠ .file l.source)
    (ran : (load label table text delimiter).run.run s = (answer, s')) (goes : answer ≠ .ok .blocked) :
    ∃ result, s.engine.load t table (s.path text) delimiter = (s'.engine, result) ∧
      answer = loadAnswer result ∧ s' = { s with engine := s'.engine } := by
  rw [run_load named opened] at ran
  cases starts : s.engine.startLoad table (s.path text) delimiter with
  | error err =>
    simp only [starts] at ran
    obtain ⟨rfl, rfl⟩ := Prod.mk.inj ran
    exact ⟨.error err, load_of_startLoad_error t starts, rfl, rfl⟩
  | ok l =>
    simp only [starts, run_take] at ran
    obtain ⟨-, begun⟩ := startLoad_eq_ok starts
    have yields : l.stream.Yields (s.engine.disk.content l.source)
        (Csv.read delimiter (s.engine.disk.content l.source)) := by
      rw [begun]
      exact Csv.Stream.yields_iff.mpr (Csv.Stream.records_new ..)
    rcases loaded : s.engine.loadRecords t l.table l.schema
      (Csv.read delimiter (s.engine.disk.content l.source)) with ⟨e, result⟩
    have table_eq : l.table = table := by rw [begun]
    have completes := carryOn_nextRecord (o := ⟨s.clock, label, t⟩) s (table_eq ▸ apart l starts) yields
      loaded
    rw [load_of_startLoad t starts, ← table_eq, loaded]
    have zero : l.loaded = 0 := by rw [begun]
    generalize carryOn _ = r at ran completes
    cases completes with
    | waits =>
      obtain ⟨rfl, -⟩ := Prod.mk.inj ran
      exact absurd rfl goes
    | ended =>
      obtain ⟨rfl, rfl⟩ := Prod.mk.inj ran
      refine ⟨result, rfl, ?_, rfl⟩
      cases result with
      | error err => rfl
      | ok n => rw [zero]; rfl

end RowStore.Session
