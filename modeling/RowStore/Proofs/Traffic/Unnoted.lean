import RowStore.Proofs.Engine.Notes
import RowStore.Proofs.Traffic.Capacity
import RowStore.Proofs.Traffic.Completion
import RowStore.Proofs.Traffic.Rescan

/-! # Changes that the pool takes no note of
A tuple can be inserted into a file, and removed from it, without the pool: the page is fetched, locked
and marked as always, but the pool does not note who has changed it. So everything goes on as if it were
noted (`mirrors_step`, `Shadows`), until the transaction ends. Main statements: `fate_of_changes`, what
becomes of the changes of a transaction that goes past the pool now and then; and `unwritten_past`, a row
that is lost. -/

namespace RowStore

/-- Whether the pool takes note of what a call changes. -/
def Call.noted : Call → Bool
  | .insertInto i => i.noted
  | .deleteFrom _ _ noted | .deleteAt _ noted => noted
  | _ => true

/-- The call that does the same, and of which the pool takes note. -/
def Call.asNoted : Call → Call
  | .insertInto i => .insertInto { i with noted := true }
  | .deleteFrom f id? _ => .deleteFrom f id? true
  | .deleteAt id _ => .deleteAt id true
  | c => c

/-- The same progress of a call of which the pool takes note. -/
def Progress.asNoted : Progress → Progress
  | .goesOn next => .goesOn next.asNoted
  | p => p

theorem Call.asNoted_of_noted {c : Call} (h : c.noted = true) : c.asNoted = c := by
  cases c with
  | insertInto i =>
    obtain ⟨f, tuple, noted, stage⟩ := i
    obtain rfl : noted = true := h
    rfl
  | deleteFrom f id? noted | deleteAt id noted =>
    obtain rfl : noted = true := h
    rfl
  | lock | fetch | insert | delete | advance | turn => rfl

theorem Call.noted_of_isRequest {c : Call} (h : c.isRequest = true) : c.noted = true := by
  cases c with
  | insertInto | deleteFrom | deleteAt => exact nomatch h
  | lock | fetch | insert | delete | advance | turn => rfl

/-- The pool takes note of all that a call goes on to, or of nothing. -/
theorem Engine.noted_of_goesOn {e e' : Engine} {t : TxnId} {c next : Call}
    (hs : e.step t c = (e', .goesOn next)) : next.noted = c.noted := by
  cases goesOnTo_of_goesOn hs <;> rfl

/-- What a step has changed is the same whether it is noted or not. -/
theorem Change.of?_asNoted (c : Call) (p : Progress) :
    Change.of? c.asNoted p.asNoted = Change.of? c p := by
  cases p with
  | goesOn next | waits p => cases c <;> rfl
  | done result =>
    cases c with
    | insertInto i | deleteAt id noted =>
      rcases result with err | reply
      · rfl
      · cases reply <;> rfl
    | lock | fetch | insert | delete | deleteFrom | advance | turn => rfl

namespace Engine

variable {e : Engine} {t : TxnId} {p : PageId} {permission : Permission} {page : Page} {c : Call}
  {ref : PageRef} {notes : FinMap TxnId (List PageId)}

/-- The steps of a call of which the pool takes note, and of the call that does the same, in an engine
with other notes: both do the same, and the second one notes what it should. -/
structure Mirrors (t : TxnId) (c : Call) (e : Engine) (notes : FinMap TxnId (List PageId))
    (x y : Engine × Progress) : Prop where
  engine : y.1 = x.1.noting y.1.pool.dirtied
  progress : x.2 = y.2.asNoted
  noted : ∀ u q, y.1.pool.Noted u q ↔
    (u = t ∧ c.noted = true ∧ ∃ change, Change.of? c y.2 = some change ∧ change.id.page = q) ∨
      q ∈ notes.getD u []
  same : ∀ u, (u = t → c.noted = true) → notes.get? u = e.pool.dirtied.get? u →
    y.1.pool.dirtied.get? u = x.1.pool.dirtied.get? u

/-- Nothing is changed, and nothing is noted. -/
theorem Mirrors.quiet {x y : Engine × Progress} (dirtied : x.1.pool.dirtied = e.pool.dirtied)
    (engine : y.1 = x.1.noting notes) (progress : x.2 = y.2.asNoted)
    (unchanged : Change.of? c y.2 = none) : Mirrors t c e notes x y where
  engine := by rw [engine]; rfl
  progress := progress
  noted u q := by simp [engine, unchanged, Pool.Noted, noting, Pool.noting]
  same u _ same := by
    rw [engine, dirtied]
    exact same

/-- A step that fetches a page does with it the same in both engines. -/
theorem mirrors_withPage (h : e.Coherent) {use use' : Engine → PageRef → Page → Engine × Progress}
    (uses : ∀ (e₁ : Engine) ref page, e₁.Coherent → e₁.pool.frame? page.id = some ref.frame →
      ref.permission = permission →
      Mirrors t c e₁ notes (use e₁ ref page) (use' (e₁.noting notes) ref page)) :
    Mirrors t c e notes (e.withPage t p permission use)
      ((e.noting notes).withPage t p permission use') := by
  rw [withPage, withPage, getPage_noting]
  rcases hg : e.getPage t p permission with ⟨e₁, fetch⟩
  obtain ⟨fetches, spec⟩ := fetches_getPage h hg
  cases fetch with
  | waiting => exact .quiet fetches.dirtied rfl rfl (Change.of?_waits c p)
  | failed err => exact .quiet fetches.dirtied rfl rfl (Change.of?_error c err)
  | fetched ref =>
    obtain ⟨granted, resident, -⟩ := spec ref rfl
    obtain ⟨page, here, -, id⟩ := current?_of_fetched h hg
    have here' : (e₁.noting notes).page? ref = some page := here
    simp only [here, here']
    obtain ⟨engine, progress, noted, same⟩ := uses e₁ ref page fetches.coherent (id ▸ resident) granted
    exact ⟨engine, progress, noted, fun u own eq =>
      same u own (eq.trans (congrArg (·.get? u) fetches.dirtied).symm)⟩

/-- A change that ends a call is made in both engines, and noted in the second one if it should be. -/
theorem mirrors_endChange (h : e.Coherent) (resident : e.pool.frame? page.id = some ref.frame)
    (write : ref.permission = .readWrite) {reply : Reply} {change : Change}
    (told : Change.of? c (.done (.ok reply)) = some change) (id : change.id.page = page.id) :
    Mirrors t c e notes ((e.setPage ref (page.mark (some t))).endChange t ref true reply)
      (((e.noting notes).setPage ref (page.mark (some t))).endChange t ref c.noted reply) := by
  have resident' : (e.noting notes).pool.frame? page.id = some ref.frame := resident
  rw [endChange_of_resident h.pool resident write]
  cases noted : c.noted with
  | true =>
    rw [endChange_of_resident (coherent_noting.mpr h).pool resident' write]
    refine ⟨?_, rfl, fun u q => ?_, fun u _ same => Pool.dirtied_noteDirtied_congr same⟩
    · rw [changed, Pool.noteDirtied_eq_noting, changed, Pool.noteDirtied_eq_noting (p := e.pool.setFrame _ _)]
      rfl
    · rw [changed, Pool.noted_noteDirtied]
      simp [told, id, noted, eq_comm, Pool.Noted, Pool.setFrame, noting, Pool.noting]
  | false =>
    refine ⟨?_, rfl, fun u q => ?_, fun u own same => ?_⟩
    · rw [changed, Pool.noteDirtied_eq_noting]
      rfl
    · simp [endChange, setPage, noted, Pool.Noted, Pool.setFrame, noting, Pool.noting]
    · -- the change is noted in the first engine, but of nobody else
      have ne : u ≠ t := fun eq => Bool.false_ne_true (noted.symm.trans (own eq))
      exact same.trans (Pool.dirtied_noteDirtied_of_ne (p := e.pool.setFrame ref.frame _) ne).symm

/-- An insertion puts its tuple into the page in both engines. -/
theorem mirrors_place {i : Insertion} (h : e.Coherent)
    (resident : e.pool.frame? page.id = some ref.frame) (write : ref.permission = .readWrite) :
    Mirrors t (.insertInto i) e notes (e.place t { i with noted := true } ref page)
      ((e.noting notes).place t i ref page) := by
  rw [place, place]
  cases inserted : page.insert i.tuple with
  | error err => exact .quiet rfl rfl rfl rfl
  | ok both =>
    obtain ⟨id, new⟩ := both
    obtain ⟨-, at_page, -, same, -⟩ := Page.insert_cases inserted
    exact mirrors_endChange (c := .insertInto i) h (same ▸ resident) write rfl (at_page.trans same.symm)

/-- A step does the same whether the pool takes note of what it changes or not. -/
theorem mirrors_step (h : e.Coherent) (notes : FinMap TxnId (List PageId)) (t : TxnId) (c : Call) :
    Mirrors t c e notes (e.step t c.asNoted) ((e.noting notes).step t c) := by
  cases c with
  | lock q mode =>
    have locks : (e.noting notes).locks = e.locks := rfl
    simp only [step, Call.asNoted, locks]
    rcases e.locks.acquire t q mode with ⟨locks, reply⟩
    cases reply <;> exact .quiet rfl rfl rfl rfl
  | fetch q permission => exact mirrors_withPage h fun _ _ _ _ _ _ => .quiet rfl rfl rfl rfl
  | insert table tuple =>
    have file : (e.noting notes).file table = e.file table := rfl
    simp only [step, Call.asNoted, file]
    cases e.file table with
    | error err => exact .quiet rfl rfl rfl rfl
    | ok f => exact .quiet rfl rfl rfl rfl
  | insertInto i =>
    obtain ⟨f, tuple, noted, stage⟩ := i
    cases stage with
    | check =>
      simp only [step, stepInsert, Call.asNoted]
      split
      · exact .quiet rfl rfl rfl rfl
      · exact .quiet rfl rfl rfl rfl
    | probe n numPages =>
      simp only [step, stepInsert, Call.asNoted]
      split
      · exact mirrors_withPage h fun _ _ page _ _ _ => .quiet rfl rfl rfl rfl
      · exact .quiet rfl rfl rfl rfl
    | grow => exact .quiet rfl rfl rfl rfl
    | fill n numPages | settle n =>
      refine mirrors_withPage h fun e₁ ref page coherent resident write => ?_
      dsimp only
      split
      · exact .quiet rfl rfl rfl rfl
      · exact mirrors_place coherent resident write
  | delete id? =>
    cases id? with
    | none => exact .quiet rfl rfl rfl rfl
    | some id =>
      have file : (e.noting notes).file id.page.table = e.file id.page.table := rfl
      simp only [step, Call.asNoted, file]
      cases e.file id.page.table with
      | error err => exact .quiet rfl rfl rfl rfl
      | ok f => exact .quiet rfl rfl rfl rfl
  | deleteFrom f id? noted =>
    cases id? with
    | none => exact .quiet rfl rfl rfl rfl
    | some id =>
      have pages : (e.noting notes).numPages f = e.numPages f := rfl
      simp only [step, Call.asNoted, checkDelete, pages]
      split
      · exact .quiet rfl rfl rfl rfl
      · exact .quiet rfl rfl rfl rfl
  | deleteAt id noted =>
    refine mirrors_withPage h fun e₁ ref page coherent resident write => ?_
    cases deleted : page.delete id with
    | error err => exact .quiet rfl rfl rfl rfl
    | ok new =>
      obtain ⟨at_page, -, same, -⟩ := Page.delete_cases deleted
      exact mirrors_endChange (c := .deleteAt id noted) coherent (same ▸ resident) write rfl
        (at_page.trans same.symm)
  | advance cursor =>
    have pages : (e.noting notes).numPages cursor.file = e.numPages cursor.file := rfl
    simp only [step, Call.asNoted, checkCursor, pages]
    split
    · exact .quiet rfl rfl rfl rfl
    · exact .quiet rfl rfl rfl rfl
    · split
      · exact .quiet rfl rfl rfl rfl
      · exact .quiet rfl rfl rfl rfl
  | turn cursor n => exact mirrors_withPage h fun _ _ _ _ _ _ => .quiet rfl rfl rfl rfl

end Engine

/-! ## Transactions at work, one of which goes past the pool -/

/-- Whether this is something that is asked of a file and not of the pool: an insertion into a file of the
pool's tables, or a deletion. -/
def Call.pastPool (e : Engine) : Call → Bool
  | .insertInto ⟨f, tuple, noted, stage⟩ => !noted && stage = .check &&
    e.catalog.file? f.id = some f && tuple.values.length = tuple.schema.size
  | .deleteFrom _ _ noted => !noted
  | _ => false

/-- Transactions at work, one of which may go past the pool. -/
structure Bypass where
  traffic : Traffic
  /-- What this transaction has changed, and whether through the pool. -/
  told : List (Change × Bool)

/-- What happens among transactions one of which may go past the pool. -/
inductive BypassEvent where
  /-- This transaction asks a file for something. -/
  | ask (call : Call)
  /-- Something else happens. -/
  | common (ev : TrafficEvent)

namespace Bypass

/-- What a transaction is told to have changed by an event, and whether through the pool. -/
def tells (t : TxnId) (s : Traffic) : TrafficEvent → List (Change × Bool)
  | .step u =>
    match s.calls.get? u with
    | some c => if u = t then
        ((Change.of? c (s.engine.step u c).2).map (·, c.noted)).toList else []
    | none => []
  | _ => []

/-- What an event leads to; none if its transaction may not do this now. The transaction that may go past
the pool does not end. -/
def next? (t : TxnId) (m : Bypass) : BypassEvent → Option Bypass
  | .ask call =>
    if call.pastPool m.traffic.engine && !m.traffic.calls.contains t then
      some { m with traffic := { m.traffic with calls := m.traffic.calls.insert t call } }
    else none
  | .common (.complete u commit faults) =>
    if u = t then none
    else (m.traffic.next? (.complete u commit faults)).map fun traffic => { m with traffic }
  | .common ev =>
    (m.traffic.next? ev).map fun traffic => ⟨traffic, m.told ++ tells t m.traffic ev⟩

/-- What a list of events leads to. -/
def run (t : TxnId) (m : Bypass) (es : List BypassEvent) : Option Bypass :=
  runEvents (next? t) m es

/-- What events lead to, by their kinds. -/
inductive Next (t : TxnId) (m : Bypass) : BypassEvent → Bypass → Prop
  | ask {call : Call} (past : call.pastPool m.traffic.engine = true) :
    m.Next t (.ask call)
      { m with traffic := { m.traffic with calls := m.traffic.calls.insert t call } }
  | start {u : TxnId} {call : Call} (request : call.isRequest = true) :
    m.Next t (.common (.start u call))
      { m with traffic := { m.traffic with calls := m.traffic.calls.insert u call } }
  | step {u : TxnId} {call : Call} (turn : m.traffic.calls.get? u = some call) :
    m.Next t (.common (.step u)) ⟨m.traffic.advance u call, m.told ++ if u = t then
      ((Change.of? call (m.traffic.engine.step u call).2).map (·, call.noted)).toList else []⟩
  | complete {u : TxnId} {commit : Bool} {faults : Faults} (other : u ≠ t) :
    m.Next t (.common (.complete u commit faults)) { m with traffic := m.traffic.finish u commit faults }

/-- An event that can happen is one of these. -/
theorem next_of_next? {t : TxnId} {m m' : Bypass} {ev : BypassEvent} (h : m.next? t ev = some m') :
    m.Next t ev m' := by
  cases ev with
  | ask call =>
    rw [next?, Option.ite_none_right_eq_some, Bool.and_eq_true] at h
    exact Option.some.inj h.2 ▸ .ask h.1.1
  | common ev =>
    cases ev with
    | complete u commit faults =>
      rw [next?, Option.ite_none_left_eq_some] at h
      obtain ⟨other, h⟩ := h
      obtain ⟨traffic, happened, rfl⟩ := Option.map_eq_some_iff.mp h
      cases Traffic.next_of_next? happened
      exact .complete other
    | start u call =>
      obtain ⟨traffic, happened, rfl⟩ := Option.map_eq_some_iff.mp h
      cases Traffic.next_of_next? happened with
      | start request idle =>
        simp only [tells, List.append_nil]
        exact .start request
    | step u =>
      obtain ⟨traffic, happened, rfl⟩ := Option.map_eq_some_iff.mp h
      cases Traffic.next_of_next? happened with
      | step turn =>
        simp only [tells, turn]
        exact .step turn

variable {t u : TxnId} {m m' : Bypass} {s : Traffic} {first : Rows} {p : PageId}

/-- Transactions that do the same, of all of which the pool takes note. -/
structure Shadows (t : TxnId) (s : Traffic) (m : Bypass) : Prop where
  engine : m.traffic.engine = s.engine.noting m.traffic.engine.pool.dirtied
  calls : ∀ u, s.calls.get? u = (m.traffic.calls.get? u).map Call.asNoted
  others : ∀ u ≠ t, ∀ c, m.traffic.calls.get? u = some c → c.noted = true
  logs : s.logs = m.traffic.logs
  same : ∀ u ≠ t, m.traffic.engine.pool.dirtied.get? u = s.engine.pool.dirtied.get? u
  /-- The pool has noted what has been changed through it. -/
  noted : ∀ p, m.traffic.engine.pool.Noted t p ↔ ∃ c, (c, true) ∈ m.told ∧ c.id.page = p
  told : m.told.map Prod.fst = m.traffic.changes t

/-- Calls go on to the same, of which the pool takes note. -/
theorem get?_follow_asNoted {calls calls' : FinMap TxnId Call}
    (h : ∀ v, calls'.get? v = (calls.get? v).map Call.asNoted) (progress : Progress) (v : TxnId) :
    (Traffic.follow calls' u progress.asNoted).get? v
      = ((Traffic.follow calls u progress).get? v).map Call.asNoted := by
  cases progress with
  | done result =>
    simp only [Traffic.follow, Progress.asNoted, FinMap.get?_erase, h]
    split <;> rfl
  | goesOn next =>
    simp only [Traffic.follow, Progress.asNoted, FinMap.get?_insert, h]
    split <;> rfl
  | waits q => exact h v

namespace Shadows

/-- Both begin with the same. -/
theorem start (h : Shadows t s m) {c : Call} (other : u ≠ t → c.noted = true) :
    Shadows t { s with calls := s.calls.insert u c.asNoted }
      { m with traffic := { m.traffic with calls := m.traffic.calls.insert u c } } where
  engine := h.engine
  calls v := by
    dsimp only
    rw [FinMap.get?_insert, FinMap.get?_insert, h.calls]
    split
    · rfl
    · rfl
  others v ne d hd := by
    dsimp only at hd
    rw [FinMap.get?_insert] at hd
    split at hd
    · next eq => exact Option.some.inj hd ▸ other (eq ▸ ne)
    · exact h.others v ne d hd
  logs := h.logs
  same := h.same
  noted := h.noted
  told := h.told

/-- Both take the same step. -/
theorem advance (h : Shadows t s m) (sound : s.Sound first) {c : Call}
    (turn : m.traffic.calls.get? u = some c) :
    Shadows t (s.advance u c.asNoted) ⟨m.traffic.advance u c, m.told ++ if u = t then
      ((Change.of? c (m.traffic.engine.step u c).2).map (·, c.noted)).toList else []⟩ := by
  have mirrors := Engine.mirrors_step sound.engine.toCoherent m.traffic.engine.pool.dirtied u c
  rw [← h.engine] at mirrors
  refine ⟨mirrors.engine, ?calls, ?others, ?logs, ?same, ?noted, ?told⟩
  case calls =>
    intro v
    rw [Traffic.calls_advance, Traffic.calls_advance, mirrors.progress]
    exact get?_follow_asNoted h.calls _ v
  case others =>
    intro v ne d hd
    rcases Traffic.get?_follow_cases hd with old | ⟨rfl, onwards⟩
    · exact h.others v ne d old
    · rw [Engine.noted_of_goesOn (Prod.ext rfl onwards)]
      exact h.others v ne c turn
  case logs =>
    have log : s.log u = m.traffic.log u := by rw [Traffic.log, h.logs, Traffic.log]
    have rows : s.engine.currentRow = m.traffic.engine.currentRow := by
      rw [h.engine]
      rfl
    simp only [Traffic.advance, mirrors.progress, Change.of?_asNoted, h.logs, log, rows]
  case same =>
    intro v ne
    exact mirrors.same v (fun eq => h.others u (eq ▸ ne) c turn) (h.same v ne)
  case noted =>
    intro q
    have before : q ∈ m.traffic.engine.pool.dirtied.getD t [] ↔ _ := h.noted q
    rw [Traffic.engine_advance, mirrors.noted, before]
    by_cases eq : u = t
    · subst eq
      cases Change.of? c (m.traffic.engine.step u c).2 with
      | none => simp
      | some change =>
        simp only [true_and, Option.some.injEq, exists_eq_left', if_true, Option.map_some,
          Option.toList_some, List.mem_append, List.mem_singleton, Prod.mk.injEq]
        constructor
        · rintro (⟨through, here⟩ | ⟨d, mem, here⟩)
          · exact ⟨change, .inr ⟨rfl, through.symm⟩, here⟩
          · exact ⟨d, .inl mem, here⟩
        · rintro ⟨d, mem | ⟨rfl, through⟩, here⟩
          · exact .inr ⟨d, mem, here⟩
          · exact .inl ⟨through.symm, here⟩
    · simp [eq, Ne.symm eq]
  case told =>
    rw [Traffic.changes_advance, List.map_append, h.told]
    by_cases eq : t = u
    · rw [if_pos eq, if_pos eq.symm, eq]
      cases Change.of? c (m.traffic.engine.step u c).2 <;> rfl
    · rw [if_neg eq, if_neg (Ne.symm eq), List.map_nil, List.append_nil]

/-- Both end another transaction. -/
theorem finish (h : Shadows t s m) (sound : s.Sound first) (other : u ≠ t) (commit : Bool)
    (faults : Faults) : Shadows t (s.finish u commit faults)
      { m with traffic := m.traffic.finish u commit faults } := by
  obtain ⟨notes, ended, forgotten, kept⟩ := Engine.complete_noting sound.engine (h.same u other) commit faults
  rw [← h.engine] at ended
  rcases hc : s.engine.complete u commit faults with ⟨e', result⟩
  obtain ⟨_, _, completes, -⟩ := Engine.completes_complete sound.engine hc
  rw [hc] at ended
  have engine : (m.traffic.finish u commit faults).engine = e'.noting notes := congrArg Prod.fst ended
  have engine' : (s.finish u commit faults).engine = e' := congrArg Prod.fst hc
  refine ⟨?engine, h.calls, h.others, ?logs, ?same, ?noted, ?told⟩
  case engine =>
    rw [engine, engine']
    rfl
  case logs => exact congrArg (·.erase u) h.logs
  case same =>
    intro v ne
    rw [engine, engine']
    by_cases eq : v = u
    · rw [eq]
      exact forgotten.trans completes.forgotten.symm
    · exact (kept v eq).trans ((h.same v ne).trans (completes.dirtied v eq).symm)
  case noted =>
    intro q
    have same : notes.getD t [] = m.traffic.engine.pool.dirtied.getD t [] :=
      congrArg (Option.getD · []) (kept t other.symm)
    rw [← h.noted, engine, Pool.Noted, Pool.Noted, ← same]
    rfl
  case told => exact h.told.trans (Traffic.changes_finish_of_ne commit faults other.symm).symm

end Shadows

/-- Whatever happens, there are transactions that do the same, of all of which the pool takes note. -/
theorem shadows_next (sound : s.Sound first) (h : Shadows t s m) {ev : BypassEvent}
    (hn : m.next? t ev = some m') : ∃ s', s'.Sound first ∧ Shadows t s' m' := by
  cases next_of_next? hn with
  | @ask call past =>
    refine ⟨_, sound.start ?_ t, h.start fun ne => absurd rfl ne⟩
    cases call with
    | insertInto i =>
      obtain ⟨f, tuple, noted, stage⟩ := i
      simp only [Call.pastPool, Bool.and_eq_true, decide_eq_true_eq] at past
      obtain ⟨⟨⟨-, rfl⟩, registered⟩, complete⟩ := past
      rw [h.engine] at registered
      exact ⟨rfl, complete, registered, trivial⟩
    | deleteFrom f id? noted => rfl
    | lock | fetch | insert | delete | deleteAt | advance | turn => cases past
  | @start u call request =>
    have noted := Call.noted_of_isRequest request
    refine ⟨_, sound.start ?_ u, h.start fun _ => noted⟩
    rw [Call.asNoted_of_noted noted]
    exact Call.sound_of_isRequest request
  | @step u call turn =>
    have turn' : s.calls.get? u = some call.asNoted := by rw [h.calls, turn, Option.map_some]
    exact ⟨_, sound.advance turn', h.advance sound turn⟩
  | complete other => exact ⟨_, sound.finish _ _ _, h.finish sound other _ _⟩

/-- Transactions that begin with an engine nobody has used. -/
def quiet (e : Engine) : Bypass := ⟨.quiet e, []⟩

/-- After every run there are transactions that have done the same, of all of which the pool has taken
note. -/
theorem exists_shadows {e : Engine} (fresh : e.Fresh) {es : List BypassEvent}
    (h : (quiet e).run t es = some m) : ∃ s, s.Sound e.storedRow ∧ Shadows t s m := by
  refine runEvents_induction (motive := fun m => ∃ s, s.Sound e.storedRow ∧ Shadows t s m) ?_ h
    ⟨.quiet e, Traffic.sound_quiet fresh, ?_⟩
  · rintro m m' ev - happened ⟨s, sound, shadows⟩
    exact shadows_next sound shadows happened
  · obtain ⟨capacity, pool⟩ := fresh.pool
    refine ⟨rfl, fun _ => rfl, nofun, rfl, fun _ _ => rfl, fun p => ?_, rfl⟩
    rw [show (quiet e).traffic.engine.pool = Pool.new capacity from pool]
    simp [quiet, Pool.Noted, Pool.new]

/-- What the transaction has changed. -/
def changes (m : Bypass) : List Change :=
  m.told.map Prod.fst

/-- Whether one of the transaction's changes of a page has gone through the pool. -/
def Through (m : Bypass) (p : PageId) : Prop :=
  ∃ c, (c, true) ∈ m.told ∧ c.id.page = p

/-- **The fate of changes past the pool.** A transaction changes rows through the pool and past it, in any
run, and is then committed or aborted without an error. What becomes of its changes is decided for each
page. If at least one of its changes of the page has gone through the pool, all of them are written by a
commit and are undone by an abort, and the page is clean. If all have gone past the pool, they are neither
written nor undone, and the page stays marked as changed by the transaction that is over. -/
theorem fate_of_changes {e e' : Engine} (fresh : e.Fresh) {es : List BypassEvent}
    (h : (quiet e).run t es = some m) {commit : Bool} {faults : Faults}
    (hc : m.traffic.engine.complete t commit faults = (e', .ok ())) :
    (∀ c ∈ m.changes, (m.traffic.log t).before.contains c.id.page = true) ∧
    (∀ p, e'.owner? p = some t → (m.traffic.log t).before.contains p = true) ∧
    ∀ p rows, (m.traffic.log t).before.get? p = some rows →
      (m.Through p → e'.owner? p = none ∧ ∀ slot,
        e'.currentRow ⟨p, slot⟩ = e'.storedRow ⟨p, slot⟩ ∧
        e'.storedRow ⟨p, slot⟩
          = if commit then Rows.after (fun r => rows r.slot) m.changes ⟨p, slot⟩ else rows slot) ∧
      (¬ m.Through p → e'.owner? p = some t ∧ ∀ slot,
        e'.currentRow ⟨p, slot⟩ = Rows.after (fun r => rows r.slot) m.changes ⟨p, slot⟩ ∧
        e'.storedRow ⟨p, slot⟩ = rows slot) := by
  obtain ⟨s, sound, shadows⟩ := exists_shadows fresh h
  rw [shadows.engine] at hc
  obtain ⟨stored, current, owner⟩ := Engine.ends_noted sound.engine hc
  have log : m.traffic.log t = s.log t := by rw [Traffic.log, ← shadows.logs, Traffic.log]
  have changes : m.changes = s.changes t := by
    rw [Bypass.changes, shadows.told, Traffic.changes, log, Traffic.changes]
  have noted : ∀ p, p ∈ m.traffic.engine.pool.dirtied.getD t [] ↔ m.Through p := shadows.noted
  rw [log, changes]
  refine ⟨fun c mem => sound.contains_before mem, fun p mine => ?marked, fun p rows hb => ?fate⟩
  case marked =>
    rw [owner, Option.ite_none_left_eq_some] at mine
    exact (sound.kept t p).mp mine.2
  case fate =>
    have mine := sound.owner?_of_before hb
    have before := sound.before t p rows hb
    have pending : ∀ slot, s.engine.currentRow ⟨p, slot⟩
        = Rows.after (fun r => rows r.slot) (s.changes t) ⟨p, slot⟩ := by
      intro slot
      rw [sound.rows t p slot mine]
      exact Rows.after_congr (before slot).symm
    constructor
    · intro through
      have mem := (noted p).mpr through
      refine ⟨by rw [owner, if_pos mem], fun slot => ?_⟩
      rw [current, stored, ← pending, before]
      cases commit <;> simp [mem]
    · intro past
      have out : p ∉ m.traffic.engine.pool.dirtied.getD t [] := fun mem => past ((noted p).mp mem)
      refine ⟨by rw [owner, if_neg out, mine], fun slot => ?_⟩
      rw [current, stored, ← pending, before]
      simp [out]

/-- A transaction inserts a number into the file of the table of `Engine.sample`, in so many steps. -/
def insertingPast (t : TxnId) (n : Int32) (steps : Nat) : List BypassEvent :=
  .ask (.insertInto ⟨numbers, numberRecord n, false, .check⟩)
    :: List.replicate steps (.common (.step t))

/-- A transaction fills a page, half of it past the pool, and begins another one past the pool. -/
def mixing : List BypassEvent :=
  (Traffic.inserting ⟨1⟩ 7 5).map .common ++ insertingPast ⟨1⟩ 8 3 ++ insertingPast ⟨1⟩ 9 5

/-- After a commit the file holds the changes of the first page, also the one that has gone past the pool,
and nothing of the second page, which stays marked. -/
theorem fate_of_changes_mixing : ∃ m e', (quiet (Engine.sample.withCapacity 2)).run ⟨1⟩ mixing = some m ∧
    m.told.map Prod.snd = [true, false, false] ∧
    m.traffic.engine.complete ⟨1⟩ true = (e', .ok ()) ∧
    e'.storedRow ⟨⟨.file ["t"], 0⟩, 0⟩ = some [.int 7] ∧
    e'.storedRow ⟨⟨.file ["t"], 0⟩, 1⟩ = some [.int 8] ∧
    e'.owner? ⟨.file ["t"], 0⟩ = none ∧
    e'.storedRow ⟨⟨.file ["t"], 1⟩, 0⟩ = none ∧ e'.currentRow ⟨⟨.file ["t"], 1⟩, 0⟩ = some [.int 9] ∧
    e'.owner? ⟨.file ["t"], 1⟩ = some ⟨1⟩ := by
  have ran : ((quiet (Engine.sample.withCapacity 2)).run ⟨1⟩ mixing).map (fun m => (m.told,
      (m.traffic.engine.complete ⟨1⟩ true).2)) = some ([(⟨⟨⟨.file ["t"], 0⟩, 0⟩, some [.int 7]⟩, true),
        (⟨⟨⟨.file ["t"], 0⟩, 1⟩, some [.int 8]⟩, false),
        (⟨⟨⟨.file ["t"], 1⟩, 0⟩, some [.int 9]⟩, false)], .ok ()) := by decide +kernel
  have old : ((quiet (Engine.sample.withCapacity 2)).run ⟨1⟩ mixing).map (fun m =>
      [0, 1].map fun n => ((m.traffic.log ⟨1⟩).before.get? ⟨.file ["t"], n⟩).map (· 0))
        = some [some none, some none] := by decide +kernel
  obtain ⟨m, run, seen⟩ := Option.map_eq_some_iff.mp ran
  rw [run, Option.map_some, Option.some.injEq] at old
  simp only [Prod.mk.injEq, List.map_cons, List.map_nil, List.cons.injEq, and_true,
    Option.map_eq_some_iff] at seen old
  obtain ⟨told, committed⟩ := seen
  obtain ⟨⟨rows, first, -⟩, rows', second, empty⟩ := old
  obtain ⟨-, -, pages⟩ := fate_of_changes (Engine.fresh_sample.withCapacity 2) run (Prod.ext rfl committed)
  have changes : m.changes = [⟨⟨⟨.file ["t"], 0⟩, 0⟩, some [.int 7]⟩,
      ⟨⟨⟨.file ["t"], 0⟩, 1⟩, some [.int 8]⟩, ⟨⟨⟨.file ["t"], 1⟩, 0⟩, some [.int 9]⟩] := by
    rw [Bypass.changes, told]
    rfl
  have through : m.Through ⟨.file ["t"], 0⟩ := by
    refine ⟨⟨⟨⟨.file ["t"], 0⟩, 0⟩, some [.int 7]⟩, ?_, rfl⟩
    rw [told]
    exact .head _
  have past : ¬ m.Through ⟨.file ["t"], 1⟩ := by
    rintro ⟨c, mem, here⟩
    rw [told] at mem
    simp at mem
    simp [mem] at here
  obtain ⟨clean, written⟩ := (pages _ rows first).1 through
  obtain ⟨marked, left⟩ := (pages _ rows' second).2 past
  rw [changes] at written left
  refine ⟨m, _, run, by rw [told]; rfl, Prod.ext rfl committed, (written 0).2, (written 1).2, clean,
    (left 0).2.trans empty, (left 0).1, marked⟩

/-- A row that has been inserted past the pool is not written by the commit, and an abort leaves it in
memory; the page stays marked either way. -/
theorem unwritten_past : ∃ m committed aborted, (quiet .sample).run ⟨1⟩ (insertingPast ⟨1⟩ 7 4) = some m ∧
    m.changes = [⟨⟨⟨.file ["t"], 0⟩, 0⟩, some [.int 7]⟩] ∧
    m.traffic.engine.complete ⟨1⟩ true = (committed, .ok ()) ∧
    committed.storedRow ⟨⟨.file ["t"], 0⟩, 0⟩ = none ∧
    committed.owner? ⟨.file ["t"], 0⟩ = some ⟨1⟩ ∧
    m.traffic.engine.complete ⟨1⟩ false = (aborted, .ok ()) ∧
    aborted.currentRow ⟨⟨.file ["t"], 0⟩, 0⟩ = some [.int 7] ∧
    aborted.owner? ⟨.file ["t"], 0⟩ = some ⟨1⟩ := by
  have ran : ((quiet .sample).run ⟨1⟩ (insertingPast ⟨1⟩ 7 4)).map (fun m => (m.changes,
      [true, false].map fun commit => (m.traffic.engine.complete ⟨1⟩ commit).2))
        = some ([⟨⟨⟨.file ["t"], 0⟩, 0⟩, some [.int 7]⟩], [.ok (), .ok ()]) := by decide +kernel
  have left : ((quiet .sample).run ⟨1⟩ (insertingPast ⟨1⟩ 7 4)).map (fun m => (
      (m.traffic.engine.complete ⟨1⟩ true).1.storedRow ⟨⟨.file ["t"], 0⟩, 0⟩,
      (m.traffic.engine.complete ⟨1⟩ false).1.currentRow ⟨⟨.file ["t"], 0⟩, 0⟩,
      [true, false].map fun commit =>
        (m.traffic.engine.complete ⟨1⟩ commit).1.owner? ⟨.file ["t"], 0⟩))
          = some (none, some [.int 7], [some ⟨1⟩, some ⟨1⟩]) := by decide +kernel
  obtain ⟨m, run, told⟩ := Option.map_eq_some_iff.mp ran
  rw [run, Option.map_some, Option.some.injEq] at left
  simp only [Prod.mk.injEq, List.map_cons, List.map_nil, List.cons.injEq, and_true] at told left
  obtain ⟨changes, committed, aborted⟩ := told
  obtain ⟨unwritten, kept, marked, marked'⟩ := left
  exact ⟨m, _, _, run, changes, Prod.ext rfl committed, unwritten, marked, Prod.ext rfl aborted, kept,
    marked'⟩

end Bypass

end RowStore
