import RowStore.Proofs.Scan.Listing
import RowStore.Proofs.Traffic.Growth
import RowStore.Proofs.Traffic.History

/-! # Scans that are repeated
A transaction that only reads goes through a table again and again, among others at work
(`Reader`). Its locks keep the rows of every page that it has been through (`Engine.Keeps`), but no lock
keeps the file from growing. Main statements: `drained_again`, a scan yields what an earlier one has
yielded, and after it only rows of pages that have been appended since; and `drained_phantom`, a run in
which there are such rows. -/

namespace RowStore

/-! ## What a scan tells of a row -/

/-- What a scan tells of a row that it goes through, if it shows the table in this way: its values, if
they fit the columns under which they are shown. -/
def shown (view? : Option View) (row : Option RecordId × List Value) :
    Except FileError (Option RecordId × List Value) :=
  match view? with
  | none => .ok row
  | some v => (fun _ => row) <$> liftRecord (v.schema.validate row.2)

theorem Scan.row_present (s : Scan) (tuple : Tuple) :
    (s.present tuple).map Tuple.row = shown s.view? tuple.row := by
  obtain ⟨cursor, view?⟩ := s
  cases view? with
  | none => rfl
  | some v =>
    simp only [present, shown, Tuple.new, Tuple.row]
    cases v.schema.validate tuple.values with
    | ok _ => rfl
    | error err => rfl

/-! ## A transaction that reads -/

/-- Whether a call fetches pages, and changes none. -/
def Call.reads : Call → Bool
  | .fetch .. | .advance _ | .turn .. => true
  | _ => false

/-- Whether a transaction goes on in an event, and asks for no insertion or deletion. -/
def TrafficEvent.readsOnly (t : TxnId) : TrafficEvent → Bool
  | .start u (.insert ..) | .start u (.delete _) | .complete u .. => u ≠ t
  | _ => true

theorem TrafficEvent.ne_complete_of_readsOnly {t : TxnId} {ev : TrafficEvent}
    (h : ev.readsOnly t = true) (commit : Bool) (faults : Faults) : ev ≠ .complete t commit faults := by
  rintro rfl
  simp [readsOnly] at h

/-- Whether an event is a step of what a transaction has asked for. -/
def TrafficEvent.isStepOf (t : TxnId) : TrafficEvent → Bool
  | .step u => u = t
  | _ => false

/-- A scan that has come to its end. -/
structure Drained where
  /-- The number of pages of the file when nothing was left. -/
  pages : Nat
  /-- What the scan has yielded, one after another. -/
  yielded : List (Except FileError Tuple)

/-- The values and the record ids that a scan has yielded. -/
def Drained.told (d : Drained) : List (Except FileError (Option RecordId × List Value)) :=
  d.yielded.map (·.map Tuple.row)

/-- A transaction that goes through a table, and others. -/
structure Reader where
  traffic : Traffic
  scan : Scan
  /-- Whether the transaction looks for more tuples of its scan. -/
  searching : Bool
  /-- What the scan has yielded since it was opened. -/
  yielded : List (Except FileError Tuple)
  /-- The scans that have come to their ends. -/
  drained : List Drained

/-- What happens while a transaction goes through a table. -/
inductive ReaderEvent where
  /-- Whatever the others do, and what the transaction does beside its scan. -/
  | traffic (ev : TrafficEvent)
  /-- The scan is opened, from the first tuple on. -/
  | reopen
  /-- The transaction asks whether there is a tuple left. -/
  | search
  /-- A step is taken of the search. -/
  | step
  /-- The transaction takes the next tuple that the scan holds. -/
  | take

namespace Reader

/-- A reader of a table on which no transaction has worked yet. -/
def start (e : Engine) (f : HeapFile) (view? : Option View) : Reader :=
  ⟨.quiet e, ⟨(Cursor.new f).opened, view?⟩, false, [], []⟩

/-- What a step of the search comes to; a search that fails leaves the cursor where it has come to. -/
def settle (r : Reader) (call : Call) : Progress → Reader
  | .done (.ok (.advanced cursor true)) => { r with scan.cursor := cursor, searching := false }
  | .done (.ok (.advanced cursor false)) =>
    { r with
      scan.cursor := cursor
      searching := false
      drained := r.drained ++ [⟨r.traffic.engine.numPages cursor.file, r.yielded⟩] }
  | .done _ =>
    match call with
    | .advance cursor | .turn cursor _ => { r with scan.cursor := cursor, searching := false }
    | _ => { r with searching := false }
  | _ => r

/-- What an event leads to; none if it cannot happen now. -/
def next? (t : TxnId) (r : Reader) : ReaderEvent → Option Reader
  | .traffic ev =>
    if r.searching && ev.isStepOf t then none
    else (r.traffic.next? ev).map fun traffic => { r with traffic }
  | .reopen =>
    if r.searching then none
    else some { r with scan.cursor := r.scan.cursor.opened, yielded := [] }
  | .search =>
    if r.searching then none
    else (r.traffic.next? (.start t (.advance r.scan.cursor))).map fun traffic =>
      { r with traffic, searching := true }
  | .step =>
    if r.searching then
      (r.traffic.calls.get? t).map fun call =>
        { r with traffic := r.traffic.advance t call }.settle call (r.traffic.engine.step t call).2
    else none
  | .take =>
    match r.searching, r.scan.cursor.position? with
    | false, some ⟨_, _ :: _⟩ =>
      some { r with scan := r.scan.take.1, yielded := r.yielded ++ [r.scan.take.2] }
    | _, _ => none

/-- What a list of events leads to. -/
def run (t : TxnId) (r : Reader) (es : List ReaderEvent) : Option Reader :=
  runEvents (next? t) r es

end Reader

namespace Engine

variable {e e' : Engine} {t : TxnId} {f : HeapFile} {n m : Nat} {rows : List PlacedRow}
  {place : CursorPosition} {c : Call} {progress : Progress}

/-! ## Pages that a transaction has been through -/

/-- The rows of so many pages of a file. -/
def rowsBelow (e : Engine) (f : HeapFile) (n : Nat) : List PlacedRow :=
  (List.range n).flatMap (e.rowsOn f)

theorem rowsBelow_succ : e.rowsBelow f (n + 1) = e.rowsBelow f n ++ e.rowsOn f n := by
  rw [rowsBelow, List.range_succ, List.flatMap_append, rowsBelow]
  simp

/-- The rows of more pages are those of fewer, and then those of the others. -/
theorem rowsBelow_add : e.rowsBelow f (n + m) =
    e.rowsBelow f n ++ (List.range' n m).flatMap (e.rowsOn f) := by
  rw [rowsBelow, List.range_eq_range', ← List.range'_append_1, List.flatMap_append, rowsBelow,
    List.range_eq_range', Nat.zero_add]

/-- Whether a transaction has locked so many pages of a file, and these are their rows. -/
structure Keeps (e : Engine) (t : TxnId) (f : HeapFile) (n : Nat) (rows : List PlacedRow) : Prop where
  locked : ∀ m < n, e.locks.holdsAny t ⟨f.id, m⟩ = true
  inside : n ≤ e.numPages f
  rows : e.rowsBelow f n = rows

theorem Keeps.zero : e.Keeps t f 0 [] := ⟨nofun, Nat.zero_le _, rfl⟩

/-- One more page is kept when it has been fetched. -/
theorem Keeps.succ (h : e.Keeps t f n rows) (locked : e.locks.holdsAny t ⟨f.id, n⟩ = true)
    (inside : n < e.numPages f) : e.Keeps t f (n + 1) (rows ++ e.rowsOn f n) where
  locked m lt := by
    rcases Nat.lt_succ_iff_lt_or_eq.mp lt with before | rfl
    · exact h.locked m before
    · exact locked
  inside := inside
  rows := by rw [rowsBelow_succ, h.rows]

/-! ## Searches -/

/-- Whether a call looks for tuples of a table from a place on. -/
def LooksFrom (f : HeapFile) (place : CursorPosition) (c : Call) : Prop :=
  c = .advance ⟨f, some place⟩ ∨ place.buffered = [] ∧ c = .turn ⟨f, some place⟩ place.nextPage

/-- What a step of a search for tuples comes to. -/
inductive Looks (e : Engine) (t : TxnId) (f : HeapFile) (place : CursorPosition) (c : Call) :
    Progress → Prop
  /-- There are tuples at hand. -/
  | holds : Looks e t f place c (.done (.ok (.advanced ⟨f, some place⟩ true)))
  /-- Behind the last page there are none. -/
  | ends (nothing : place.buffered = []) (past : e.numPages f ≤ place.nextPage) :
    Looks e t f place c (.done (.ok (.advanced ⟨f, some place⟩ false)))
  /-- A page is needed. -/
  | turns (nothing : place.buffered = []) :
    Looks e t f place c (.goesOn (.turn ⟨f, some place⟩ place.nextPage))
  /-- A page is fetched, and is the next to be gone through. -/
  | reads {page : Page} (nothing : place.buffered = [])
    (locked : e.locks.holdsAny t ⟨f.id, place.nextPage⟩ = true)
    (inside : place.nextPage < e.numPages f)
    (tuples : page.tuples.map Tuple.row = (e.rowsOn f place.nextPage).map PlacedRow.told) :
    Looks e t f place c (.goesOn (.advance ⟨f, some ⟨place.nextPage + 1, page.tuples⟩⟩))
  /-- The page cannot be fetched. -/
  | fails {err : FileError} (at_page : c = .turn ⟨f, some place⟩ place.nextPage) :
    Looks e t f place c (.done (.error err))
  | waits {p : PageId} : Looks e t f place c (.waits p)

/-- A page that is in memory is one of its file. -/
theorem Coherent.lt_numPages {page : Page} (h : e.Coherent) (found : e.catalog.file? f.id = some f)
    (here : e.pool.page? ⟨f.id, n⟩ = some page) : n < e.numPages f := by
  obtain ⟨-, stored, on_disk, -⟩ := h.resident _ _ here
  obtain ⟨-, -, -, g, found', -, covers⟩ := spec_of_stored? on_disk
  obtain rfl : g = f := Option.some.inj (found'.symm.trans found)
  exact covers.lt_numPages

/-- A step of a search is one of these. -/
theorem looks_step (h : e.Coherent) (found : e.catalog.file? f.id = some f)
    (looking : LooksFrom f place c) (hs : e.step t c = (e', progress)) :
    e'.Looks t f place c progress := by
  obtain ⟨n, buffered⟩ := place
  rcases looking with rfl | ⟨nothing, rfl⟩
  · obtain ⟨rfl, rfl⟩ := Prod.mk.inj hs
    cases buffered with
    | cons tuple rest => exact .holds
    | nil =>
      simp only [checkCursor]
      split
      · exact .turns rfl
      · next past => exact .ends rfl (Nat.not_lt.mp past)
  · obtain rfl : buffered = [] := nothing
    rcases asked : e.getPage t ⟨f.id, n⟩ .readOnly with ⟨e₁, fetch⟩
    simp only [step, stepCursor, withPage, asked] at hs
    obtain ⟨fetches, spec⟩ := fetches_getPage h asked
    cases fetch with
    | waiting =>
      obtain ⟨rfl, rfl⟩ := Prod.mk.inj hs
      exact .waits
    | failed err =>
      obtain ⟨rfl, rfl⟩ := Prod.mk.inj hs
      exact .fails rfl
    | fetched ref =>
      obtain ⟨-, -, held⟩ := spec ref rfl
      obtain ⟨page, here, current, -⟩ := current?_of_fetched h asked
      simp only [here] at hs
      obtain ⟨rfl, rfl⟩ := Prod.mk.inj hs
      have found' : e₁.catalog.file? f.id = some f := fetches.catalog ▸ found
      exact .reads rfl (LockTable.holdsAny_of_holds held) (fetches.coherent.lt_numPages found' current)
        (fetches.coherent.rows_tuples found' (current?_of_resident current))

/-- A call that only reads tells of no change, and goes on with reading. -/
theorem reads_step (reads : c.reads = true) (hs : e.step t c = (e', progress)) :
    Change.of? c progress = none ∧ ∀ next, progress = .goesOn next → next.reads = true := by
  cases c with
  | lock | insert | insertInto | delete | deleteFrom | deleteAt => exact nomatch reads
  | fetch p permission =>
    refine ⟨rfl, ?_⟩
    rintro next rfl
    obtain ⟨_, _, _, -, -, hs⟩ := goesOn_of_withPage hs
    cases hs
  | turn cursor n =>
    refine ⟨rfl, ?_⟩
    rintro next rfl
    obtain ⟨_, _, _, -, -, hs⟩ := goesOn_of_withPage hs
    cases hs
    rfl
  | advance cursor =>
    refine ⟨rfl, ?_⟩
    rintro next rfl
    obtain ⟨-, going⟩ := Prod.mk.inj hs
    rw [checkCursor] at going
    split at going
    · cases going
    · cases going
    · split at going
      · cases going
        rfl
      · cases going

end Engine

namespace Traffic

variable {first : Rows} {s s' : Traffic} {t u : TxnId} {f : HeapFile} {n : Nat}
  {rows : List PlacedRow} {ev : TrafficEvent}

/-- What others do leaves a search where it is. -/
theorem get?_of_next {c : Call} (turn : s.calls.get? t = some c) (other : ev.isStepOf t = false)
    (hs : s.next? ev = some s') : s'.calls.get? t = some c := by
  cases next_of_next? hs with
  | @start u call request idle =>
    have ne : t ≠ u := by
      rintro rfl
      cases idle.symm.trans turn
    exact (FinMap.get?_insert_of_ne _ _ ne).trans turn
  | @step u call turn' =>
    have ne : u ≠ t := of_decide_eq_false other
    rw [advance, get?_follow_of_ne ne.symm, turn]
  | complete idle => exact turn

/-- The record of a transaction grows by its own changes only. -/
theorem log_advance_of_unchanged (s : Traffic) {t u : TxnId} {call : Call}
    (unchanged : t = u → Change.of? call (s.engine.step u call).2 = none) :
    (s.advance u call).log t = s.log t := by
  simp only [log, advance]
  cases told : Change.of? call (s.engine.step u call).2 with
  | none => rfl
  | some c =>
    have ne : t ≠ u := fun eq => by cases (unchanged eq).symm.trans told
    rw [FinMap.getD_insert, if_neg ne]

section Reads

variable (calls : ∀ c, s.calls.get? t = some c → c.reads = true) (reads : ev.readsOnly t = true)
  (hs : s.next? ev = some s')

include calls reads hs

/-- A transaction that asks for no insertion or deletion changes nothing, and goes on so. -/
theorem log_next_of_reads :
    s'.log t = s.log t ∧ ∀ c, s'.calls.get? t = some c → c.reads = true := by
  cases next_of_next? hs with
  | @start u call request idle =>
    refine ⟨rfl, fun c turn => ?_⟩
    rw [FinMap.get?_insert] at turn
    split at turn
    · next eq =>
      obtain rfl := Option.some.inj turn
      subst eq
      cases call with
      | insert | delete => simp [TrafficEvent.readsOnly] at reads
      | lock | insertInto | deleteFrom | deleteAt | turn => cases request
      | fetch | advance => rfl
    · exact calls c turn
  | @step u call turn =>
    refine ⟨s.log_advance_of_unchanged ?_, fun c turn' => ?_⟩
    · rintro rfl
      exact (Engine.reads_step (calls call turn) rfl).1
    · rw [calls_advance] at turn'
      rcases get?_follow_cases turn' with old | ⟨rfl, goes⟩
      · exact calls c old
      · exact (Engine.reads_step (calls call turn) rfl).2 c goes
  | @complete u commit faults idle =>
    have ne : t ≠ u := fun eq => of_decide_eq_true reads eq.symm
    refine ⟨?_, calls⟩
    rw [finish, log, FinMap.getD_erase, if_neg ne, log]

/-- A page that such a transaction has locked stays as it is. -/
theorem guards_next_of_reads {p : PageId} (h : s.Sound first)
    (held : s.engine.locks.holdsAny t p = true) : Guards t p s s' [] := by
  obtain ⟨new, guards⟩ := guards_next h held (TrafficEvent.ne_complete_of_readsOnly reads) hs
  have same : s'.changes t = s.changes t := congrArg TxnLog.changes (log_next_of_reads calls reads hs).1
  have nothing : new = [] := List.self_eq_append_right.mp (same.symm.trans guards.changes)
  exact nothing ▸ guards

end Reads

/-- Whether a transaction only asks for pages to read, and a table is registered for it. -/
structure Reading (first : Rows) (t : TxnId) (f : HeapFile) (s : Traffic) : Prop where
  sound : s.Sound first
  registered : s.engine.catalog.file? f.id = some f
  changes : s.changes t = []
  calls : ∀ c, s.calls.get? t = some c → c.reads = true

/-- A transaction that asks for no insertion or deletion goes on reading its table. -/
theorem Reading.next (h : s.Reading first t f) (reads : ev.readsOnly t = true)
    (hs : s.next? ev = some s') : s'.Reading first t f := by
  obtain ⟨log, calls⟩ := log_next_of_reads h.calls reads hs
  exact ⟨h.sound.next hs, (extends_next h.sound hs).catalog ▸ h.registered,
    (congrArg TxnLog.changes log).trans h.changes, calls⟩

/-- Pages that a reading transaction has been through keep their rows. -/
theorem Reading.keeps_next (h : s.Reading first t f) (reads : ev.readsOnly t = true)
    (hs : s.next? ev = some s') (keeps : s.engine.Keeps t f n rows) :
    s'.engine.Keeps t f n rows := by
  have guards : ∀ m < n, Guards t ⟨f.id, m⟩ s s' [] := fun m lt =>
    guards_next_of_reads h.calls reads hs h.sound (keeps.locked m lt)
  refine ⟨fun m lt => (guards m lt).held, ?inside, ?rows⟩
  case inside =>
    have longer := (extends_next h.sound hs).longer f.id f h.registered
    refine Nat.le_trans keeps.inside (Nat.div_le_div_right ?_)
    exact Nat.sub_le_sub_right (Nat.add_le_add_right longer _) 1
  case rows =>
    rw [← keeps.rows, Engine.rowsBelow, Engine.rowsBelow]
    refine List.flatMap_congr fun m mem => ?_
    have current := (guards m (List.mem_range.mp mem)).current
    simp only [Rows.after_nil] at current
    simp only [Engine.rowsOn, current]

end Traffic

namespace Reader

variable {e : Engine} {first : Rows} {t : TxnId} {f : HeapFile} {view? : Option View} {r r' : Reader}
  {s' : Traffic} {ev : TrafficEvent} {es : List ReaderEvent} {place : CursorPosition}
  {rows : List PlacedRow} {call : Call} {progress : Progress}

/-- What a scan tells of rows. -/
def telling (view? : Option View) (rows : List PlacedRow) :
    List (Except FileError (Option RecordId × List Value)) :=
  rows.map fun row => shown view? row.told

/-- Where the scan stands: its cursor, or the search for more tuples. -/
def StandsAt (r : Reader) (t : TxnId) (f : HeapFile) (place : CursorPosition) : Prop :=
  if r.searching then ∃ c, r.traffic.calls.get? t = some c ∧ Engine.LooksFrom f place c
  else r.scan.cursor = ⟨f, some place⟩

/-- What has been yielded since the scan was opened, with what it holds, is what the pages tell that it
has been through. -/
structure Follows (r : Reader) (t : TxnId) (f : HeapFile) (view? : Option View)
    (place : CursorPosition) (rows : List PlacedRow) : Prop where
  keeps : r.traffic.engine.Keeps t f place.nextPage rows
  told : r.yielded.map (·.map Tuple.row) ++ place.buffered.map (shown view? ·.row)
    = telling view? rows

/-- What holds at any time while a transaction that only reads goes through a table. -/
structure Sound (first : Rows) (t : TxnId) (f : HeapFile) (view? : Option View) (r : Reader) :
    Prop where
  traffic : r.traffic.Reading first t f
  view : r.scan.view? = view?
  follows : ∃ place rows, r.StandsAt t f place ∧ r.Follows t f view? place rows
  /-- A scan that has come to its end has been through so many pages. -/
  drained : ∀ d ∈ r.drained, ∃ rows, r.traffic.engine.Keeps t f d.pages rows ∧
    d.told = telling view? rows
  ordered : r.drained.Pairwise (·.pages ≤ ·.pages)

theorem sound_start (fresh : e.Fresh) (found : e.catalog.file? f.id = some f) :
    (start e f view?).Sound e.storedRow t f view? where
  traffic := ⟨Traffic.sound_quiet fresh, found, rfl, nofun⟩
  view := rfl
  follows := ⟨⟨0, []⟩, [], rfl, .zero, rfl⟩
  drained := nofun
  ordered := .nil

/-- What happens among the transactions takes nothing away from the reader. -/
theorem Sound.traffic_next (h : r.Sound first t f view?) (reads : ev.readsOnly t = true)
    (hs : r.traffic.next? ev = some s') : s'.Reading first t f ∧
      (∀ n rows, r.traffic.engine.Keeps t f n rows → s'.engine.Keeps t f n rows) ∧
      ∀ d ∈ r.drained, ∃ rows, s'.engine.Keeps t f d.pages rows ∧ d.told = telling view? rows := by
  have keeps : ∀ n rows, r.traffic.engine.Keeps t f n rows → s'.engine.Keeps t f n rows :=
    fun _ _ keeps => h.traffic.keeps_next reads hs keeps
  refine ⟨h.traffic.next reads hs, keeps, fun d mem => ?_⟩
  obtain ⟨rows, kept, told⟩ := h.drained d mem
  exact ⟨rows, keeps _ _ kept, told⟩

/-- A step of the search takes the scan further. -/
theorem Sound.settle (h : r.Sound first t f view?) (searching : r.searching = true)
    (turn : r.traffic.calls.get? t = some call) :
    ({ r with traffic := r.traffic.advance t call }.settle call
      (r.traffic.engine.step t call).2).Sound first t f view? := by
  obtain ⟨place, rows, stands, follows⟩ := h.follows
  rw [StandsAt, if_pos searching] at stands
  obtain ⟨c, turn', looking⟩ := stands
  obtain rfl := Option.some.inj (turn.symm.trans turn')
  have step : r.traffic.next? (.step t) = some (r.traffic.advance t call) := by
    rw [Traffic.next?, turn, Option.map_some]
  obtain ⟨reading, keeps, drained⟩ := h.traffic_next rfl step
  rcases hs : r.traffic.engine.step t call with ⟨e', progress⟩
  have engine : (r.traffic.advance t call).engine = e' := by rw [Traffic.advance, hs]
  have calls : (r.traffic.advance t call).calls = Traffic.follow r.traffic.calls t progress := by
    rw [Traffic.advance, hs]
  have looks := Engine.looks_step h.traffic.sound.engine.toCoherent h.traffic.registered looking hs
  have kept := keeps _ _ follows.keeps
  cases looks with
  | holds => exact ⟨reading, h.view, ⟨place, rows, rfl, kept, follows.told⟩, drained, h.ordered⟩
  | ends nothing past =>
    -- the scan has been through all pages that there are
    have all : place.nextPage = e'.numPages f := Nat.le_antisymm (engine ▸ kept.inside) past
    have told : r.yielded.map (·.map Tuple.row) = telling view? rows := by
      rw [← follows.told, nothing, List.map_nil, List.append_nil]
    refine ⟨reading, h.view, ⟨place, rows, rfl, kept, follows.told⟩, ?_, ?_⟩
    · intro d mem
      rcases List.mem_append.mp mem with old | new
      · exact drained d old
      · obtain rfl := List.mem_singleton.mp new
        dsimp only
        rw [engine, ← all]
        exact ⟨rows, engine ▸ kept, told⟩
    · refine List.pairwise_append.mpr ⟨h.ordered, List.pairwise_singleton _ _, ?_⟩
      intro d mem d' mem'
      obtain rfl := List.mem_singleton.mp mem'
      obtain ⟨_, kept', -⟩ := drained d mem
      exact kept'.inside
  | turns nothing =>
    refine ⟨reading, h.view, ⟨place, rows, ?_, kept, follows.told⟩, drained, h.ordered⟩
    exact (if_pos searching).mpr ⟨_, calls ▸ FinMap.get?_insert_self .., .inr ⟨nothing, rfl⟩⟩
  | @reads page nothing locked inside tuples =>
    -- one more page has been fetched, and the scan holds its tuples
    rw [← engine] at locked inside tuples
    have more := kept.succ locked inside
    refine ⟨reading, h.view, ⟨⟨place.nextPage + 1, page.tuples⟩, _, ?_, more, ?_⟩, drained, h.ordered⟩
    · exact (if_pos searching).mpr ⟨_, calls ▸ FinMap.get?_insert_self .., .inl rfl⟩
    · have told := follows.told
      rw [nothing, List.map_nil, List.append_nil] at told
      have tuples' := congrArg (List.map (shown view?)) tuples
      rw [List.map_map, List.map_map] at tuples'
      rw [telling, List.map_append]
      exact congr (congrArg _ told) tuples'
  | fails at_page =>
    subst at_page
    exact ⟨reading, h.view, ⟨place, rows, rfl, kept, follows.told⟩, drained, h.ordered⟩
  | waits =>
    refine ⟨reading, h.view, ⟨place, rows, ?_, kept, follows.told⟩, drained, h.ordered⟩
    exact (if_pos searching).mpr ⟨call, calls ▸ turn, looking⟩

/-- Whatever happens, the reader stays as it should be. -/
theorem Sound.next {ev : ReaderEvent} (h : r.Sound first t f view?)
    (reads : ∀ inner, ev = .traffic inner → inner.readsOnly t = true) (hs : r.next? t ev = some r') :
    r'.Sound first t f view? := by
  obtain ⟨place, rows, stands, follows⟩ := h.follows
  cases ev with
  | traffic ev =>
    rw [next?, Option.ite_none_left_eq_some] at hs
    obtain ⟨other, hs⟩ := hs
    obtain ⟨s', step, rfl⟩ := Option.map_eq_some_iff.mp hs
    obtain ⟨reading, keeps, drained⟩ := h.traffic_next (reads ev rfl) step
    refine ⟨reading, h.view, ⟨place, rows, ?_, keeps _ _ follows.keeps, follows.told⟩, drained,
      h.ordered⟩
    by_cases searching : r.searching = true
    · rw [StandsAt, if_pos searching] at stands
      obtain ⟨c, turn, looking⟩ := stands
      rw [searching, Bool.true_and, Bool.not_eq_true] at other
      exact (if_pos searching).mpr ⟨c, Traffic.get?_of_next turn other step, looking⟩
    · rw [StandsAt, if_neg searching] at stands
      exact (if_neg searching).mpr stands
  | reopen =>
    rw [next?, Option.ite_none_left_eq_some] at hs
    obtain ⟨idle, hs⟩ := hs
    obtain rfl := Option.some.inj hs
    rw [StandsAt, if_neg idle] at stands
    refine ⟨h.traffic, h.view, ⟨⟨0, []⟩, [], ?_, .zero, rfl⟩, h.drained, h.ordered⟩
    refine (if_neg idle).mpr ?_
    rw [stands]
    rfl
  | search =>
    rw [next?, Option.ite_none_left_eq_some] at hs
    obtain ⟨idle, hs⟩ := hs
    obtain ⟨s', step, rfl⟩ := Option.map_eq_some_iff.mp hs
    obtain ⟨reading, keeps, drained⟩ := h.traffic_next rfl step
    rw [StandsAt, if_neg idle] at stands
    refine ⟨reading, h.view, ⟨place, rows, ?_, keeps _ _ follows.keeps, follows.told⟩, drained,
      h.ordered⟩
    refine (if_pos rfl).mpr ⟨.advance r.scan.cursor, ?_, .inl (congrArg Call.advance stands)⟩
    cases Traffic.next_of_next? step with
    | start _ _ => exact FinMap.get?_insert_self ..
  | step =>
    rw [next?, Option.ite_none_right_eq_some] at hs
    obtain ⟨searching, hs⟩ := hs
    obtain ⟨call, turn, rfl⟩ := Option.map_eq_some_iff.mp hs
    exact h.settle searching turn
  | take =>
    rw [next?] at hs
    split at hs
    · next n tuple rest idle position =>
      obtain rfl := Option.some.inj hs
      rw [StandsAt, if_neg (by simp [idle])] at stands
      obtain ⟨traffic, ⟨cursor, view?⟩, searching, yielded, ended⟩ := r
      obtain rfl := h.view
      obtain rfl : searching = false := idle
      obtain rfl : cursor = ⟨f, some place⟩ := stands
      obtain rfl : place = ⟨n, tuple :: rest⟩ := Option.some.inj position
      refine ⟨h.traffic, h.view, ⟨⟨n, rest⟩, rows, rfl, follows.keeps, ?_⟩, h.drained, h.ordered⟩
      -- the tuple that was held is now yielded
      have told := follows.told
      rw [List.map_cons, ← Scan.row_present ⟨⟨f, some ⟨n, tuple :: rest⟩⟩, view?⟩] at told
      rw [List.map_append, List.append_assoc]
      exact told
    · cases hs

/-- A reader is as it should be after every run. -/
theorem sound_run (fresh : e.Fresh) (found : e.catalog.file? f.id = some f)
    (reads : ∀ ev, .traffic ev ∈ es → ev.readsOnly t = true)
    (h : (start e f view?).run t es = some r) : r.Sound e.storedRow t f view? := by
  refine runEvents_induction (fun mem hs sound => sound.next ?_ hs) h (sound_start fresh found)
  rintro inner rfl
  exact reads inner mem

/-- **Repeated scans.** Let a transaction that asks for no insertion or deletion, and has not ended, go
through a table as often as it likes, whatever others do meanwhile. Of any two scans that it has drained,
the later one has yielded what the earlier one has, in the same order, and after that only rows of pages
that have been appended since the earlier one came to its end. If there are none, both have yielded the
same. -/
theorem drained_again (fresh : e.Fresh) (found : e.catalog.file? f.id = some f)
    (reads : ∀ ev, .traffic ev ∈ es → ev.readsOnly t = true)
    (h : (start e f view?).run t es = some r) : r.drained.Pairwise fun earlier later =>
      earlier.pages ≤ later.pages ∧ (earlier.pages = later.pages → earlier.told = later.told) ∧
      ∃ more : List PlacedRow, later.told = earlier.told ++ telling view? more ∧
        ∀ row ∈ more, row.1.page.table = f.id ∧ earlier.pages ≤ row.1.page.number := by
  have sound := sound_run fresh found reads h
  refine sound.ordered.imp_of_mem ?_
  intro earlier later mem mem' le
  obtain ⟨rows, keeps, told⟩ := sound.drained earlier mem
  obtain ⟨rows', keeps', told'⟩ := sound.drained later mem'
  obtain ⟨m, grown⟩ := Nat.exists_eq_add_of_le le
  -- the rows of the pages of the earlier scan are the first of those of the later one
  have split : rows' = rows ++ (List.range' earlier.pages m).flatMap (r.traffic.engine.rowsOn f) := by
    rw [← keeps'.rows, grown, Engine.rowsBelow_add, keeps.rows]
  refine ⟨le, ?_, (List.range' earlier.pages m).flatMap (r.traffic.engine.rowsOn f), ?_, ?_⟩
  · intro same
    obtain rfl : m = 0 := by omega
    rw [told, told', split]
    simp
  · rw [told, told', split, telling, telling, telling, List.map_append]
  · intro row mem
    obtain ⟨n, inside, here⟩ := List.mem_flatMap.mp mem
    rw [(Engine.mem_rowsOn.mp here).1]
    exact ⟨rfl, (List.mem_range'_1.mp inside).1⟩

/-- The next page is fetched, and its tuples are taken. -/
def turning (tuples : Nat) : List ReaderEvent :=
  [.search, .step, .step, .step] ++ List.replicate tuples .take

/-- What other transactions do. -/
def others (es : List TrafficEvent) : List ReaderEvent :=
  es.map .traffic

/-- One page is filled and committed, and a scan goes through it. Another transaction then appends a page
and is committed, and a second scan goes through both pages. -/
def growing : List ReaderEvent :=
  others (Traffic.inserting ⟨1⟩ 7 5 ++ Traffic.inserting ⟨1⟩ 8 4 ++ [.complete ⟨1⟩ true ∅])
    ++ turning 2 ++ [.search, .step]
    ++ others (Traffic.inserting ⟨3⟩ 9 6 ++ [.complete ⟨3⟩ true ∅])
    ++ [.reopen] ++ turning 2 ++ turning 1 ++ [.search, .step]

/-- The two rows of the first page. -/
def firstRows : List PlacedRow :=
  [(⟨⟨numbers.id, 0⟩, 0⟩, [.int 7]), (⟨⟨numbers.id, 0⟩, 1⟩, [.int 8])]

/-- The row that has been appended. -/
def appendedRow : PlacedRow :=
  (⟨⟨numbers.id, 1⟩, 0⟩, [.int 9])

/-- What the two scans of `growing` yield. -/
theorem drained_growing : ∃ r earlier later, (start .sample numbers none).run ⟨2⟩ growing = some r ∧
    r.drained = [earlier, later] ∧ earlier.pages = 1 ∧ earlier.told = telling none firstRows ∧
    later.told = telling none (firstRows ++ [appendedRow]) := by
  have possible : ((start .sample numbers none).run ⟨2⟩ growing).isSome = true := by decide +kernel
  obtain ⟨r, ran⟩ := Option.isSome_iff_exists.mp possible
  have told : ∀ r ∈ (start .sample numbers none).run ⟨2⟩ growing, r.drained.map Drained.pages = [1, 2] ∧
      r.drained.map Drained.told
        = [telling none firstRows, telling none (firstRows ++ [appendedRow])] := by
    decide +kernel
  obtain ⟨pages, told⟩ := told r ran
  obtain ⟨earlier, drained, eq, first, rest⟩ := List.map_eq_cons_iff.mp pages
  obtain ⟨later, nothing, rfl, -, last⟩ := List.map_eq_cons_iff.mp rest
  obtain rfl := List.map_eq_nil_iff.mp last
  rw [eq] at told
  obtain ⟨told₁, told⟩ := List.cons.inj told
  exact ⟨r, earlier, later, ran, eq, first, told₁, (List.cons.inj told).1⟩

theorem readsOnly_growing : ∀ ev, .traffic ev ∈ growing → ev.readsOnly ⟨2⟩ = true := by
  simp [growing, turning, others, Traffic.inserting, TrafficEvent.readsOnly]

/-- Both scans of `growing` have come to their ends, and the second one has yielded what the first one has,
and after it rows of the second page. -/
theorem drained_again_growing : ∃ r earlier later more,
    (start .sample numbers none).run ⟨2⟩ growing = some r ∧ r.drained = [earlier, later] ∧
    later.told = earlier.told ++ telling none more ∧ ∀ row ∈ more, 1 ≤ row.1.page.number := by
  obtain ⟨r, earlier, later, ran, eq, pages, -⟩ := drained_growing
  have again := drained_again Engine.fresh_sample rfl readsOnly_growing ran
  rw [eq] at again
  obtain ⟨-, -, more, grown, behind⟩ := List.rel_of_pairwise_cons again (.head _)
  exact ⟨r, earlier, later, more, ran, eq, grown, fun row mem => pages ▸ (behind row mem).2⟩

/-- **A row that a second scan yields, and the first one has not.** The transaction has only read, and has
not ended in between. -/
theorem drained_phantom : ∃ r earlier later,
    (start .sample numbers none).run ⟨2⟩ growing = some r ∧
    (∀ ev, .traffic ev ∈ growing → ev.readsOnly ⟨2⟩ = true) ∧ r.drained = [earlier, later] ∧
    earlier.told = telling none firstRows ∧
    later.told = telling none (firstRows ++ [appendedRow]) ∧ earlier.told ≠ later.told := by
  obtain ⟨r, earlier, later, ran, eq, -, told, told'⟩ := drained_growing
  refine ⟨r, earlier, later, ran, readsOnly_growing, eq, told, told', ?_⟩
  rw [told, told']
  decide

end Reader

end RowStore
