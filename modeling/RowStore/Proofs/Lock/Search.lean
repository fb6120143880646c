import Mathlib.Logic.Relation
import RowStore.Lock.WaitsFor

/-! # The search for a cycle
Whether a transaction waits for itself is found out by a search through the graph of waits. A search is a
run of rounds (`WaitsFor.Rounds`): each takes a transaction off the stack and, if it has not been seen
before, puts those it waits for there. Nothing here depends on the order of the stack, so the statements
are about every such search, and `hasCycleThrough` is one of them. A round takes one entry off the stack,
and puts only edges there that have never been there; so every search ends. Main statement:
`search_decides`. -/

namespace RowStore.WaitsFor

open Relation

/-- A transaction waits for another. -/
def Edge (g : WaitsFor) (t u : TxnId) : Prop :=
  u ∈ g.holders t

/-! ## Edges that are left -/

/-- The number of edges of transactions other than `goal` that have not been seen. -/
def unseenEdges (goal : TxnId) (seen : List TxnId) : List (TxnId × List TxnId) → Nat
  | [] => 0
  | (t, hs) :: rest =>
    (if t = goal ∨ t ∈ seen then 0 else hs.length) + unseenEdges goal seen rest

/-- To see one more transaction leaves no more edges unseen. -/
theorem unseenEdges_cons_le (goal t : TxnId) (seen : List TxnId) (edges : List (TxnId × List TxnId)) :
    unseenEdges goal (t :: seen) edges ≤ unseenEdges goal seen edges := by
  induction edges with
  | nil => exact Nat.le_refl _
  | cons e rest ih =>
    simp only [unseenEdges, List.mem_cons]
    split <;> split <;> grind

/-- To see a transaction takes its edges from those that are unseen. -/
theorem length_holders_add_unseenEdges_le (g : WaitsFor) {goal t : TxnId} {seen : List TxnId}
    (ne : t ≠ goal) (new : t ∉ seen) :
    (g.holders t).length + unseenEdges goal (t :: seen) g.edges.toList
      ≤ unseenEdges goal seen g.edges.toList := by
  obtain ⟨⟨edges⟩⟩ := g
  simp only [holders, FinMap.getD, FinMap.get?]
  induction edges with
  | nil => simp [unseenEdges]
  | cons e rest ih =>
    -- a later record of the same transaction is out of reach, and may only count for less
    have fewer := unseenEdges_cons_le goal t seen rest
    by_cases here : e.1 = t
    · simp only [List.find?_cons, here, unseenEdges]
      simp [ne, new, fewer]
    · simp only [List.find?_cons, here, unseenEdges, List.mem_cons]
      simp only [decide_false, false_or]
      omega

/-- The search starts with no more edges than it is given fuel for. -/
theorem length_holders_add_unseenEdges_lt_searchBound (g : WaitsFor) (goal : TxnId) :
    (g.holders goal).length + unseenEdges goal [] g.edges.toList < g.searchBound := by
  obtain ⟨⟨edges⟩⟩ := g
  have all : ∀ edges : List (TxnId × List TxnId),
      unseenEdges goal [] edges ≤ (edges.flatMap Prod.snd).length := by
    intro edges
    induction edges with
    | nil => exact Nat.le_refl _
    | cons e rest ih =>
      simp only [unseenEdges, List.flatMap_cons, List.length_append]
      split <;> omega
  simp only [holders, FinMap.getD, FinMap.get?, searchBound]
  induction edges with
  | nil => simp [unseenEdges]
  | cons e rest ih =>
    have rest_le := all rest
    by_cases here : e.1 = goal
    · simp only [List.find?_cons, here, unseenEdges, decide_true, Option.map_some, Option.getD_some,
        List.flatMap_cons, List.length_append, true_or, if_true]
      omega
    · simp only [List.find?_cons, here, unseenEdges, decide_false, List.not_mem_nil, or_self,
        if_false, List.flatMap_cons, List.length_append]
      omega

/-! ## Rounds -/

/-- A search between two rounds. -/
structure Moment where
  /-- The transactions that have been looked at. -/
  seen : List TxnId
  /-- The transactions that are still to be looked at. -/
  stack : List TxnId

/-- A search for `goal` before its first round. -/
def start (g : WaitsFor) (goal : TxnId) : Moment :=
  ⟨[], g.holders goal⟩

/-- A round after which the search goes on. Any transaction on the stack may be the one that is taken,
and those that it waits for may be put at any place. -/
inductive Round (g : WaitsFor) (goal : TxnId) : Moment → Moment → Prop where
  /-- A transaction that has been looked at before is dropped. -/
  | drop {seen stack rest : List TxnId} {t : TxnId} (taken : stack.Perm (t :: rest)) (other : t ≠ goal)
      (old : t ∈ seen) : Round g goal ⟨seen, stack⟩ ⟨seen, rest⟩
  /-- A transaction that is new brings those it waits for. -/
  | visit {seen stack rest more : List TxnId} {t : TxnId} (taken : stack.Perm (t :: rest))
      (other : t ≠ goal) (new : t ∉ seen) (put : more.Perm (g.holders t ++ rest)) :
      Round g goal ⟨seen, stack⟩ ⟨t :: seen, more⟩

/-- What a search answers when it ends. -/
inductive Answer (goal : TxnId) : Moment → Bool → Prop where
  /-- The transaction that is taken off the stack is the goal. -/
  | found {seen stack : List TxnId} (taken : goal ∈ stack) : Answer goal ⟨seen, stack⟩ true
  /-- Nothing is left to look at. -/
  | missed {seen : List TxnId} : Answer goal ⟨seen, []⟩ false

/-- A search that has gone on for a number of rounds. -/
inductive Rounds (g : WaitsFor) (goal : TxnId) : Nat → Moment → Prop where
  | start : Rounds g goal 0 (g.start goal)
  | next {n : Nat} {m m' : Moment} (before : Rounds g goal n m) (round : g.Round goal m m') :
      Rounds g goal (n + 1) m'

/-- The number of rounds that a search may still take. -/
def toGo (g : WaitsFor) (goal : TxnId) (m : Moment) : Nat :=
  m.stack.length + unseenEdges goal m.seen g.edges.toList

variable {g : WaitsFor} {goal : TxnId} {m m' : Moment} {n : Nat} {b : Bool}

/-- A search that has not ended goes on. -/
theorem answer_or_round (g : WaitsFor) (goal : TxnId) (m : Moment) :
    (∃ b, Answer goal m b) ∨ ∃ m', g.Round goal m m' := by
  obtain ⟨seen, stack⟩ := m
  cases stack with
  | nil => exact .inl ⟨false, .missed⟩
  | cons t rest =>
    by_cases eq : t = goal
    · exact .inl ⟨true, .found (eq ▸ .head _)⟩
    by_cases old : t ∈ seen
    · exact .inr ⟨_, .drop (.refl _) eq old⟩
    · exact .inr ⟨_, .visit (.refl _) eq old (.refl _)⟩

theorem Round.toGo_lt (h : g.Round goal m m') : g.toGo goal m' < g.toGo goal m := by
  cases h with
  | drop taken other old =>
    have length := taken.length_eq
    simp only [toGo, List.length_cons] at length ⊢
    omega
  | visit taken other new put =>
    have length := taken.length_eq
    have more := put.length_eq
    have used := g.length_holders_add_unseenEdges_le other new
    simp only [toGo, List.length_cons, List.length_append] at length more ⊢
    omega

theorem Rounds.add_toGo_lt (h : g.Rounds goal n m) : n + g.toGo goal m < g.searchBound := by
  induction h with
  | start =>
    have enough := g.length_holders_add_unseenEdges_lt_searchBound goal
    simpa [toGo, WaitsFor.start] using enough
  | next before round ih =>
    have less := round.toGo_lt
    omega

/-! ## What a search has found out -/

/-- What holds between the rounds of a search for a cycle through `goal`. -/
structure Searched (g : WaitsFor) (goal : TxnId) (m : Moment) : Prop where
  /-- The goal waits for whatever is to be looked at. -/
  reached : ∀ u ∈ m.stack, TransGen g.Edge goal u
  missed : goal ∉ m.seen
  first : ∀ u ∈ g.holders goal, u ∈ m.seen ∨ u ∈ m.stack
  /-- No edge of what has been looked at is forgotten. -/
  whole : ∀ t ∈ m.seen, ∀ u ∈ g.holders t, u ∈ m.seen ∨ u ∈ m.stack

theorem searched_start (g : WaitsFor) (goal : TxnId) : g.Searched goal (g.start goal) where
  reached _ edge := .single edge
  missed := nofun
  first _ edge := .inr edge
  whole := nofun

theorem Searched.round (h : g.Searched goal m) (round : g.Round goal m m') : g.Searched goal m' := by
  cases round with
  | @drop seen stack rest t taken other old =>
    -- what was to be looked at still is, or has been before
    have kept : ∀ u, u ∈ seen ∨ u ∈ stack → u ∈ seen ∨ u ∈ rest := by
      rintro u (before | ahead)
      · exact .inl before
      · rcases List.mem_cons.mp (taken.mem_iff.mp ahead) with rfl | ahead
        · exact .inl old
        · exact .inr ahead
    exact {
      reached := fun u ahead => h.reached u (taken.mem_iff.mpr (.tail _ ahead))
      missed := h.missed
      first := fun u edge => kept u (h.first u edge)
      whole := fun v before u edge => kept u (h.whole v before u edge) }
  | @visit seen stack rest more t taken other new put =>
    have kept : ∀ u, u ∈ seen ∨ u ∈ stack → u ∈ t :: seen ∨ u ∈ more := by
      rintro u (before | ahead)
      · exact .inl (.tail _ before)
      · rcases List.mem_cons.mp (taken.mem_iff.mp ahead) with rfl | ahead
        · exact .inl (.head _)
        · exact .inr (put.mem_iff.mpr (List.mem_append_right _ ahead))
    refine ⟨?reached, ?missed, fun u edge => kept u (h.first u edge), ?whole⟩
    case reached =>
      intro u ahead
      rcases List.mem_append.mp (put.mem_iff.mp ahead) with edge | ahead
      · exact (h.reached t (taken.mem_iff.mpr (.head _))).tail edge
      · exact h.reached u (taken.mem_iff.mpr (.tail _ ahead))
    case missed =>
      intro before
      rcases List.mem_cons.mp before with eq | before
      · exact other eq.symm
      · exact h.missed before
    case whole =>
      intro v before u edge
      rcases List.mem_cons.mp before with rfl | before
      · exact .inr (put.mem_iff.mpr (List.mem_append_left _ edge))
      · exact kept u (h.whole v before u edge)

theorem Rounds.searched (h : g.Rounds goal n m) : g.Searched goal m := by
  induction h with
  | start => exact g.searched_start goal
  | next before round ih => exact ih.round round

/-- A search that ends answers whether there is a cycle. -/
theorem Searched.answer_iff (h : g.Searched goal m) (answer : Answer goal m b) :
    b = true ↔ TransGen g.Edge goal goal := by
  cases answer with
  | found taken => exact iff_of_true rfl (h.reached goal taken)
  | @missed seen =>
    refine iff_of_false Bool.false_ne_true fun cycle => ?_
    -- what has been looked at is left by no edge, and a chain from the goal starts inside it
    have stays : ∀ {u}, TransGen g.Edge goal u → u ∈ seen := by
      intro u chain
      induction chain with
      | single edge => exact (h.first _ edge).resolve_right List.not_mem_nil
      | tail _ edge ih => exact (h.whole _ ih _ edge).resolve_right List.not_mem_nil
    exact h.missed (stays cycle)

/-! ## The search that is made -/

/-- With fuel for the rounds that it may still take, the search goes on to an answer. -/
theorem Rounds.exists_search {fuel : Nat} {seen stack : List TxnId}
    (h : g.Rounds goal n ⟨seen, stack⟩) (enough : g.toGo goal ⟨seen, stack⟩ < fuel) :
    ∃ n m, g.Rounds goal n m ∧ Answer goal m (g.search goal fuel seen stack) := by
  induction fuel generalizing n seen stack with
  | zero => exact absurd enough (Nat.not_lt_zero _)
  | succ fuel ih =>
    cases stack with
    | nil => exact ⟨n, _, h, .missed⟩
    | cons t rest =>
      rw [search]
      split
      · next eq => exact ⟨n, _, h, .found (eq ▸ .head _)⟩
      · next other =>
        split
        · next old =>
          have round : g.Round goal ⟨seen, t :: rest⟩ ⟨seen, rest⟩ := .drop (.refl _) other old
          exact ih (h.next round) (by have := round.toGo_lt; omega)
        · next new =>
          have round : g.Round goal ⟨seen, t :: rest⟩ ⟨t :: seen, g.holders t ++ rest⟩ :=
            .visit (.refl _) other new (.refl _)
          exact ih (h.next round) (by have := round.toGo_lt; omega)

theorem exists_rounds_hasCycleThrough (g : WaitsFor) (t : TxnId) :
    ∃ n m, g.Rounds t n m ∧ Answer t m (g.hasCycleThrough t) :=
  Rounds.exists_search .start (g.length_holders_add_unseenEdges_lt_searchBound t)

/-- The search finds a cycle through a transaction if and only if there is one. -/
theorem hasCycleThrough_iff {t : TxnId} : g.hasCycleThrough t = true ↔ TransGen g.Edge t t := by
  obtain ⟨n, m, rounds, answer⟩ := g.exists_rounds_hasCycleThrough t
  exact rounds.searched.answer_iff answer

theorem not_transGen_of_hasCycleThrough {t : TxnId} (h : g.hasCycleThrough t = false) :
    ¬ TransGen g.Edge t t :=
  fun cycle => Bool.false_ne_true (h.symm.trans (hasCycleThrough_iff.mpr cycle))

/-- **A search for a cycle ends, and its answer is right.** Whatever the graph, and in whatever order
transactions are taken off the stack and put there, a search ends after fewer rounds than there are edges
on record and one. It ends nowhere without an answer, and it answers that there is a cycle just if a chain
of one or more waits leads from the transaction back to itself. The search that is made is one of these. -/
theorem search_decides (g : WaitsFor) (t : TxnId) :
    (∀ n m, g.Rounds t n m → n < g.searchBound) ∧
    (∀ n m, g.Rounds t n m → (∃ b, Answer t m b) ∨ ∃ m', g.Round t m m') ∧
    (∀ n m b, g.Rounds t n m → Answer t m b → (b = true ↔ TransGen g.Edge t t)) ∧
    (∃ n m, g.Rounds t n m ∧ Answer t m (g.hasCycleThrough t)) ∧
    (g.hasCycleThrough t = true ↔ TransGen g.Edge t t) := by
  refine ⟨fun n m rounds => ?ends, fun n m _ => g.answer_or_round t m, fun n m b rounds answer => ?right,
    g.exists_rounds_hasCycleThrough t, hasCycleThrough_iff⟩
  case ends =>
    have bounded := rounds.add_toGo_lt
    omega
  case right => exact rounds.searched.answer_iff answer

end RowStore.WaitsFor
