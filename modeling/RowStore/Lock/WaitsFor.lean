import RowStore.FinMap
import RowStore.Ident

/-! # Who waits for whom
A graph with an edge from every waiting transaction to each holder that keeps it waiting. A cycle is a
wait that never ends. -/

namespace RowStore

/-- The holders that each waiting transaction waits for. -/
structure WaitsFor where
  edges : FinMap TxnId (List TxnId)
  deriving DecidableEq

namespace WaitsFor

instance : EmptyCollection WaitsFor := ⟨⟨∅⟩⟩

/-- The transactions that a transaction waits for. -/
def holders (g : WaitsFor) (t : TxnId) : List TxnId :=
  g.edges.getD t []

/-- Forgets what a transaction waits for. -/
def clear (g : WaitsFor) (t : TxnId) : WaitsFor :=
  ⟨g.edges.erase t⟩

/-- Records what a transaction waits for. -/
def set (g : WaitsFor) (t : TxnId) (holders : List TxnId) : WaitsFor :=
  if holders.isEmpty then g.clear t else ⟨g.edges.insert t holders⟩

@[simp] theorem holders_clear_self (g : WaitsFor) (t : TxnId) : (g.clear t).holders t = [] := by
  simp [holders, clear, FinMap.getD]

@[simp] theorem holders_set_self (g : WaitsFor) (t : TxnId) (hs : List TxnId) :
    (g.set t hs).holders t = hs := by
  unfold set
  split
  · simp_all
  · simp [holders, FinMap.getD]

theorem holders_clear_of_ne (g : WaitsFor) {t u : TxnId} (h : u ≠ t) :
    (g.clear t).holders u = g.holders u := by
  simp [holders, clear, FinMap.getD, g.edges.get?_erase_of_ne h]

theorem holders_set_of_ne (g : WaitsFor) {t u : TxnId} (hs : List TxnId) (h : u ≠ t) :
    (g.set t hs).holders u = g.holders u := by
  unfold set
  split
  · exact g.holders_clear_of_ne h
  · simp [holders, FinMap.getD, g.edges.get?_insert_of_ne _ h]

/-- Searches depth first for `goal` among the transactions on the stack and those they wait for. -/
def search (g : WaitsFor) (goal : TxnId) : Nat → List TxnId → List TxnId → Bool
  | 0, _, _ => false
  | _ + 1, _, [] => false
  | fuel + 1, seen, t :: stack =>
    if t = goal then true
    else if t ∈ seen then search g goal fuel seen stack
    else search g goal fuel (t :: seen) (g.holders t ++ stack)

/-- More than the transactions that a search can ever put on its stack: the edges of each are put there
at most once. -/
def searchBound (g : WaitsFor) : Nat :=
  (g.edges.toList.flatMap Prod.snd).length + 1

/-- Whether a transaction waits, through any number of others, for itself. -/
def hasCycleThrough (g : WaitsFor) (t : TxnId) : Bool :=
  g.search t g.searchBound [] (g.holders t)

end WaitsFor

end RowStore
