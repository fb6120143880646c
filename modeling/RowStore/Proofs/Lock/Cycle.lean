import Mathlib.Logic.Relation

/-! # Cycles of waits
A wait is deadlocked when it lies on a cycle of the graph of waits. This file shows which changes of a
relation close none: to take edges away (`Acyclic.mono`), to add edges to an element without successors
(`Acyclic.to_sink`), and to give new edges to a single element through which no cycle goes
(`Acyclic.of_source`). -/

namespace RowStore

open Relation

/-- No chain of related elements leads from an element back to itself. -/
def Acyclic {α : Type} (r : α → α → Prop) : Prop :=
  ∀ a, ¬ TransGen r a a

namespace Acyclic

variable {α : Type} {r s : α → α → Prop} {a : α}

/-- A relation with fewer edges has fewer cycles. -/
theorem mono (h : Acyclic r) (sub : ∀ b c, s b c → r b c) : Acyclic s :=
  fun b cycle => h b (TransGen.mono sub _ _ cycle)

/-- New edges to an element without successors close no cycle. -/
theorem to_sink (h : Acyclic r) (sink : ∀ b, ¬ s a b) (new : ∀ b c, s b c → r b c ∨ c = a) :
    Acyclic s := by
  -- a chain can use a new edge only as its last one
  have old : ∀ {b c}, TransGen s b c → TransGen r b c ∨ c = a := by
    intro b c chain
    induction chain with
    | single edge => exact (new _ _ edge).imp_left .single
    | tail _ edge ih =>
      rcases ih with before | rfl
      · exact (new _ _ edge).imp_left before.tail
      · exact absurd edge (sink _)
  intro b cycle
  rcases old cycle with cycle | rfl
  · exact h b cycle
  · obtain ⟨c, edge, -⟩ := TransGen.head'_iff.mp cycle
    exact sink c edge

/-- New edges from a single element close no cycle unless one goes through that element. -/
theorem of_source (h : Acyclic r) (other : ∀ b c, b ≠ a → s b c → r b c)
    (free : ¬ TransGen s a a) : Acyclic s := by
  -- a chain is an old one, or it goes through the element
  have through : ∀ {b c}, TransGen s b c →
      TransGen r b c ∨ (ReflTransGen s b a ∧ TransGen s a c) := by
    intro b c chain
    induction chain with
    | single edge =>
      by_cases eq : b = a
      · exact .inr ⟨eq ▸ .refl, .single (eq ▸ edge)⟩
      · exact .inl (.single (other _ _ eq edge))
    | @tail c d before edge ih =>
      rcases ih with old | ⟨first, last⟩
      · by_cases eq : c = a
        · exact .inr ⟨eq ▸ before.to_reflTransGen, .single (eq ▸ edge)⟩
        · exact .inl (old.tail (other _ _ eq edge))
      · exact .inr ⟨first, last.tail edge⟩
  intro b cycle
  rcases through cycle with old | ⟨first, last⟩
  · exact h b old
  · exact free (last.trans_left first)

end Acyclic

end RowStore
