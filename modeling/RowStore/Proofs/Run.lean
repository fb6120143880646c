/-! # Runs
A system is given by what each event leads to from each state, if it can happen there. A run is a list of
events that happen one after another. Main statements: what every event keeps, every run keeps
(`runEvents_induction`), and so with what is said of the events so far
(`runEvents_history_induction`). -/

namespace RowStore

variable {σ ε : Type} {next? : σ → ε → Option σ}

/-- What events lead to; nothing if one of them cannot happen when its turn comes. -/
def runEvents (next? : σ → ε → Option σ) : σ → List ε → Option σ
  | s, [] => some s
  | s, e :: es => (next? s e).bind (runEvents next? · es)

theorem runEvents_cons {s s' : σ} {e : ε} {es : List ε} :
    runEvents next? s (e :: es) = some s' ↔
      ∃ mid, next? s e = some mid ∧ runEvents next? mid es = some s' :=
  Option.bind_eq_some_iff

/-- A run in two parts is a run of the first, and then one of the second. -/
theorem runEvents_append {s : σ} {es es' : List ε} :
    runEvents next? s (es ++ es') = (runEvents next? s es).bind (runEvents next? · es') := by
  induction es generalizing s with
  | nil => rfl
  | cons e es ih =>
    rw [List.cons_append, runEvents, runEvents, Option.bind_assoc]
    exact congrArg _ (funext fun mid => ih)

/-- What is kept by each event of a run, of the events so far and the state they lead to, holds of the
whole run and of its end. -/
theorem runEvents_history_induction {motive : List ε → σ → Prop} {es : List ε}
    (step : ∀ {done : List ε} {s s' : σ} {e : ε}, e ∈ es → next? s e = some s' → motive done s →
      motive (done ++ [e]) s') {s s' : σ} (h : runEvents next? s es = some s') (base : motive [] s) :
    motive es s' := by
  have onwards : ∀ (rest done : List ε) (s : σ), (∀ e ∈ rest, e ∈ es) →
      runEvents next? s rest = some s' → motive done s → motive (done ++ rest) s' := by
    intro rest
    induction rest with
    | nil =>
      intro done s _ h now
      rw [List.append_nil]
      exact Option.some.inj h ▸ now
    | cons e rest ih =>
      intro done s sub h now
      obtain ⟨mid, first, later⟩ := runEvents_cons.mp h
      have next := ih (done ++ [e]) mid (fun e mem => sub e (.tail _ mem)) later
        (step (sub e (.head _)) first now)
      rwa [List.append_assoc, List.singleton_append] at next
  exact onwards es [] s (fun _ mem => mem) h base

/-- What each event of a run keeps is kept by the run. -/
theorem runEvents_induction {motive : σ → Prop} {es : List ε}
    (step : ∀ {s s' : σ} {e : ε}, e ∈ es → next? s e = some s' → motive s → motive s') {s s' : σ}
    (h : runEvents next? s es = some s') (base : motive s) : motive s' :=
  runEvents_history_induction (motive := fun _ => motive) step h base

end RowStore
