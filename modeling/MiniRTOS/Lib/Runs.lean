/-! # Runs of a guarded machine

A machine is a partial step function on states, one step for each input. A `Run` takes the inputs of
a list in turn, each at a state where its guard holds and where the machine has a step. Guards say
what the environment promises; they may look at the state before the step.

* **`Run.invariant`** — what holds initially and is kept by every guarded step holds after every run.
* **`exec`** — the executable form, for guards that can be decided.
* **`outputs_of_simulates`** — a machine that answers each input as an abstract one does gives the same
  answers along every list of inputs. -/

namespace Runs

universe u v

variable {σ : Type u} {ι : Type v} {guard guard' : σ → ι → Prop} {step : σ → ι → Option σ}

/-- **Guarded runs.** -/
inductive Run (guard : σ → ι → Prop) (step : σ → ι → Option σ) : σ → List ι → σ → Prop
  /-- No step. -/
  | nil (s : σ) : Run guard step s [] s
  /-- A step and the rest. -/
  | cons {s s₁ s₂ : σ} {i : ι} {is : List ι} (hg : guard s i) (hs : step s i = some s₁)
      (hr : Run guard step s₁ is s₂) : Run guard step s (i :: is) s₂

/-- **The invariant rule.** -/
theorem Run.invariant {s s' : σ} {is : List ι} (hr : Run guard step s is s') (Inv : σ → Prop)
    (hstep : ∀ s i s', Inv s → guard s i → step s i = some s' → Inv s') (h : Inv s) : Inv s' := by
  induction hr with
  | nil s => exact h
  | cons hg hs _ ih => exact ih (hstep _ _ _ h hg hs)

/-- A run under a stronger guard is a run under a weaker one. -/
theorem Run.mono {s s' : σ} {is : List ι} (hr : Run guard step s is s')
    (hg : ∀ s i, guard s i → guard' s i) : Run guard' step s is s' := by
  induction hr with
  | nil s => exact .nil s
  | cons h hs _ ih => exact .cons (hg _ _ h) hs ih

/-- A run is a run under another guard when an invariant of it gives that guard. -/
theorem Run.mono_of_invariant {s s' : σ} {is : List ι} (hr : Run guard step s is s')
    (guard' : σ → ι → Prop) (Inv : σ → Prop)
    (hstep : ∀ s i s', Inv s → guard s i → step s i = some s' → Inv s') (h : Inv s)
    (hg : ∀ s i, Inv s → guard s i → guard' s i) : Run guard' step s is s' := by
  induction hr with
  | nil s => exact .nil s
  | cons hi hs _ ih => exact .cons (hg _ _ h hi) hs (ih (hstep _ _ _ h hi hs))

/-- Runs compose. -/
theorem Run.append {s s₁ s' : σ} {is js : List ι} (hr : Run guard step s is s₁)
    (hr' : Run guard step s₁ js s') : Run guard step s (is ++ js) s' := by
  induction hr with
  | nil s => exact hr'
  | cons hg hs _ ih => exact .cons hg hs (ih hr')

/-- Execute a list of inputs, stopping at the first one that is not permitted. -/
def exec (guard : σ → ι → Prop) [∀ s i, Decidable (guard s i)] (step : σ → ι → Option σ) :
    σ → List ι → Option σ
  | s, [] => some s
  | s, i :: is => if guard s i then (step s i).bind fun s₁ => exec guard step s₁ is else none

/-- What is executed is a run. -/
theorem run_of_exec [∀ s i, Decidable (guard s i)] {s s' : σ} {is : List ι}
    (h : exec guard step s is = some s') : Run guard step s is s' := by
  induction is generalizing s with
  | nil =>
      obtain rfl := Option.some.inj h
      exact .nil s
  | cons i is ih =>
      rw [exec] at h
      split at h
      · next hg =>
          obtain ⟨s₁, hs, h⟩ := Option.bind_eq_some_iff.mp h
          exact .cons hg hs (ih h)
      · cases h

/-- An execution that ends in a state with a decidable property. -/
theorem exists_run_of_exec (guard : σ → ι → Prop) [∀ s i, Decidable (guard s i)]
    (step : σ → ι → Option σ) (s : σ) (is : List ι) (P : σ → Prop) [DecidablePred P]
    (h : (exec guard step s is).any (fun s' => decide (P s')) = true) :
    ∃ s', Run guard step s is s' ∧ P s' := by
  cases he : exec guard step s is with
  | none =>
      rw [he] at h
      cases h
  | some s' =>
      rw [he] at h
      exact ⟨s', run_of_exec he, of_decide_eq_true h⟩

/-! ## Machines with answers -/

universe w x

variable {τ : Type w} {ο : Type x}

/-- Run a partial machine over a list of inputs and collect its answers. -/
def outputs (step : σ → ι → Option (σ × ο)) : σ → List ι → Option (σ × List ο)
  | s, [] => some (s, [])
  | s, i :: is =>
      (step s i).bind fun r => (outputs step r.1 is).map fun r' => (r'.1, r.2 :: r'.2)

/-- Run a total machine. -/
def answers (step : τ → ι → τ × ο) : τ → List ι → τ × List ο
  | t, [] => (t, [])
  | t, i :: is =>
      let r := answers step (step t i).1 is
      (r.1, (step t i).2 :: r.2)

/-- **The simulation rule.** A machine that, in related states, always has a step, answers as the
abstract machine does and stays related to it, gives the same answers along every list of inputs. -/
theorem outputs_of_simulates {cstep : σ → ι → Option (σ × ο)} {astep : τ → ι → τ × ο}
    (R : σ → τ → Prop)
    (hstep : ∀ s t i, R s t → ∃ s', cstep s i = some (s', (astep t i).2) ∧ R s' (astep t i).1)
    {s : σ} {t : τ} (h : R s t) (is : List ι) :
    ∃ s', outputs cstep s is = some (s', (answers astep t is).2) ∧ R s' (answers astep t is).1 := by
  induction is generalizing s t with
  | nil => exact ⟨s, rfl, h⟩
  | cons i is ih =>
      obtain ⟨s₁, hs₁, h₁⟩ := hstep s t i h
      obtain ⟨s', hs', h'⟩ := ih h₁
      refine ⟨s', ?_, h'⟩
      rw [outputs, hs₁, Option.bind_some, hs', Option.map_some]
      rfl

end Runs
