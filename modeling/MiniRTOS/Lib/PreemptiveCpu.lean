import Mathlib.Logic.Function.Basic
import MiniRTOS.Lib.Runs

/-! # A processor with interrupt handlers and tasks

Tasks and interrupt handlers execute on one processor and share memory. Handlers nest: the one taken
last runs, the others wait below it, and the current task below them all. A handler is taken, and
another task is switched in, only while the shared memory leaves interrupts open; a task is switched in
only when no handler is in progress.

* **`step`**, **`Permits`** — the processor around the code that everybody executes.
* **`Rule`** — what a proof about that code alone has to show: the party that runs keeps its relation to
  the shared memory, and whoever is left or taken up while interrupts are open is `Parked`.
* **`Inv.run`** — then it holds of the whole processor in every run.
* **`Inv.alone`** — a party that has closed interrupts runs on alone until they are open. -/

namespace PreemptiveCpu

open Runs

universe u v w x

variable {σ : Type u} {π : Type v} {ι : Type w} {α : Type x} [DecidableEq ι]

/-- The shared memory, the handlers in progress with the last one first, and the tasks. -/
structure State (σ : Type u) (π : Type v) (ι : Type w) where
  /-- The shared variables. -/
  shared : σ
  /-- The handlers in progress, the innermost one first. -/
  handlers : List π
  /-- Where each task is. -/
  tasks : ι → π
  /-- The task that is switched in. -/
  current : ι

/-- The code: what an action of the running party does, where a handler starts, where it may return, and
which shared memory leaves interrupts open. -/
structure Code (σ : Type u) (π : Type v) (α : Type x) where
  /-- One access of the code. -/
  act : σ → π → α → Option (σ × π)
  /-- Where a handler starts. -/
  entry : π
  /-- Where a handler may return. -/
  finished : π → Prop
  /-- Interrupts are open. -/
  opened : σ → Prop

/-- What can happen. -/
inductive Op (ι : Type w) (α : Type x)
  /-- The running party acts. -/
  | act (a : α)
  /-- A handler is taken. -/
  | preempt
  /-- The running handler returns. -/
  | ret
  /-- Task `t` is switched in. -/
  | switch (t : ι)

/-- Where the running party is. -/
def State.running (s : State σ π ι) : π :=
  match s.handlers with
  | [] => s.tasks s.current
  | p :: _ => p

/-- The running party moves on. -/
def State.moveTo (s : State σ π ι) (m : σ) (p : π) : State σ π ι :=
  match s.handlers with
  | [] => { s with shared := m, tasks := Function.update s.tasks s.current p }
  | _ :: below => { s with shared := m, handlers := p :: below }

/-- **One step.** -/
def step (c : Code σ π α) (s : State σ π ι) : Op ι α → Option (State σ π ι)
  | .act a => (c.act s.shared s.running a).map fun r => s.moveTo r.1 r.2
  | .preempt => some { s with handlers := c.entry :: s.handlers }
  | .ret => some { s with handlers := s.handlers.tail }
  | .switch t => some { s with current := t }

/-- **What the processor permits.** -/
def Permits (c : Code σ π α) (s : State σ π ι) : Op ι α → Prop
  | .act _ => True
  | .preempt => c.opened s.shared
  | .ret => s.handlers ≠ [] ∧ c.finished s.running
  | .switch _ => s.handlers = [] ∧ c.opened s.shared

/-- Whether a step is permitted can be decided. -/
instance (c : Code σ π α) [DecidablePred c.finished] [DecidablePred c.opened] (s : State σ π ι)
    (o : Op ι α) : Decidable (Permits c s o) :=
  match o with
  | .act _ => inferInstanceAs (Decidable True)
  | .preempt => inferInstanceAs (Decidable (c.opened s.shared))
  | .ret =>
      have : Decidable (s.handlers ≠ []) :=
        match s.handlers with
        | [] => isFalse fun h => h rfl
        | _ :: _ => isTrue (List.cons_ne_nil _ _)
      inferInstanceAs (Decidable (_ ∧ _))
  | .switch _ =>
      have : Decidable (s.handlers = []) :=
        match s.handlers with
        | [] => isTrue rfl
        | _ :: _ => isFalse (List.cons_ne_nil _ _)
      inferInstanceAs (Decidable (_ ∧ _))

/-- The variables after an access. -/
theorem shared_moveTo (s : State σ π ι) (m : σ) (p : π) : (s.moveTo m p).shared = m := by
  obtain ⟨shared, handlers, tasks, current⟩ := s
  cases handlers with
  | nil => rfl
  | cons q below => rfl

/-- The place of the running party after an access. -/
theorem running_moveTo (s : State σ π ι) (m : σ) (p : π) : (s.moveTo m p).running = p := by
  obtain ⟨shared, handlers, tasks, current⟩ := s
  cases handlers with
  | nil => exact Function.update_self ..
  | cons q below => rfl

/-- **Everybody but the running party** is where he was. -/
structure State.SameOthers (s s' : State σ π ι) : Prop where
  /-- The handlers below. -/
  handlers : s'.handlers.tail = s.handlers.tail ∧ (s'.handlers = [] ↔ s.handlers = [])
  /-- The current task. -/
  current : s'.current = s.current
  /-- The other tasks, and the current one below a handler. -/
  tasks : ∀ t, s.handlers ≠ [] ∨ t ≠ s.current → s'.tasks t = s.tasks t

omit [DecidableEq ι] in
/-- The others are the same before anything happens. -/
theorem State.SameOthers.refl (s : State σ π ι) : s.SameOthers s :=
  ⟨⟨rfl, Iff.rfl⟩, rfl, fun _ _ => rfl⟩

omit [DecidableEq ι] in
/-- Others that stay twice stay. -/
theorem State.SameOthers.trans {s s₁ s' : State σ π ι} (h : s.SameOthers s₁) (h' : s₁.SameOthers s') :
    s.SameOthers s' := by
  refine ⟨⟨h'.handlers.1.trans h.handlers.1, h'.handlers.2.trans h.handlers.2⟩,
    h'.current.trans h.current, fun t ht => ?_⟩
  rw [← h.tasks t ht]
  refine h'.tasks t (ht.imp (fun hne => ?_) fun hne => ?_)
  · rwa [Ne, h.handlers.2]
  · rwa [h.current]

/-- An access leaves the others alone. -/
theorem sameOthers_moveTo (s : State σ π ι) (m : σ) (p : π) : s.SameOthers (s.moveTo m p) := by
  obtain ⟨shared, handlers, tasks, current⟩ := s
  cases handlers with
  | nil =>
      refine ⟨⟨rfl, Iff.rfl⟩, rfl, fun t ht => ?_⟩
      have hne : t ≠ current := ht.resolve_left fun hnil => hnil rfl
      exact Function.update_of_ne hne _ _
  | cons q below => exact ⟨⟨rfl, by simp [State.moveTo]⟩, rfl, fun _ _ => rfl⟩

/-! ## The rule -/

variable {c : Code σ π α} {Rel : σ → π → Prop} {Parked : π → Prop} {s s' : State σ π ι} {o : Op ι α}

/-- **What the code has to keep.** -/
structure Rule (c : Code σ π α) (Rel : σ → π → Prop) (Parked : π → Prop) : Prop where
  /-- An action of the running party. -/
  act : ∀ m p a r, Rel m p → c.act m p a = some r → Rel r.1 r.2
  /-- Whoever is interrupted is parked. -/
  park : ∀ m p, Rel m p → c.opened m → Parked p
  /-- While interrupts are open, anybody who is parked can go on. -/
  resume : ∀ m p q, Rel m p → c.opened m → Parked q → Rel m q
  /-- A new handler is parked. -/
  entry : Parked c.entry
  /-- A handler returns with interrupts open. -/
  finished : ∀ m p, Rel m p → c.finished p → c.opened m

/-- **The invariant of the processor**: the running party, and everybody else. -/
structure Inv (Rel : σ → π → Prop) (Parked : π → Prop) (s : State σ π ι) : Prop where
  /-- Who runs. -/
  running : Rel s.shared s.running
  /-- The handlers below. -/
  handlers : ∀ p ∈ s.handlers.tail, Parked p
  /-- The other tasks, and the current one below a handler. -/
  tasks : ∀ t, s.handlers ≠ [] ∨ t ≠ s.current → Parked (s.tasks t)

/-- An action. -/
theorem Inv.moveTo {m : σ} {p : π} (h : Inv Rel Parked s) (hp : Rel m p) :
    Inv Rel Parked (s.moveTo m p) := by
  have hsame := sameOthers_moveTo s m p
  refine ⟨?_, fun q hq => ?_, fun t ht => ?_⟩
  · rwa [shared_moveTo, running_moveTo]
  · rw [hsame.handlers.1] at hq
    exact h.handlers q hq
  · rw [Ne, hsame.handlers.2, hsame.current] at ht
    rw [hsame.tasks t ht]
    exact h.tasks t ht

/-- **One step** keeps the invariant. -/
theorem Inv.step (hc : Rule c Rel Parked) (h : Inv Rel Parked s) (hg : Permits c s o)
    (hs : step c s o = some s') : Inv Rel Parked s' := by
  cases o with
  | act a =>
      obtain ⟨r, hr, rfl⟩ := Option.map_eq_some_iff.mp hs
      exact h.moveTo (hc.act _ _ _ _ h.running hr)
  | preempt =>
      obtain rfl := Option.some.inj hs
      have hpark : Parked s.running := hc.park _ _ h.running hg
      refine ⟨hc.resume _ _ _ h.running hg hc.entry, fun p hp => ?_, fun t _ => ?_⟩
      · -- the interrupted party is the top handler, if there is one
        have hp : p ∈ s.handlers := hp
        cases hh : s.handlers with
        | nil =>
            rw [hh] at hp
            cases hp
        | cons q below =>
            have hq : s.running = q := by rw [State.running, hh]
            have hbelow := h.handlers
            rw [hh] at hp hbelow
            rcases List.mem_cons.mp hp with rfl | hp
            · exact hq ▸ hpark
            · exact hbelow p hp
      · by_cases ht : s.handlers ≠ [] ∨ t ≠ s.current
        · exact h.tasks t ht
        · obtain ⟨hnil, htc⟩ := not_or.mp ht
          have hrun : s.running = s.tasks t := by
            rw [State.running, not_not.mp hnil, not_not.mp htc]
          exact hrun ▸ hpark
  | ret =>
      obtain rfl := Option.some.inj hs
      obtain ⟨hne, hfin⟩ := hg
      have hopen := hc.finished _ _ h.running hfin
      obtain ⟨q, below, hh⟩ := List.exists_cons_of_ne_nil hne
      have hhandlers := h.handlers
      have htasks := fun t => h.tasks t (Or.inl hne)
      rw [hh] at hhandlers
      refine ⟨hc.resume _ _ _ h.running hopen ?_, fun p hp => ?_, fun t _ => htasks t⟩
      · show Parked (State.running { s with handlers := s.handlers.tail })
        rw [hh]
        cases below with
        | nil => exact htasks _
        | cons r below => exact hhandlers r List.mem_cons_self
      · rw [hh] at hp
        exact hhandlers p (List.mem_of_mem_tail hp)
  | switch t =>
      obtain rfl := Option.some.inj hs
      obtain ⟨hnil, hopen⟩ := hg
      have hrun : s.running = s.tasks s.current := by rw [State.running, hnil]
      have hpark (u : ι) : Parked (s.tasks u) := by
        by_cases hu : u = s.current
        · rw [hu, ← hrun]
          exact hc.park _ _ h.running hopen
        · exact h.tasks u (Or.inr hu)
      refine ⟨hc.resume _ _ _ h.running hopen ?_, h.handlers, fun u _ => hpark u⟩
      show Parked (State.running { s with current := t })
      rw [State.running, hnil]
      exact hpark t

/-- **Every run** keeps the invariant. -/
theorem Inv.run {os : List (Op ι α)} (hc : Rule c Rel Parked) (h : Inv Rel Parked s)
    (hr : Run (Permits c) (PreemptiveCpu.step c) s os s') : Inv Rel Parked s' :=
  hr.invariant (Inv Rel Parked) (fun _ _ _ h hg hs => h.step hc hg hs) h

/-- **While interrupts are closed the running party goes on alone**: whatever comes next begins with
its own actions, up to a state in which interrupts are open, or to the end. -/
theorem Inv.alone {os : List (Op ι α)} (hc : Rule c Rel Parked) (h : Inv Rel Parked s)
    (hclosed : ¬ c.opened s.shared) (hr : Run (Permits c) (PreemptiveCpu.step c) s os s') :
    ∃ (as : List α) (rest : List (Op ι α)) (s₁ : State σ π ι), os = as.map Op.act ++ rest ∧
      Run (Permits c) (PreemptiveCpu.step c) s (as.map Op.act) s₁ ∧
      Run (Permits c) (PreemptiveCpu.step c) s₁ rest s' ∧ s.SameOthers s₁ ∧
      (rest = [] ∨ c.opened s₁.shared) := by
  induction hr with
  | nil s => exact ⟨[], [], s, rfl, .nil s, .nil s, .refl s, Or.inl rfl⟩
  | @cons s s₁ s' o os hg hs hr ih =>
      cases o with
      | preempt => exact absurd hg hclosed
      | switch t => exact absurd hg.2 hclosed
      | ret => exact absurd (hc.finished _ _ h.running hg.2) hclosed
      | act a =>
          have h₁ := h.step hc hg hs
          obtain ⟨r, hact, rfl⟩ := Option.map_eq_some_iff.mp hs
          have hsame := sameOthers_moveTo s r.1 r.2
          by_cases hopen : c.opened (s.moveTo r.1 r.2).shared
          · exact ⟨[a], os, _, rfl, .cons hg hs (.nil _), hr, hsame, Or.inr hopen⟩
          · obtain ⟨as, rest, s₂, rfl, hrun, hrest, hothers, hend⟩ := ih h₁ hopen
            exact ⟨a :: as, rest, s₂, rfl, .cons hg hs hrun, hrest, hsame.trans hothers, hend⟩

end PreemptiveCpu
