import MiniRTOS.Kernel.Preemption

/-! # Nested interrupt handlers, one memory access at a time

With `OS_CONFIG_USE_INTERRUPT_NESTING` a handler brackets its body with `os_port_isr_enter` and
`os_port_isr_exit`. Neither masks interrupts: a more urgent handler may come between the load and the
store of `irq_nesting_depth++`, and between any two accesses of the exit. `Preemption` runs these
functions in one piece; here a handler is a program counter, the handlers in progress are a stack,
and between any two accesses another handler may start, run to its end and go.

* **`IsrPc`**, **`Nest.next`** — the accesses of a handler to the three shared variables, in order.
* **`Nest.Inv`** — `irq_nesting_depth` is the number of handlers that are counted in, whatever a
  suspended handler loaded is still right when it goes on, and a request that is not yet a pending
  PendSV has a handler that will find it.
* **`no_request_lost`** — in every interleaving, once the last handler has returned the depth is zero
  and every request of a handler is a pending PendSV. -/

namespace MiniRTOS

open Runs

/-! ## The accesses of a handler -/

/-- **Where a handler is.** `d` is a value it has loaded from `irq_nesting_depth`. -/
inductive IsrPc
  /-- `irq_nesting_depth++` of `os_sched_isr_enter`: the load. -/
  | enterLoad
  /-- The store of the incremented value. -/
  | enterStore (d : Nat)
  /-- Between `os_port_isr_enter` and `os_port_isr_exit`. -/
  | body
  /-- `if (irq_nesting_depth > 0)` of `os_sched_isr_exit`. -/
  | exitTest
  /-- `irq_nesting_depth--`: the load. -/
  | exitLoad
  /-- The store of the decremented value. -/
  | exitStore (d : Nat)
  /-- `if (irq_nesting_depth == 0)`. -/
  | exitCheck
  /-- `if (yield_pending)` of `os_sched_consume_yield_pending`. -/
  | consumeTest
  /-- `yield_pending = 0`. -/
  | consumeClear
  /-- `os_port_yield()`. -/
  | portYield
  /-- The return from the handler. -/
  | done
deriving DecidableEq

/-- The shared variables and the handlers in progress. -/
structure Nest where
  /-- `irq_nesting_depth`. -/
  depth : Nat
  /-- `yield_pending`. -/
  yieldPending : Bool
  /-- The PendSV pending bit. -/
  pendSv : Bool
  /-- The handlers in progress, the running one first. -/
  frames : List IsrPc
  /-- Not in the program: a handler has asked for a switch, and no PendSV has been taken since. -/
  owed : Bool
deriving DecidableEq

/-- `os_sched_init`, as far as handlers see it. -/
def Nest.init : Nest := ⟨0, false, false, [], false⟩

/-- **The next access of the running handler**, on 32-bit words. -/
def Nest.next (σ : Nest) : Option Nest :=
  match σ.frames with
  | [] => none
  | .enterLoad :: outer => some { σ with frames := .enterStore σ.depth :: outer }
  | .enterStore d :: outer => some { σ with depth := (d + 1) % 2 ^ 32, frames := .body :: outer }
  | .body :: outer => some { σ with frames := .exitTest :: outer }
  | .exitTest :: outer =>
      some { σ with frames := (if σ.depth > 0 then .exitLoad else .done) :: outer }
  | .exitLoad :: outer => some { σ with frames := .exitStore σ.depth :: outer }
  | .exitStore d :: outer =>
      some { σ with depth := (d + (2 ^ 32 - 1)) % 2 ^ 32, frames := .exitCheck :: outer }
  | .exitCheck :: outer =>
      some { σ with frames := (if σ.depth = 0 then .consumeTest else .done) :: outer }
  | .consumeTest :: outer =>
      some { σ with frames := (if σ.yieldPending then .consumeClear else .done) :: outer }
  | .consumeClear :: outer => some { σ with yieldPending := false, frames := .portYield :: outer }
  | .portYield :: outer => some { σ with pendSv := true, frames := .done :: outer }
  | .done :: outer => some { σ with frames := outer }

/-- **What can happen between two accesses.** -/
inductive NestOp
  /-- A more urgent exception is taken. -/
  | preempt
  /-- The running handler makes a call that ends in `os_sched_request_switch_from_isr`. -/
  | request
  /-- The running handler makes its next access. -/
  | next
  /-- `yield_pending = 1` of an `os_sched_yield` of a task. -/
  | taskFlag
  /-- The `os_port_yield()` of an `os_sched_yield` of a task. -/
  | taskYield
  /-- PendSV is taken: the processor clears its pending bit, and a new task is selected. -/
  | pendSv
deriving DecidableEq

/-- One step. -/
def Nest.step (σ : Nest) : NestOp → Option Nest
  | .preempt => some { σ with frames := .enterLoad :: σ.frames }
  | .request => some { σ with yieldPending := true, owed := true }
  | .next => σ.next
  | .taskFlag => some { σ with yieldPending := true }
  | .taskYield => some { σ with pendSv := true }
  | .pendSv => some { σ with pendSv := false, owed := false }

/-- **What the processor does by itself.** Each priority has at most one handler in progress. Requests
come from the body of a handler. Tasks, and PendSV with its lowest priority, run when no handler is
in progress. -/
def Nest.Permits (σ : Nest) : NestOp → Prop
  | .preempt => σ.frames.length < 2 ^ 4
  | .request => σ.frames.head? = some .body
  | .next => True
  | .taskFlag | .taskYield => σ.frames = []
  | .pendSv => σ.frames = [] ∧ σ.pendSv = true

/-- Whether a step is permitted can be decided. -/
instance (σ : Nest) (o : NestOp) : Decidable (σ.Permits o) :=
  match o with
  | .preempt => inferInstanceAs (Decidable (σ.frames.length < 2 ^ 4))
  | .request => inferInstanceAs (Decidable (σ.frames.head? = some .body))
  | .next => inferInstanceAs (Decidable True)
  | .taskFlag | .taskYield => inferInstanceAs (Decidable (σ.frames = []))
  | .pendSv => inferInstanceAs (Decidable (σ.frames = [] ∧ σ.pendSv = true))

/-! ## Uninterrupted handlers -/

/-- What `Preemption` sees of it. -/
def Nest.irq (σ : Nest) (k : Kernel) : Irq :=
  ⟨{ k with yieldPending := σ.yieldPending, pendSv := σ.pendSv }, σ.depth⟩

/-- The next access is always permitted. -/
theorem Nest.run_next {σ σ₁ σ' : Nest} {os : List NestOp} (h : σ.next = some σ₁)
    (hr : Run Nest.Permits Nest.step σ₁ os σ') : Run Nest.Permits Nest.step σ (.next :: os) σ' :=
  .cons trivial h hr

/-- **`os_sched_isr_enter` in one piece**: its two accesses, when nothing comes between them. -/
theorem enter_uninterrupted {σ : Nest} {outer : List IsrPc} (k : Kernel)
    (hf : σ.frames = .enterLoad :: outer) (hd : σ.depth + 1 < 2 ^ 32) :
    ∃ σ', Run Nest.Permits Nest.step σ [.next, .next] σ' ∧ σ'.frames = .body :: outer ∧
      σ'.irq k = osSchedIsrEnter (σ.irq k) := by
  obtain ⟨d, y, p, fs, w⟩ := σ
  obtain rfl : fs = .enterLoad :: outer := hf
  refine ⟨⟨(d + 1) % 2 ^ 32, y, p, .body :: outer, w⟩,
    Nest.run_next rfl (Nest.run_next rfl (.nil _)), rfl, ?_⟩
  have hd' : (d + 1) % 2 ^ 32 = d + 1 := Nat.mod_eq_of_lt hd
  simp only [Nest.irq, osSchedIsrEnter, hd']

/-- `irq_nesting_depth--`, from its test to its store. -/
theorem decrement_uninterrupted {d : Nat} (hd : d + 1 < 2 ^ 32) (y p w : Bool) (outer : List IsrPc) :
    Run Nest.Permits Nest.step ⟨d + 1, y, p, .exitTest :: outer, w⟩ [.next, .next, .next]
      ⟨d, y, p, .exitCheck :: outer, w⟩ := by
  have hstore : Nest.next ⟨d + 1, y, p, .exitStore (d + 1) :: outer, w⟩
      = some ⟨d, y, p, .exitCheck :: outer, w⟩ := by
    have hmod : (d + 1 + (2 ^ 32 - 1)) % 2 ^ 32 = d := by omega
    simp only [Nest.next, hmod]
  exact Nest.run_next rfl (Nest.run_next rfl (Nest.run_next hstore (.nil _)))

/-- **`os_sched_isr_exit` in one piece**: its accesses, when nothing comes between them. -/
theorem exit_uninterrupted {σ : Nest} {outer : List IsrPc} (k : Kernel)
    (hf : σ.frames = .exitTest :: outer) (hd : σ.depth < 2 ^ 32) :
    ∃ os σ', (∀ o ∈ os, o = .next) ∧ Run Nest.Permits Nest.step σ os σ' ∧ σ'.frames = .done :: outer ∧
      σ'.irq k = osSchedIsrExit (σ.irq k) := by
  obtain ⟨d, y, p, fs, w⟩ := σ
  obtain rfl : fs = .exitTest :: outer := hf
  cases d with
  | zero =>
      refine ⟨[.next], ⟨0, y, p, .done :: outer, w⟩, by simp, Nest.run_next rfl (.nil _), rfl, ?_⟩
      simp [Nest.irq, osSchedIsrExit]
  | succ d =>
      have hrun := decrement_uninterrupted hd y p w outer
      match d, y with
      | 0, false =>
          have hrest := Nest.run_next (σ := ⟨0, false, p, .exitCheck :: outer, w⟩) rfl
            (Nest.run_next rfl (.nil _))
          refine ⟨_, _, ?_, hrun.append hrest, rfl, ?_⟩
          · simp
          · simp [Nest.irq, osSchedIsrExit, osSchedConsumeYieldPending]
      | 0, true =>
          have hrest := Nest.run_next (σ := ⟨0, true, p, .exitCheck :: outer, w⟩) rfl
            (Nest.run_next rfl (Nest.run_next rfl (Nest.run_next rfl (.nil _))))
          refine ⟨_, _, ?_, hrun.append hrest, rfl, ?_⟩
          · simp
          · simp [Nest.irq, osSchedIsrExit, osSchedConsumeYieldPending, osPortYield]
      | d + 1, y =>
          have hrest := Nest.run_next (σ := ⟨d + 1, y, p, .exitCheck :: outer, w⟩) rfl (.nil _)
          refine ⟨_, _, ?_, hrun.append hrest, rfl, ?_⟩
          · simp
          · simp [Nest.irq, osSchedIsrExit]

/-! ## The invariant -/

/-- Counted in `irq_nesting_depth`: between the store of the entry and the store of the exit. -/
def IsrPc.counted : IsrPc → Bool
  | .body | .exitTest | .exitLoad | .exitStore _ => true
  | _ => false

/-- The handler has still to look at `yield_pending`, if it finds the depth zero. -/
def IsrPc.willTest : IsrPc → Bool
  | .consumeClear | .portYield | .done => false
  | _ => true

/-- The handler has found `yield_pending` set and will request a PendSV. -/
def IsrPc.commits : IsrPc → Bool
  | .consumeClear | .portYield => true
  | _ => false

/-- The handlers that are counted. -/
def counting (fs : List IsrPc) : Nat := fs.countP IsrPc.counted

/-- **What a handler relies on** when it goes on, above the handlers it interrupted: the value it
loaded is still the right one; the request is left to the outermost handler. -/
def IsrPc.Sound (outer : List IsrPc) : IsrPc → Prop
  | .enterStore d => d = counting outer
  | .exitStore d => d = counting outer + 1
  | .consumeTest | .consumeClear | .portYield => counting outer = 0
  | _ => True

/-- Each handler in progress can rely on it. -/
def StackSound : List IsrPc → Prop
  | [] => True
  | pc :: outer => pc.Sound outer ∧ StackSound outer

/-- A handler in progress will find the depth zero and look at `yield_pending`. -/
def Awaits : List IsrPc → Prop
  | [] => False
  | pc :: outer => (pc.willTest = true ∧ counting outer = 0) ∨ Awaits outer

/-- A handler in progress will request a PendSV. -/
def Commits (fs : List IsrPc) : Prop := ∃ pc ∈ fs, pc.commits = true

/-- **The invariant of the nested handlers.** -/
structure Nest.Inv (σ : Nest) : Prop where
  /-- `irq_nesting_depth` counts the handlers in progress. -/
  depth : σ.depth = counting σ.frames
  /-- One handler for each priority. -/
  bounded : σ.frames.length ≤ 2 ^ 4
  /-- The suspended handlers. -/
  sound : StackSound σ.frames
  /-- No request is lost. -/
  owed : σ.owed = true → σ.pendSv = true ∨ Commits σ.frames ∨ (σ.yieldPending = true ∧ Awaits σ.frames)

/-! ### Stacks -/

/-- How many of a first handler and the rest are counted. -/
theorem counting_cons (pc : IsrPc) (outer : List IsrPc) :
    counting (pc :: outer) = counting outer + if pc.counted then 1 else 0 := List.countP_cons ..

/-- There are no more of them than handlers. -/
theorem counting_le_length (fs : List IsrPc) : counting fs ≤ fs.length := List.countP_le_length

/-- A first handler commits, or one of the rest does. -/
theorem commits_cons {pc : IsrPc} {outer : List IsrPc} :
    Commits (pc :: outer) ↔ pc.commits = true ∨ Commits outer := by
  simp [Commits]

/-- A counted handler has its exit ahead. -/
theorem IsrPc.willTest_of_counted {pc : IsrPc} (h : pc.counted = true) : pc.willTest = true := by
  cases pc <;> first | rfl | cases h

/-- **The outermost counted handler** will find the depth zero. -/
theorem awaits_of_counting {fs : List IsrPc} (h : 0 < counting fs) : Awaits fs := by
  induction fs with
  | nil => cases h
  | cons pc outer ih =>
      rcases Nat.eq_zero_or_pos (counting outer) with hout | hout
      · refine Or.inl ⟨IsrPc.willTest_of_counted ?_, hout⟩
        rw [counting_cons, hout] at h
        by_contra hpc
        simp [hpc] at h
      · exact Or.inr (ih hout)

/-! ### One access -/

/-- The accesses that only move the running handler on. -/
theorem Nest.Inv.move {σ : Nest} {pc pc' : IsrPc} {outer : List IsrPc} {d : Nat} (h : σ.Inv)
    (hf : σ.frames = pc :: outer) (hd : d = counting (pc' :: outer)) (hsound : pc'.Sound outer)
    (hcommit : pc.commits = true → pc'.commits = true)
    (htest : pc.willTest = true → counting outer = 0 →
      pc'.willTest = true ∨ pc'.commits = true ∨ σ.yieldPending = false) :
    Nest.Inv { σ with depth := d, frames := pc' :: outer } := by
  have hs : StackSound (pc :: outer) := hf ▸ h.sound
  have hb : (pc :: outer).length ≤ 2 ^ 4 := hf ▸ h.bounded
  refine ⟨hd, hb, ⟨hsound, hs.2⟩, fun how => ?_⟩
  have ho := h.owed how
  rw [hf] at ho
  rcases ho with hp | hc | ⟨hy, haw⟩
  · exact Or.inl hp
  · exact Or.inr (Or.inl (commits_cons.mpr ((commits_cons.mp hc).imp_left hcommit)))
  · rcases haw with ⟨ht, hout⟩ | haw
    · rcases htest ht hout with ht' | hc | hy'
      · exact Or.inr (Or.inr ⟨hy, Or.inl ⟨ht', hout⟩⟩)
      · exact Or.inr (Or.inl (commits_cons.mpr (Or.inl hc)))
      · exact absurd hy (by simp [hy'])
    · exact Or.inr (Or.inr ⟨hy, Or.inr haw⟩)

/-- **One access of the running handler** keeps the invariant. -/
theorem Nest.Inv.next {σ σ' : Nest} (h : σ.Inv) (hs : σ.next = some σ') : σ'.Inv := by
  unfold Nest.next at hs
  cases hf : σ.frames with
  | nil =>
      rw [hf] at hs
      cases hs
  | cons pc outer =>
  rw [hf] at hs
  have hdepth : σ.depth = counting outer + if pc.counted then 1 else 0 := by
    rw [h.depth, hf, counting_cons]
  have hsame (pc' : IsrPc) (hc : pc'.counted = pc.counted) : σ.depth = counting (pc' :: outer) := by
    rw [hdepth, counting_cons, hc]
  have hlt : (pc :: outer).length ≤ 2 ^ 4 := hf ▸ h.bounded
  have hout : counting outer ≤ 2 ^ 4 := (counting_le_length outer).trans ((Nat.le_succ _).trans hlt)
  have hsound : pc.Sound outer ∧ StackSound outer := by
    have hs' := h.sound
    rwa [hf] at hs'
  cases pc with
  | enterLoad =>
      obtain rfl := Option.some.inj hs
      exact h.move hf (hsame _ rfl) hdepth id (fun _ _ => Or.inl rfl)
  | enterStore d =>
      obtain rfl := Option.some.inj hs
      have hd : d = counting outer := hsound.1
      refine h.move hf ?_ trivial id fun _ _ => Or.inl rfl
      rw [counting_cons, hd]
      exact Nat.mod_eq_of_lt (by omega)
  | body =>
      obtain rfl := Option.some.inj hs
      exact h.move hf (hsame _ rfl) trivial id (fun _ _ => Or.inl rfl)
  | exitTest =>
      obtain rfl := Option.some.inj hs
      -- the running handler is itself counted
      have hpos : σ.depth > 0 := by
        rw [hdepth]
        exact Nat.succ_pos _
      rw [if_pos hpos]
      exact h.move hf (hsame _ rfl) trivial id (fun _ _ => Or.inl rfl)
  | exitLoad =>
      obtain rfl := Option.some.inj hs
      exact h.move hf (hsame _ rfl) hdepth id (fun _ _ => Or.inl rfl)
  | exitStore d =>
      obtain rfl := Option.some.inj hs
      have hd : d = counting outer + 1 := hsound.1
      refine h.move hf ?_ trivial id fun _ _ => Or.inl rfl
      rw [counting_cons, hd]
      show (counting outer + 1 + (2 ^ 32 - 1)) % 2 ^ 32 = counting outer
      omega
  | exitCheck =>
      obtain rfl := Option.some.inj hs
      have hread : σ.depth = counting outer := hdepth
      by_cases hz : σ.depth = 0
      · rw [if_pos hz]
        exact h.move hf (hsame _ rfl) (hread.symm.trans hz) id fun _ _ => Or.inl rfl
      · rw [if_neg hz]
        exact h.move hf (hsame _ rfl) trivial id
          fun _ ho => absurd (hread.trans ho) hz
  | consumeTest =>
      obtain rfl := Option.some.inj hs
      by_cases hy : σ.yieldPending = true
      · rw [if_pos hy]
        exact h.move hf (hsame _ rfl) hsound.1 (fun _ => rfl)
          fun _ _ => Or.inr (Or.inl rfl)
      · rw [if_neg hy]
        exact h.move hf (hsame _ rfl) trivial id
          fun _ _ => Or.inr (Or.inr (by simpa using hy))
  | consumeClear =>
      obtain rfl := Option.some.inj hs
      -- what the flag said is now the handler's own intention
      refine ⟨hsame _ rfl, hlt, hsound, fun _ => ?_⟩
      exact Or.inr (Or.inl (commits_cons.mpr (Or.inl rfl)))
  | portYield =>
      obtain rfl := Option.some.inj hs
      refine ⟨hsame _ rfl, hlt, ⟨trivial, hsound.2⟩, ?_⟩
      exact fun _ => Or.inl rfl
  | done =>
      obtain rfl := Option.some.inj hs
      refine ⟨hdepth, (Nat.le_succ _).trans hlt, hsound.2, fun how => ?_⟩
      have ho := h.owed how
      rw [hf] at ho
      refine ho.imp_right (Or.imp (fun hc => ?_) (And.imp_right fun haw => ?_))
      · exact (commits_cons.mp hc).resolve_left (by decide)
      · exact haw.resolve_left fun ht => absurd ht.1 (by decide)

/-- **One step** keeps the invariant. -/
theorem Nest.Inv.step {σ σ' : Nest} {o : NestOp} (h : σ.Inv) (hg : σ.Permits o)
    (hs : σ.step o = some σ') : σ'.Inv := by
  cases o with
  | preempt =>
      obtain rfl := Option.some.inj hs
      refine ⟨h.depth.trans (counting_cons .enterLoad _).symm, hg, ⟨trivial, h.sound⟩, fun how => ?_⟩
      exact (h.owed how).imp_right (Or.imp (fun hc => commits_cons.mpr (Or.inr hc))
        (And.imp_right Or.inr))
  | request =>
      obtain rfl := Option.some.inj hs
      refine ⟨h.depth, h.bounded, h.sound, fun _ => Or.inr (Or.inr ⟨rfl, awaits_of_counting ?_⟩)⟩
      -- the handler that asks is counted
      obtain ⟨outer, hf⟩ := List.head?_eq_some_iff.mp hg
      show 0 < counting σ.frames
      rw [hf, counting_cons]
      exact Nat.succ_pos _
  | next => exact h.next hs
  | taskFlag =>
      obtain rfl := Option.some.inj hs
      have hnil : σ.frames = [] := hg
      refine ⟨h.depth, h.bounded, h.sound, fun how => ?_⟩
      have ho := h.owed how
      rw [hnil] at ho
      exact Or.inl (ho.resolve_right (by simp [Commits, Awaits]))
  | taskYield =>
      obtain rfl := Option.some.inj hs
      exact ⟨h.depth, h.bounded, h.sound, fun _ => Or.inl rfl⟩
  | pendSv =>
      obtain rfl := Option.some.inj hs
      exact ⟨h.depth, h.bounded, h.sound, fun how => absurd how Bool.false_ne_true⟩

/-- Nothing is in progress at the start. -/
theorem Nest.Inv.init : Nest.init.Inv :=
  ⟨rfl, Nat.zero_le _, trivial, fun how => absurd how (by decide)⟩

/-- **Every interleaving** keeps the invariant. -/
theorem Nest.Inv.run {σ σ' : Nest} {os : List NestOp} (hr : Run Nest.Permits Nest.step σ os σ')
    (h : σ.Inv) : σ'.Inv :=
  hr.invariant Nest.Inv (fun _ _ _ => Nest.Inv.step) h

/-- **No request of a nested handler is lost.** In every interleaving of handlers, tasks and PendSV,
`irq_nesting_depth` counts the handlers that have entered and not yet left; when no handler is in
progress it is zero, and a PendSV is pending if a handler has asked for a switch since the last one.
Only a handler that interrupted none of those requests it. -/
theorem no_request_lost {σ : Nest} {os : List NestOp}
    (hr : Run Nest.Permits Nest.step Nest.init os σ) :
    σ.depth = σ.frames.countP IsrPc.counted ∧
      (σ.frames = [] → σ.depth = 0 ∧ (σ.owed = true → σ.pendSv = true)) ∧
      ∀ outer, σ.frames = .portYield :: outer → ∀ pc ∈ outer, pc.counted = false := by
  have h := Nest.Inv.init.run hr
  refine ⟨h.depth, fun hnil => ⟨?_, fun how => ?_⟩, fun outer hf pc hpc => ?_⟩
  · rw [h.depth, hnil]
    rfl
  · have ho := h.owed how
    rw [hnil] at ho
    exact ho.resolve_right (by simp [Commits, Awaits])
  · have hsound := h.sound
    rw [hf] at hsound
    have hzero : outer.countP IsrPc.counted = 0 := hsound.1
    exact Bool.eq_false_iff.mpr (List.countP_eq_zero.mp hzero pc hpc)

/-- A handler is interrupted between the load and the store of its entry by one that runs to its end and
asks for a switch, and once more after its last look at the depth. -/
def nestedTrace : List NestOp :=
  [.taskFlag, .preempt, .next,
    .preempt, .next, .next, .request, .next, .next, .next, .next, .next, .next, .next, .next, .next,
    .next, .request, .next, .next, .next, .next, .next,
    .preempt, .next, .next, .request, .next, .next, .next, .next, .next, .next, .next, .next, .next,
    .next, .next]

/-- After both handlers have returned, the request is a pending PendSV. -/
theorem no_request_lost_nested :
    ∃ σ, Run Nest.Permits Nest.step Nest.init nestedTrace σ ∧ σ.frames = [] ∧ σ.owed = true ∧
      σ.depth = 0 ∧ σ.pendSv = true := by
  obtain ⟨σ, hr, hf, ho⟩ := exists_run_of_exec Nest.Permits Nest.step Nest.init nestedTrace
    (fun σ => σ.frames = [] ∧ σ.owed = true) (by decide)
  have h := (no_request_lost hr).2.1 hf
  exact ⟨σ, hr, hf, ho, h.1, h.2 ho⟩

end MiniRTOS
