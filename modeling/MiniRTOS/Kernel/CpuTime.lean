import MiniRTOS.Kernel.Tally

/-! # CPU time

`os_sched_select_next` charges the ticks since the last selection to the outgoing task, if that task is
still RUNNING, and then starts a new interval in any case. A task that blocks, suspends itself or goes
to the tail of its ready list is no longer RUNNING when the charge is made, and its ticks are lost; a
task that is alone at its priority goes to the tail of its own list at every selection and is never
charged at all.

* **`CpuTimeConserved`** — what the run times and the current interval add up to.
* **`TimeOp.Charged`** — the selections that lose nothing.
* **`cpuTime_conserved`** — along every run whose selections lose nothing. -/

namespace MiniRTOS

open Runs

variable {s s' : Sys} {t₀ : Nat}

/-! ## Steps -/

/-- `os_stats_get_cpu_usage` of a non-null handle: a 64-bit quotient, cast to 32 bits. -/
def osStatsGetCpuUsage (k : Kernel) (t : TaskId) : Nat :=
  if k.systemTick = 0 then 0 else (k.tcb t).runTimeTicks * 100 / k.systemTick % 2 ^ 32

/-- What can happen next: time passes (`system_tick++` in `os_kernel_tick_increment`), or anything that
can happen in the system, the rest of the tick and the selections among it. -/
inductive TimeOp
  /-- Time passes: the counter of `os_kernel_tick_increment` goes on. -/
  | elapse
  /-- Any other step. -/
  | call (op : Op)

/-- **One step.** -/
def timeStep (s : Sys) : TimeOp → Option Sys
  | .elapse => some (s.onIsr { s.kernel with systemTick := (s.kernel.systemTick + 1) % 2 ^ 32 })
  | .call op => step s op

/-- Anything but a deletion. -/
def TimeOp.Allowed (s : Sys) : TimeOp → Prop
  | .elapse => True
  | .call op => op.Allowed s ∧ op.deletes = false

/-- The step is `os_sched_select_next`. -/
def TimeOp.selects : TimeOp → Bool
  | .call .selectNext => true
  | _ => false

/-- **A selection that loses no ticks**: none has passed since the last one, or there is no task to
select, or the current task is RUNNING and gives way to another one. -/
def TimeOp.Charged (s : Sys) (op : TimeOp) : Prop :=
  op.selects = true →
    s.kernel.systemTick = s.kernel.lastSwitchTick ∨ osTaskFindHighestReady s.kernel = none ∨
      s.kernel.Charges ∧ ∀ c ∈ s.kernel.current, c ∈ s.kernel.liveTcbs

/-- The steps of the runs that lose no ticks. -/
def ChargedStep (s : Sys) (op : TimeOp) : Prop := op.Allowed s ∧ op.Charged s

/-- Whether a step is allowed can be decided. -/
instance TimeOp.decidableAllowed (s : Sys) : (op : TimeOp) → Decidable (op.Allowed s)
  | .elapse => inferInstanceAs (Decidable True)
  | .call _ => inferInstanceAs (Decidable (_ ∧ _))

/-- Whether a step may take place in such a run can be decided. -/
instance (s : Sys) (op : TimeOp) : Decidable (ChargedStep s op) :=
  inferInstanceAs (Decidable (_ ∧ (_ → _ ∨ _ ∨ _ ∧ ∀ c ∈ s.kernel.current, _)))

/-! ## Conservation -/

/-- The run times of all tasks. -/
def Tally.charged (l : Tally) : Nat := (l.live.map l.runTimes).sum

/-- **CPU time is conserved**: the run times of all tasks and the ticks since the last selection add up
to the ticks since `t₀`, modulo 2^32. -/
def CpuTimeConserved (k : Kernel) (t₀ : Nat) : Prop :=
  (k.tally.charged + (k.systemTick + 2 ^ 32 - k.lastSwitchTick)) % 2 ^ 32
    = (k.systemTick + 2 ^ 32 - t₀) % 2 ^ 32

/-- The first task is dispatched at tick `t₀`, and nothing has been charged yet. -/
structure Dispatched (k : Kernel) (t₀ : Nat) : Prop where
  /-- Time starts at `t₀`. -/
  now : k.systemTick = t₀ ∧ k.lastSwitchTick = t₀ ∧ t₀ < 2 ^ 32
  /-- No run time. -/
  zero : ∀ t ∈ k.liveTcbs, (k.tcb t).runTimeTicks = 0
  /-- No control block has been handed out twice. -/
  nodup : k.liveTcbs.Nodup
  /-- No deletion is pending. -/
  deferred : k.deferredDeleteList = none

/-- The run times add up to the time of the last selection. -/
structure Tally.Conserved (l : Tally) (t₀ : Nat) : Prop where
  /-- The counters have 32 bits. -/
  bounds : l.systemTick < 2 ^ 32 ∧ l.lastSwitchTick < 2 ^ 32 ∧ t₀ < 2 ^ 32
  /-- The sum. -/
  sum : l.charged % 2 ^ 32 = (l.lastSwitchTick + 2 ^ 32 - t₀) % 2 ^ 32
  /-- No control block is live twice. -/
  nodup : l.live.Nodup
  /-- Nothing is deleted. -/
  deferred : l.deferred = none

/-- Changing a value that the list does not look at. -/
theorem map_update_of_not_mem {f : TaskId → Nat} {l : List TaskId} {c : TaskId} (hc : c ∉ l) (v : Nat) :
    l.map (Function.update f c v) = l.map f := by
  refine List.map_congr_left fun y hy => ?_
  have hyc : y ≠ c := fun hyc => hc (hyc ▸ hy)
  exact Function.update_of_ne hyc _ _

/-- Changing one term of a sum. -/
theorem sum_map_update {f : TaskId → Nat} {l : List TaskId} {c : TaskId} (hnd : l.Nodup) (hc : c ∈ l)
    (v : Nat) : (l.map (Function.update f c v)).sum + f c = (l.map f).sum + v := by
  induction l with
  | nil => simp at hc
  | cons x l ih =>
      obtain ⟨hx, hnd⟩ := List.nodup_cons.mp hnd
      simp only [List.map_cons, List.sum_cons]
      by_cases hxc : x = c
      · subst hxc
        rw [map_update_of_not_mem hx, Function.update_self]
        omega
      · have hmem : c ∈ l := (List.mem_cons.mp hc).resolve_left (Ne.symm hxc)
        have := ih hnd hmem
        rw [Function.update_of_ne hxc]
        omega

namespace Tally.Conserved

variable {l : Tally}

/-- The sum in terms of the present. -/
theorem conserved {k : Kernel} (h : k.tally.Conserved t₀) : CpuTimeConserved k t₀ := by
  obtain ⟨hnow, hlast, ht₀⟩ := h.bounds
  have hsum := h.sum
  unfold CpuTimeConserved
  have e₁ : k.tally.systemTick = k.systemTick := rfl
  have e₂ : k.tally.lastSwitchTick = k.lastSwitchTick := rfl
  omega

/-- Charging the interval to one task. -/
theorem charge {c : TaskId} (h : l.Conserved t₀) (hc : c ∈ l.live) : (l.charge c).Conserved t₀ := by
  obtain ⟨hnow, hlast, ht₀⟩ := h.bounds
  refine ⟨⟨hnow, hnow, ht₀⟩, ?_, h.nodup, h.deferred⟩
  have hsum := h.sum
  have hup := sum_map_update (f := l.runTimes) h.nodup hc
    ((l.runTimes c + (l.systemTick + 2 ^ 32 - l.lastSwitchTick)) % 2 ^ 32)
  have hcharged : (l.charge c).charged + l.runTimes c
      = l.charged + (l.runTimes c + (l.systemTick + 2 ^ 32 - l.lastSwitchTick)) % 2 ^ 32 := hup
  show (l.charge c).charged % 2 ^ 32 = (l.systemTick + 2 ^ 32 - t₀) % 2 ^ 32
  omega

/-- An interval of no ticks can be forgotten. -/
theorem forget (h : l.Conserved t₀) (hnow : l.systemTick = l.lastSwitchTick) :
    l.forget.Conserved t₀ := by
  refine ⟨⟨h.bounds.1, h.bounds.1, h.bounds.2.2⟩, ?_, h.nodup, h.deferred⟩
  show l.charged % 2 ^ 32 = (l.systemTick + 2 ^ 32 - t₀) % 2 ^ 32
  rw [hnow]
  exact h.sum

/-- A new task has no run time. -/
theorem addTask {t : TaskId} (h : l.Conserved t₀) (ht : t ∉ l.live) : (l.addTask t).Conserved t₀ := by
  have hcharged : (l.addTask t).charged = l.charged := by
    unfold Tally.charged Tally.addTask
    simp only [List.map_append, List.map_cons, List.map_nil, List.sum_append, List.sum_cons,
      List.sum_nil, map_update_of_not_mem ht, Function.update_self]
    omega
  refine ⟨h.bounds, ?_, ?_, h.deferred⟩
  · rw [hcharged]
    exact h.sum
  · exact List.nodup_append.mpr ⟨h.nodup, List.nodup_singleton t, by
      intro x hx y hy hxy
      obtain rfl := List.mem_singleton.mp hy
      exact ht (hxy ▸ hx)⟩

/-- Memory that holds no task can change. -/
theorem scribble {t : TaskId} {v : Nat} (h : l.Conserved t₀) (ht : t ∉ l.live) :
    ({ l with runTimes := Function.update l.runTimes t v } : Tally).Conserved t₀ := by
  refine ⟨h.bounds, ?_, h.nodup, h.deferred⟩
  show (l.live.map (Function.update l.runTimes t v)).sum % 2 ^ 32 = _
  rw [map_update_of_not_mem ht]
  exact h.sum

end Tally.Conserved

/-! ## Runs -/

/-- A creation adds a task without run time, or nothing. -/
theorem Tally.Conserved.created {a : CreateArgs} {r : Status × Option TaskId × Kernel}
    (h : s.kernel.tally.Conserved t₀) (hun : ∀ t ∈ a.tcbBlock, t ∉ s.kernel.liveTcbs)
    (hr : (∃ t, a.tcbBlock = some t ∧ r.2.2.tally = s.kernel.tally.addTask t) ∨
      r.2.2.tally = s.kernel.tally) : (s.created a r).kernel.tally.Conserved t₀ := by
  rw [Sys.kernel_created]
  rcases hr with ⟨t, ht, hr⟩ | hr
  · rw [hr]
    exact h.addTask (hun t ht)
  · rw [hr]
    exact h

/-- The tick of the task module changes no clock and, with nothing deferred, frees nothing. -/
theorem Tally.Conserved.tick {k k' : Kernel} (h : k.tally.Conserved t₀) (hk : osTaskTick k = some k') :
    k'.tally.Conserved t₀ := by
  obtain ⟨htally, hfree⟩ := tally_osTaskTick hk
  have hlive : k'.liveTcbs = k.liveTcbs := hfree h.deferred
  have hsame : k'.tally = k.tally := by
    rw [htally, hlive, ← h.deferred]
    rfl
  rw [hsame]
  exact h

/-- **A selection** that loses no ticks. -/
theorem Tally.Conserved.select {k : Kernel} (h : k.tally.Conserved t₀)
    (hch : k.systemTick = k.lastSwitchTick ∨ osTaskFindHighestReady k = none ∨
      k.Charges ∧ ∀ c ∈ k.current, c ∈ k.liveTcbs) :
    (osSchedSelectNext k).tally.Conserved t₀ := by
  rcases hch with hnow | hnone | ⟨hch, hlive⟩
  · -- nothing to charge, to whomever it is charged
    rcases tally_osSchedSelectNext k with ht | ⟨c, -, -, ht⟩ | ⟨-, ht⟩
    · rw [ht]
      exact h
    · rw [ht]
      by_cases hlive : c ∈ k.tally.live
      · exact h.charge hlive
      · exact (h.scribble hlive).forget hnow
    · rw [ht]
      exact h.forget hnow
  · -- nobody is ready: the scheduler leaves everything as it is
    have hid : osSchedSelectNext k = k := by
      unfold osSchedSelectNext
      rw [hnone]
    rw [hid]
    exact h
  · -- the outgoing task is charged, and it is one of the tasks the sum runs over
    rcases tally_osSchedSelectNext k with ht | ⟨c, hc, -, ht⟩ | ⟨hno, -⟩
    · rw [ht]
      exact h
    · rw [ht]
      exact h.charge (hlive c hc)
    · exact absurd hch hno

/-- A scribble changes the run time of its task only. -/
theorem tally_scribble (k : Kernel) (t : TaskId) (v : Tcb) (nx pv : Option TaskId) :
    (k.scribble t v nx pv).tally
      = { k.tally with runTimes := Function.update k.tally.runTimes t v.runTimeTicks } := by
  unfold Kernel.tally
  congr 1
  funext x
  show (Function.update k.tcb t v x).runTimeTicks
    = Function.update (fun x => (k.tcb x).runTimeTicks) t v.runTimeTicks x
  rw [Function.update_apply, Function.update_apply]
  split <;> rfl

/-- **One step** that loses no ticks. -/
theorem Tally.Conserved.step {op : TimeOp} (h : s.kernel.tally.Conserved t₀) (hop : ChargedStep s op)
    (hs : timeStep s op = some s') : s'.kernel.tally.Conserved t₀ := by
  obtain ⟨hallowed, hcharged⟩ := hop
  cases op with
  | elapse =>
      obtain rfl := Option.some.inj hs
      refine ⟨⟨Nat.mod_lt _ (by decide), h.bounds.2⟩, h.sum, h.nodup, h.deferred⟩
  | call op =>
      have hs : MiniRTOS.step s op = some s' := hs
      -- only creation, the tick, the switch and a stray write touch what is counted
      by_cases hb : op.booked = false
      · rw [step_tally hb hs]
        exact h
      cases op with
      | create a =>
          obtain rfl := Option.some.inj hs
          refine h.created hallowed.1.2.2.1 ?_
          rcases tally_osTaskCreate s.kernel a with ⟨t, -, ht, -, hr⟩ | ⟨-, hr, -⟩
          · exact Or.inl ⟨t, ht, hr⟩
          · exact Or.inr hr
      | createSuspended a =>
          obtain rfl := Option.some.inj hs
          refine h.created hallowed.1.2.2.1 ?_
          rw [(tally_osTaskCreateSuspended s.kernel a).2]
          rcases tally_osTaskCreate s.kernel a with ⟨t, -, ht, -, hr⟩ | ⟨-, hr, -⟩
          · exact Or.inl ⟨t, ht, hr⟩
          · exact Or.inr hr
      | deleteSelf => cases hallowed.2
      | tick =>
          obtain ⟨k', hk, rfl⟩ := Option.map_eq_some_iff.mp hs
          exact h.tick hk
      | selectNext =>
          obtain rfl := Option.some.inj hs
          exact h.select (hcharged rfl)
      | scribble t v nx pv =>
          obtain rfl := Option.some.inj hs
          show (s.kernel.scribble t v nx pv).tally.Conserved t₀
          rw [tally_scribble]
          exact h.scribble (hallowed.1.2.2.1 t rfl)
      | _ => exact absurd rfl hb

/-- Dispatching the first task. -/
theorem Dispatched.conserved {k : Kernel} (h : Dispatched k t₀) : k.tally.Conserved t₀ := by
  obtain ⟨hnow, hlast, ht₀⟩ := h.now
  have hcharged : k.tally.charged = 0 := by
    refine List.sum_eq_zero_iff_forall_eq_nat.mpr fun n hn => ?_
    obtain ⟨t, ht, rfl⟩ := List.mem_map.mp hn
    exact h.zero t ht
  have e₁ : k.tally.systemTick = t₀ := hnow
  have e₂ : k.tally.lastSwitchTick = t₀ := hlast
  refine ⟨⟨e₁ ▸ ht₀, e₂ ▸ ht₀, ht₀⟩, ?_, h.nodup, h.deferred⟩
  rw [hcharged, e₂]
  omega

/-- **CPU time.** From the dispatch of the first task on, in every state of a run of ticks, selections
and other calls without deletions, the run times of all tasks and the ticks since the last selection
add up to the ticks since the dispatch, as long as every selection is made with no ticks to charge, or
with a RUNNING current task that gives way to another one. -/
theorem cpuTime_conserved {s₀ : Sys} {ops : List TimeOp} (h₀ : Dispatched s₀.kernel t₀)
    (hr : Run ChargedStep timeStep s₀ ops s) : CpuTimeConserved s.kernel t₀ := by
  have hinv := hr.invariant (fun s => s.kernel.tally.Conserved t₀)
    (fun _ _ _ h hop hs => h.step hop hs) h₀.conserved
  exact hinv.conserved

/-- Whether a first selection has been made can be decided. -/
instance (k : Kernel) (t₀ : Nat) : Decidable (Dispatched k t₀) :=
  decidable_of_iff ((k.systemTick = t₀ ∧ k.lastSwitchTick = t₀ ∧ t₀ < 2 ^ 32) ∧
      (∀ t ∈ k.liveTcbs, (k.tcb t).runTimeTicks = 0) ∧ k.liveTcbs.Nodup ∧ k.deferredDeleteList = none)
    ⟨fun ⟨h₁, h₂, h₃, h₄⟩ => ⟨h₁, h₂, h₃, h₄⟩, fun ⟨h₁, h₂, h₃, h₄⟩ => ⟨h₁, h₂, h₃, h₄⟩⟩

/-- Whether the run times add up can be decided. -/
instance (k : Kernel) (t₀ : Nat) : Decidable (CpuTimeConserved k t₀) :=
  inferInstanceAs (Decidable (_ = _))

/-- A task of priority 5 is dispatched; one of priority 2 exists and is suspended. -/
def dispatchTrace : List Op :=
  [.create (taskAt 0x100 5), .createSuspended (taskAt 0x200 2), .selectNext]

/-- Two ticks pass, the first task resumes the second one and is preempted by it. -/
def preemptedTrace : List TimeOp :=
  [.elapse, .call .tick, .elapse, .call .tick, .call (.resume 0x200), .call .selectNext, .elapse,
    .call .tick]

/-- The preempted task has been charged its two ticks. -/
theorem cpuTime_conserved_preemptedTrace : ∃ s₀ s,
    Run (fun s op => op.Allowed s) step .boot dispatchTrace s₀ ∧ Dispatched s₀.kernel 0 ∧
      Run ChargedStep timeStep s₀ preemptedTrace s ∧ CpuTimeConserved s.kernel 0 ∧
      (s.kernel.tcb 0x100).runTimeTicks = 2 := by
  obtain ⟨s₀, hr₀, h₀, hrun⟩ := exists_run_of_exec (fun s op => op.Allowed s) step Sys.boot dispatchTrace
    (fun s₀ => Dispatched s₀.kernel 0 ∧ (exec ChargedStep timeStep s₀ preemptedTrace).any
      (fun s => decide ((s.kernel.tcb 0x100).runTimeTicks = 2)) = true) (by decide +kernel)
  obtain ⟨s, hr, hcharged⟩ := exists_run_of_exec ChargedStep timeStep s₀ preemptedTrace
    (fun s => (s.kernel.tcb 0x100).runTimeTicks = 2) hrun
  exact ⟨s₀, s, hr₀, h₀, hr, cpuTime_conserved h₀ hr, hcharged⟩

/-- One system tick: the only ready task goes to the tail of its own list. -/
def busyTrace : List TimeOp := [.elapse, .call .tick, .call .selectNext]

/-- The task has run for one tick out of one, and its run time and its CPU usage are zero. -/
theorem cpuTime_lost : ∃ s₀ s,
    Run (fun s op => op.Allowed s) step .boot dispatchTrace s₀ ∧ Dispatched s₀.kernel 0 ∧
      Run (fun s op => TimeOp.Allowed s op) timeStep s₀ busyTrace s ∧
      s.kernel.systemTick = 1 ∧ s.kernel.current = some 0x100 ∧
      osStatsGetCpuUsage s.kernel 0x100 = 0 ∧ ¬ CpuTimeConserved s.kernel 0 := by
  obtain ⟨s₀, hr₀, h₀, hrun⟩ := exists_run_of_exec (fun s op => op.Allowed s) step Sys.boot dispatchTrace
    (fun s₀ => Dispatched s₀.kernel 0 ∧
      (exec (fun s op => TimeOp.Allowed s op) timeStep s₀ busyTrace).any
        (fun s => decide (s.kernel.systemTick = 1 ∧ s.kernel.current = some 0x100 ∧
          osStatsGetCpuUsage s.kernel 0x100 = 0 ∧ ¬ CpuTimeConserved s.kernel 0)) = true)
    (by decide +kernel)
  obtain ⟨s, hr, hlost⟩ := exists_run_of_exec (fun s op => TimeOp.Allowed s op) timeStep s₀ busyTrace
    (fun s => s.kernel.systemTick = 1 ∧ s.kernel.current = some 0x100 ∧
      osStatsGetCpuUsage s.kernel 0x100 = 0 ∧ ¬ CpuTimeConserved s.kernel 0) hrun
  exact ⟨s₀, s, hr₀, h₀, hr, hlost⟩

end MiniRTOS
