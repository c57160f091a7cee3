import Mathlib.Algebra.Order.BigOperators.Group.List
import Mathlib.Algebra.Order.Group.Nat
import MiniRTOS.Kernel.CpuTime
import MiniRTOS.Kernel.TaskTable

/-! # CPU usage

Ticks get lost when a selection finds its current task no longer RUNNING (`CpuTime`), but none is ever
counted twice: whatever happens, the run times of the live tasks add up to no more than the tick of
the last selection. This survives deletions of any task, selections that charge a control block
that has been freed, new tasks in its memory, and `os_stats_reset`, whose walk over a table full of
old entries may write to freed blocks.

* **`UsageOp`** — ticks, creations, deletions, resets and every other call.
* **`Tally.Covered`** — the run times of the live tasks fit into the time there was.
* **`cpuUsage_sum_le`** — until the tick counter wraps around, the percentages of the live tasks add up
  to at most 100. -/

namespace MiniRTOS

open Runs

variable {k k' : Kernel} {l : Tally} {σ σ' : Roster}

/-! ## Steps -/

/-- What can happen next. -/
inductive UsageOp
  /-- Time passes. -/
  | elapse
  /-- A creation, a deletion or any other step. -/
  | roster (op : RosterOp)
  /-- `os_stats_reset`. -/
  | statsReset

/-- **One step.** -/
def usageStep (σ : Roster) : UsageOp → Option Roster
  | .elapse => (timeStep σ.sys .elapse).map fun s => { σ with sys := s }
  | .roster op => rosterStep σ op
  | .statsReset => (osStatsReset σ.sys.kernel).map fun k => { σ with sys := σ.sys.after k }

/-- The discipline of the environment, until the tick counter is about to wrap around. -/
def UsageOp.Allowed (σ : Roster) : UsageOp → Prop
  | .elapse => σ.sys.kernel.systemTick + 1 < 2 ^ 32
  | .roster op => op.Allowed σ
  | .statsReset => σ.sys.Permits .startup

/-- Whether a step is allowed can be decided. -/
instance UsageOp.decidableAllowed (σ : Roster) : (op : UsageOp) → Decidable (op.Allowed σ)
  | .elapse => inferInstanceAs (Decidable (_ < _))
  | .roster op => inferInstanceAs (Decidable (op.Allowed σ))
  | .statsReset => inferInstanceAs (Decidable (σ.sys.Permits .startup))

/-! ## Deletions and resets -/

/-- **Nothing is charged**: tasks go, run times are cleared, and the clocks stand. -/
structure Tally.Below (l' l : Tally) : Prop where
  /-- The run times do not grow. -/
  runTimes : ∀ t, l'.runTimes t ≤ l.runTimes t
  /-- No task comes into being. -/
  live : l'.live.Sublist l.live
  /-- No time passes, and no interval starts. -/
  clocks : l'.systemTick = l.systemTick ∧ l'.lastSwitchTick = l.lastSwitchTick

namespace Tally.Below

variable {l' l'' : Tally}

/-- The same tally charges nothing. -/
theorem of_eq (h : l' = l) : l'.Below l := h ▸ ⟨fun _ => le_refl _, List.Sublist.refl _, rfl, rfl⟩

/-- What charges nothing twice charges nothing. -/
theorem trans (h : l''.Below l') (h' : l'.Below l) : l''.Below l :=
  ⟨fun t => (h.runTimes t).trans (h'.runTimes t), h.live.trans h'.live,
    h.clocks.1.trans h'.clocks.1, h.clocks.2.trans h'.clocks.2⟩

/-- Writing a control block without raising its run time. -/
theorem setTcb {t : TaskId} {v : Tcb} (hv : v.runTimeTicks ≤ (k.tcb t).runTimeTicks) :
    (k.setTcb t v).tally.Below k.tally := by
  refine ⟨fun x => ?_, List.Sublist.refl _, rfl, rfl⟩
  show (Function.update k.tcb t v x).runTimeTicks ≤ (k.tcb x).runTimeTicks
  rw [Function.update_apply]
  split
  · next hx => exact hx ▸ hv
  · exact le_refl _

/-- `os_heap_free` of a stack, unless it is that of the idle task, and of a control block. -/
theorem freeTcb (k : Kernel) (p : Prop) [Decidable p] (a : Addr) (t : TaskId) :
    (MiniRTOS.freeTcb (if p then freeStack k a else k) t).tally.Below k.tally := by
  split <;> exact ⟨fun _ => le_refl _, List.erase_sublist, rfl, rfl⟩

/-- The deferred deletions. -/
theorem freeDeferred {fuel : Nat} {i : Option TaskId} (h : MiniRTOS.freeDeferred fuel k i = some k') :
    k'.tally.Below k.tally := by
  induction fuel generalizing k i with
  | zero =>
      cases i with
      | none => exact of_eq (congrArg Kernel.tally (Option.some.inj h).symm)
      | some t => cases h
  | succ fuel ih =>
      cases i with
      | none => exact of_eq (congrArg Kernel.tally (Option.some.inj h).symm)
      | some t => exact (ih h).trans (freeTcb k _ _ t)

/-- **`os_task_tick`.** -/
theorem osTaskTick (h : MiniRTOS.osTaskTick k = some k') : k'.tally.Below k.tally := by
  obtain ⟨k₁, k₂, h₁, hmark, h⟩ := osTaskTick_stages h
  have hwalk : k₁.tally.Below k.tally := of_eq (tally_of_kept (kept_tickWalk h₁))
  have hmarked : k₂.tally.Below k₁.tally := by
    rcases hmark with rfl | ⟨c, n, rfl⟩
    · exact of_eq rfl
    · exact setTcb (le_refl _)
  have hdetach : (osSchedExitCritical { osSchedEnterCritical k₂ with deferredDeleteList := none }).tally.Below
      k₂.tally := ⟨fun _ => le_refl _, List.Sublist.refl _, rfl, rfl⟩
  exact ((freeDeferred h).trans hdetach).trans (hmarked.trans hwalk)

/-- Self-deletion. -/
theorem osTaskDeleteSelf (h : MiniRTOS.osTaskDeleteSelf k = some k') : k'.tally.Below k.tally := by
  obtain ⟨c, -, h⟩ := Option.bind_eq_some_iff.mp h
  obtain rfl := Option.some.inj h
  have hmark := setTcb (k := k) (t := c) (v := { k.tcb c with state := .deleted, pendingDelete := true })
    (le_refl _)
  exact ⟨hmark.runTimes, hmark.live, hmark.clocks⟩

/-- Deletion of another task. -/
theorem osTaskDeleteOther (k : Kernel) (t : TaskId) :
    (MiniRTOS.osTaskDeleteOther k t).tally.Below k.tally := by
  unfold MiniRTOS.osTaskDeleteOther
  dsimp only
  set k₂ := if ((osSchedEnterCritical k).tcb t).state = .ready then
    osTaskRemoveFromReady (osSchedEnterCritical k) t else osSchedEnterCritical k with hk₂
  have hremove : k₂.tally.Below k.tally := by
    rw [hk₂]
    split <;> exact of_eq (tally_of_kept (by simp))
  set k₃ := k₂.setTcb t { k₂.tcb t with state := .deleted } with hk₃
  have hmark : k₃.tally.Below k₂.tally := setTcb (le_refl _)
  have hfree := freeTcb k₃ ((k₃.tcb t).stackBase ≠ idleTaskStack) (k₃.tcb t).stackBase t
  exact (hfree.trans hmark).trans hremove

/-- **`os_task_delete`.** -/
theorem osTaskDelete {handle : Option TaskId} {r : Status × Kernel}
    (h : MiniRTOS.osTaskDelete k handle = some r) : r.2.tally.Below k.tally := by
  unfold MiniRTOS.osTaskDelete at h
  split at h
  · split at h
    · exact of_eq (congrArg (fun r : Status × Kernel => r.2.tally) (Option.some.inj h).symm)
    · obtain ⟨k', hk, rfl⟩ := Option.map_eq_some_iff.mp h
      exact osTaskDeleteSelf hk
  · split at h
    · obtain ⟨k', hk, rfl⟩ := Option.map_eq_some_iff.mp h
      exact osTaskDeleteSelf hk
    · rw [← Option.some.inj h]
      exact osTaskDeleteOther k _

/-- **`os_stats_reset`.** -/
theorem osStatsReset (h : MiniRTOS.osStatsReset k = some k') : k'.tally.Below k.tally := by
  have hloop : ∀ (fuel i : Nat) (k : Kernel), statsResetFrom fuel i k = some k' →
      k'.tally.Below k.tally := by
    intro fuel
    induction fuel with
    | zero => intro i k h; cases h
    | succ fuel ih =>
        intro i k h
        rw [statsResetFrom] at h
        split at h
        · exact of_eq (congrArg Kernel.tally (Option.some.inj h).symm)
        · exact (ih _ _ h).trans (setTcb (Nat.zero_le _))
  exact hloop _ _ k h

end Tally.Below

/-! ## The invariant -/

/-- **The run times of the live tasks fit into the time up to the last selection**, and the counter
has not wrapped around. -/
structure Tally.Covered (l : Tally) : Prop where
  /-- No control block is live twice. -/
  nodup : l.live.Nodup
  /-- The interval began in the past. -/
  order : l.lastSwitchTick ≤ l.systemTick
  /-- The counter has 32 bits. -/
  bound : l.systemTick < 2 ^ 32
  /-- The run times. -/
  sum : l.charged ≤ l.lastSwitchTick

/-- A sum over fewer terms, none of them larger. -/
theorem sum_map_le_of_sublist {f g : TaskId → Nat} {xs ys : List TaskId} (h : xs.Sublist ys)
    (hfg : ∀ t, f t ≤ g t) : (xs.map f).sum ≤ (ys.map g).sum := by
  induction h with
  | slnil => exact le_refl _
  | cons y _ ih => exact ih.trans (Nat.le_add_left _ _)
  | cons_cons y _ ih => exact Nat.add_le_add (hfg y) ih

namespace Tally.Covered

variable {l' : Tally}

/-- Where nothing is charged. -/
theorem below (h : l.Covered) (hb : l'.Below l) : l'.Covered := by
  refine ⟨h.nodup.sublist hb.live, ?_, hb.clocks.1 ▸ h.bound, ?_⟩
  · rw [hb.clocks.1, hb.clocks.2]
    exact h.order
  · rw [hb.clocks.2]
    exact (sum_map_le_of_sublist hb.live hb.runTimes).trans h.sum

/-- Forgetting the interval. -/
theorem forget (h : l.Covered) : l.forget.Covered :=
  ⟨h.nodup, le_refl _, h.bound, h.sum.trans h.order⟩

/-- Memory that holds no task can change. -/
theorem scribble {t : TaskId} {v : Nat} (h : l.Covered) (ht : t ∉ l.live) :
    ({ l with runTimes := Function.update l.runTimes t v } : Tally).Covered := by
  refine ⟨h.nodup, h.order, h.bound, ?_⟩
  show (l.live.map (Function.update l.runTimes t v)).sum ≤ _
  rw [map_update_of_not_mem ht]
  exact h.sum

/-- **Charging the interval** to a live task, or to a control block that has been freed. -/
theorem charge (h : l.Covered) (c : TaskId) : (l.charge c).Covered := by
  by_cases hc : c ∈ l.live
  · refine ⟨h.nodup, le_refl _, h.bound, ?_⟩
    have hup := sum_map_update (f := l.runTimes) h.nodup hc
      ((l.runTimes c + (l.systemTick + 2 ^ 32 - l.lastSwitchTick)) % 2 ^ 32)
    have hcharged : (l.charge c).charged + l.runTimes c
        = l.charged + (l.runTimes c + (l.systemTick + 2 ^ 32 - l.lastSwitchTick)) % 2 ^ 32 := hup
    -- the subtraction on 32 bits is the difference, and the sum may only lose a multiple of 2^32
    have hnew : (l.runTimes c + (l.systemTick + 2 ^ 32 - l.lastSwitchTick)) % 2 ^ 32
        ≤ l.runTimes c + (l.systemTick - l.lastSwitchTick) := by
      have hdiff : l.runTimes c + (l.systemTick + 2 ^ 32 - l.lastSwitchTick)
          = l.runTimes c + (l.systemTick - l.lastSwitchTick) + 2 ^ 32 := by
        have := h.order
        omega
      rw [hdiff, Nat.add_mod_right]
      exact Nat.mod_le _ _
    show (l.charge c).charged ≤ l.systemTick
    have := h.order
    have := h.sum
    omega
  · exact (h.scribble hc).forget

/-- A new task has no run time, whatever its memory held. -/
theorem addTask {t : TaskId} (h : l.Covered) (ht : t ∉ l.live) : (l.addTask t).Covered := by
  have hcharged : (l.addTask t).charged = l.charged := by
    unfold Tally.charged Tally.addTask
    simp only [List.map_append, List.map_cons, List.map_nil, List.sum_append, List.sum_cons,
      List.sum_nil, map_update_of_not_mem ht, Function.update_self, Nat.add_zero]
  refine ⟨List.nodup_append.mpr ⟨h.nodup, List.nodup_singleton t, ?_⟩, h.order, h.bound, ?_⟩
  · intro x hx y hy hxy
    obtain rfl := List.mem_singleton.mp hy
    exact ht (hxy ▸ hx)
  · rw [hcharged]
    exact h.sum

/-- A selection. -/
theorem select {k : Kernel} (h : k.tally.Covered) : (osSchedSelectNext k).tally.Covered := by
  rcases tally_osSchedSelectNext k with ht | ⟨c, -, -, ht⟩ | ⟨-, ht⟩
  · rw [ht]
    exact h
  · rw [ht]
    exact h.charge c
  · rw [ht]
    exact h.forget

/-- A call other than a creation or a deletion. -/
theorem call {s s' : Sys} {op : Op} (h : s.kernel.tally.Covered) (hop : op.Allowed s)
    (henrol : op.enrols = false) (hs : step s op = some s') : s'.kernel.tally.Covered := by
  by_cases hb : op.booked = false
  · rw [step_tally hb hs]
    exact h
  · cases op with
    | tick =>
        obtain ⟨k', hk, rfl⟩ := Option.map_eq_some_iff.mp hs
        exact h.below (.osTaskTick hk)
    | selectNext =>
        obtain rfl := Option.some.inj hs
        exact h.select
    | scribble t v nx pv =>
        obtain rfl := Option.some.inj hs
        show (s.kernel.scribble t v nx pv).tally.Covered
        rw [tally_scribble]
        exact h.scribble (hop.2.2.1 t rfl)
    | create a => cases henrol
    | createSuspended a => cases henrol
    | deleteSelf => cases henrol
    | _ => exact absurd rfl hb

/-- **One step.** -/
theorem step {op : UsageOp} (h : σ.sys.kernel.tally.Covered) (hop : op.Allowed σ)
    (hs : usageStep σ op = some σ') : σ'.sys.kernel.tally.Covered := by
  match op with
  | .elapse =>
      obtain rfl := Option.some.inj hs
      have hnow : (σ.sys.kernel.systemTick + 1) % 2 ^ 32 = σ.sys.kernel.systemTick + 1 :=
        Nat.mod_eq_of_lt hop
      refine ⟨h.nodup, ?_, ?_, h.sum⟩
      · show σ.sys.kernel.lastSwitchTick ≤ (σ.sys.kernel.systemTick + 1) % 2 ^ 32
        rw [hnow]
        exact h.order.trans (Nat.le_succ _)
      · exact Nat.mod_lt _ (by decide)
  | .roster (.create suspended a) =>
      obtain rfl := Option.some.inj hs
      show (σ.sys.created a _).kernel.tally.Covered
      rw [Sys.kernel_created]
      rcases tally_createTask σ.sys.kernel suspended a with ⟨t, -, ht, -, htally⟩ | ⟨-, htally, -⟩
      · rw [htally]
        exact h.addTask (hop.2 t ht)
      · rw [htally]
        exact h
  | .roster (.delete handle) =>
      obtain ⟨r, hr, rfl⟩ := Option.map_eq_some_iff.mp hs
      exact h.below (.osTaskDelete hr)
  | .roster (.call op) =>
      obtain ⟨s, hstep, rfl⟩ := Option.map_eq_some_iff.mp hs
      exact h.call hop.1 hop.2 hstep
  | .statsReset =>
      obtain ⟨k', hk, rfl⟩ := Option.map_eq_some_iff.mp hs
      exact h.below (.osStatsReset hk)

end Tally.Covered

/-! ## Percentages -/

/-- Rounding down makes no sum larger. -/
theorem sum_div_le {f : TaskId → Nat} {now : Nat} (xs : List TaskId) :
    (xs.map fun t => f t * 100 / now).sum ≤ (xs.map f).sum * 100 / now := by
  induction xs with
  | nil => exact Nat.zero_le _
  | cons x xs ih =>
      simp only [List.map_cons, List.sum_cons, Nat.add_mul]
      exact (Nat.add_le_add_left ih _).trans Nat.div_add_div_le_add_div

/-- **The usages of the live tasks** add up to at most 100 percent. -/
theorem Tally.Covered.usage_le (h : k.tally.Covered) :
    (k.liveTcbs.map (osStatsGetCpuUsage k)).sum ≤ 100 := by
  have hcharged : (k.liveTcbs.map fun t => (k.tcb t).runTimeTicks).sum ≤ k.systemTick :=
    h.sum.trans h.order
  rcases Nat.eq_zero_or_pos k.systemTick with hnow | hnow
  · have hzero : osStatsGetCpuUsage k = fun _ => 0 := by
      funext t
      exact if_pos hnow
    rw [hzero]
    simp
  · have husage (t : TaskId) :
        osStatsGetCpuUsage k t ≤ (k.tcb t).runTimeTicks * 100 / k.systemTick := by
      rw [osStatsGetCpuUsage, if_neg hnow.ne']
      exact Nat.mod_le _ _
    calc (k.liveTcbs.map (osStatsGetCpuUsage k)).sum
        ≤ (k.liveTcbs.map fun t => (k.tcb t).runTimeTicks * 100 / k.systemTick).sum :=
          List.sum_le_sum fun t _ => husage t
      _ ≤ (k.liveTcbs.map fun t => (k.tcb t).runTimeTicks).sum * 100 / k.systemTick := sum_div_le _
      _ ≤ k.systemTick * 100 / k.systemTick :=
          Nat.div_le_div_right (Nat.mul_le_mul_right 100 hcharged)
      _ = 100 := Nat.mul_div_cancel_left 100 hnow

/-- **CPU usage.** In every run of ticks, creations, deletions of any task, selections, statistics
resets and other calls from the start, until the tick counter wraps around: the run times of the live
tasks add up to at most the tick of the last selection, and their percentages to at most 100. -/
theorem cpuUsage_sum_le {s₀ : Sys} {ops : List UsageOp} (h₀ : s₀.Init)
    (hclock : s₀.kernel.systemTick = 0 ∧ s₀.kernel.lastSwitchTick = 0)
    (hr : Run (fun σ op => UsageOp.Allowed σ op) usageStep (Roster.start s₀) ops σ) :
    (σ.sys.kernel.liveTcbs.map fun t => (σ.sys.kernel.tcb t).runTimeTicks).sum
        ≤ σ.sys.kernel.lastSwitchTick ∧
      σ.sys.kernel.lastSwitchTick ≤ σ.sys.kernel.systemTick ∧
      (σ.sys.kernel.liveTcbs.map (osStatsGetCpuUsage σ.sys.kernel)).sum ≤ 100 := by
  have hinit : (Roster.start s₀).sys.kernel.tally.Covered := by
    have hlive : s₀.kernel.tally.live = [] := h₀.live
    have hnow : s₀.kernel.tally.systemTick = 0 := hclock.1
    have hlast : s₀.kernel.tally.lastSwitchTick = 0 := hclock.2
    refine ⟨?_, ?_, ?_, ?_⟩
    · show s₀.kernel.tally.live.Nodup
      rw [hlive]
      exact List.nodup_nil
    · exact (hlast.trans hnow.symm).le
    · exact hnow.trans_lt (by decide)
    · show (s₀.kernel.tally.live.map _).sum ≤ _
      rw [hlive]
      exact Nat.zero_le _
  have h := hr.invariant (fun σ => σ.sys.kernel.tally.Covered)
    (fun _ _ _ h hop hs => h.step hop hs) hinit
  exact ⟨h.sum, h.order, h.usage_le⟩

/-- A task runs for two ticks and is preempted by one that deletes it; a third one gets its memory, the
statistics are reset, and two more ticks pass. -/
def usageTrace : List UsageOp :=
  [.roster (.create false (taskAt 0x100 5)), .roster (.create true (taskAt 0x200 2)),
    .roster (.call .selectNext), .elapse, .elapse, .roster (.call (.resume 0x200)),
    .roster (.call .selectNext), .roster (.delete (some 0x100)),
    .roster (.create false (taskAt 0x100 1)), .statsReset, .elapse, .elapse, .roster (.call .selectNext)]

/-- After four ticks and a reset, the usages of the live tasks are at most 100 percent. -/
theorem cpuUsage_sum_le_usageTrace : ∃ σ,
    Run (fun σ op => UsageOp.Allowed σ op) usageStep (Roster.start .boot) usageTrace σ ∧
      σ.sys.kernel.liveTcbs = [0x200, 0x100] ∧ osStatsGetCpuUsage σ.sys.kernel 0x200 = 50 ∧
      (σ.sys.kernel.liveTcbs.map (osStatsGetCpuUsage σ.sys.kernel)).sum ≤ 100 := by
  obtain ⟨σ, hr, hlive, husage⟩ := exists_run_of_exec (fun σ op => UsageOp.Allowed σ op) usageStep
    (Roster.start .boot) usageTrace
    (fun σ => σ.sys.kernel.liveTcbs = [0x200, 0x100] ∧ osStatsGetCpuUsage σ.sys.kernel 0x200 = 50)
    (by decide +kernel)
  exact ⟨σ, hr, hlive, husage, (cpuUsage_sum_le Sys.boot_init ⟨rfl, rfl⟩ hr).2.2⟩

end MiniRTOS
