import MiniRTOS.Kernel.Context
import MiniRTOS.Kernel.Dispatch
import MiniRTOS.Kernel.MutexInv

/-! # Preemption

A task that becomes READY and is more urgent than the current one should get the CPU at once, so
whoever made it READY has to request a PendSV before it returns. Each call decides this by itself.
`os_task_create`, `os_task_resume` and `os_task_set_priority` never ask; the queue calls ask only for
a RUNNING caller; `os_mutex_unlock` looks at the task it woke and not at the other READY tasks; the
calls from interrupts only set `yield_pending`, which nobody reads in the build without interrupt
nesting; and with interrupt nesting the tick itself asks for nothing.

* **`Occasion`** — a kernel call of the current task, one from an interrupt handler, or a SysTick.
* **`Occasion.Misses`** — exactly the states and arguments where the request is missing.
* **`preemption_requested_iff`** — in every state a run can reach, in both builds. -/

namespace MiniRTOS

open Runs ByteMemory

variable {s s' s₀ : Sys} {k k' : Kernel} {L : Layout} {t c : TaskId} {W : Set TaskId}

/-! ## Interrupt nesting (`scheduler.c`, `port.c`) -/

/-- `os_port_yield`: set the PendSV pending bit. -/
def osPortYield (k : Kernel) : Kernel := { k with pendSv := true }

/-- The kernel, and `irq_nesting_depth` of the build with interrupt nesting. A handler is interrupted
at most once for each exception priority, so the counter does not wrap. -/
structure Irq where
  /-- The kernel variables. -/
  kernel : Kernel
  /-- `irq_nesting_depth`. -/
  depth : Nat

/-- `os_sched_consume_yield_pending`. -/
def osSchedConsumeYieldPending (k : Kernel) : Bool × Kernel :=
  if k.yieldPending then (true, { k with yieldPending := false }) else (false, k)

/-- `os_sched_isr_enter`. -/
def osSchedIsrEnter (σ : Irq) : Irq := { σ with depth := σ.depth + 1 }

/-- `os_sched_isr_exit`: the exit of the outermost handler requests a PendSV when `yield_pending` is
set. -/
def osSchedIsrExit (σ : Irq) : Irq :=
  if σ.depth > 0 then
    let depth := σ.depth - 1
    if depth = 0 then
      let (pending, k) := osSchedConsumeYieldPending σ.kernel
      ⟨if pending then osPortYield k else k, depth⟩
    else ⟨σ.kernel, depth⟩
  else σ

/-- A handler that has interrupted `n` others makes a kernel call, and then all of them return. With
interrupt nesting each of them is bracketed by `os_port_isr_enter` and `os_port_isr_exit`. -/
def inHandler (nesting : Bool) (n : Nat) (call : Kernel → Option Kernel) (k : Kernel) : Option Kernel :=
  if nesting then do
    let σ := osSchedIsrEnter^[n + 1] ⟨k, 0⟩
    let k' ← call σ.kernel
    some (osSchedIsrExit^[n + 1] ⟨k', σ.depth⟩).kernel
  else call k

/-- `os_kernel_tick_increment` up to its `os_sched_select_next`, in a system without tick hooks; the
calls of hooks and timers are calls from a handler of their own. -/
def osKernelTick (k : Kernel) : Option Kernel :=
  osTaskTick { k with systemTick := (k.systemTick + 1) % 2 ^ 32 }

/-- `SysTick_Handler` of both builds. -/
def sysTick (nesting : Bool) (n : Nat) (k : Kernel) : Option Kernel :=
  if nesting then inHandler true n osKernelTick k
  else (osKernelTick k).map fun k => osPortYield (osSchedSelectNext k)

/-- Without nesting this is the handler of `Context`. -/
theorem sysTickHandler_kernel (s : Sys) (n : Nat) :
    (sysTickHandler s [] []).map Sys.kernel = sysTick false n s.kernel := by
  unfold sysTickHandler osKernelTickIncrement beforeSelect sysTick osKernelTick
  simp only [exec, step, Sys.onIsr, Option.bind_eq_bind, Option.bind_some, Bool.false_eq_true, if_false]
  cases osTaskTick { s.kernel with systemTick := (s.kernel.systemTick + 1) % 2 ^ 32 } <;> rfl

/-- Entering handlers only counts. -/
theorem osSchedIsrEnter_iterate (n : Nat) (σ : Irq) : osSchedIsrEnter^[n] σ = ⟨σ.kernel, σ.depth + n⟩ := by
  induction n with
  | zero => rfl
  | succ n ih =>
      rw [Function.iterate_succ_apply', ih]
      rfl

/-- What the outermost exit does to the kernel. -/
def leaveIsr (k : Kernel) : Kernel :=
  if k.yieldPending then osPortYield { k with yieldPending := false } else k

/-- The inner exits only count, the outermost one consumes the request. -/
theorem osSchedIsrExit_iterate (n : Nat) (k : Kernel) :
    osSchedIsrExit^[n + 1] ⟨k, n + 1⟩ = ⟨leaveIsr k, 0⟩ := by
  induction n with
  | zero =>
      show osSchedIsrExit ⟨k, 1⟩ = _
      unfold osSchedIsrExit leaveIsr osSchedConsumeYieldPending
      cases k.yieldPending <;> simp
  | succ n ih =>
      rw [Function.iterate_succ_apply]
      have hinner : osSchedIsrExit ⟨k, n + 1 + 1⟩ = ⟨k, n + 1⟩ := by
        unfold osSchedIsrExit
        simp
      rw [hinner, ih]

/-- A call from a handler, with and without nesting. -/
theorem inHandler_eq (nesting : Bool) (n : Nat) (call : Kernel → Option Kernel) (k : Kernel) :
    inHandler nesting n call k
      = if nesting then (call k).map leaveIsr else call k := by
  unfold inHandler
  cases nesting with
  | false => rfl
  | true =>
      simp only [if_true, osSchedIsrEnter_iterate, Nat.zero_add]
      cases call k with
      | none => rfl
      | some k' =>
          show some (osSchedIsrExit^[n + 1] ⟨k', n + 1⟩).kernel = _
          rw [osSchedIsrExit_iterate]
          rfl

/-! ## Calls -/

/-- A kernel call of the current task that can make another task run. -/
inductive TaskCall
  /-- `os_task_create`. -/
  | create (a : CreateArgs)
  /-- `os_task_resume`. -/
  | resume (t : TaskId)
  /-- `os_task_set_priority`. -/
  | setPriority (t : TaskId) (newPrio : Nat)
  /-- `os_sem_give`. -/
  | semGive (a : Addr)
  /-- `os_queue_send`. -/
  | queueSend (q : Addr) (item : Mem) (timeout : Nat)
  /-- `os_queue_receive`. -/
  | queueReceive (q : Addr) (timeout : Nat)
  /-- `os_queue_overwrite`. -/
  | queueOverwrite (q : Addr) (item : Mem)
  /-- `os_mutex_unlock`. -/
  | mutexUnlock (m : Addr)
  /-- `os_eventgroup_set_bits`. -/
  | eventSet (e : Addr) (bits : BitVec 32)
  /-- `os_task_notify`. -/
  | notify (t : TaskId) (value : BitVec 32)

/-- The state in which a call returns, or leaves its caller at `os_sched_yield()`. -/
def TaskCall.run (k : Kernel) : TaskCall → Option Kernel
  | .create a => some (osTaskCreate k a).2.2
  | .resume t => some (osTaskResume k t)
  | .setPriority t p => some (if hp : p < numPriorities then osTaskSetPriority k t ⟨p, hp⟩ else k)
  | .semGive a => (osSemGive k a).map fun r => r.1
  | .queueSend q item timeout => (osQueueSend k q item timeout).map fun r => r.1
  | .queueReceive q timeout => (osQueueReceive k q timeout).map fun r => r.1
  | .queueOverwrite q item => some (osQueueOverwrite k q item).1
  | .mutexUnlock m => (osMutexUnlock k m).map fun r => r.1
  | .eventSet e bits => (osEventgroupSetBits k e bits).map fun r => r.1
  | .notify t v => (osTaskNotify k t v).map fun r => r.1

/-- The task handle a call takes. -/
def TaskCall.handle : TaskCall → Option TaskId
  | .resume t | .setPriority t _ | .notify t _ => some t
  | _ => none

/-- The heap's answer to a request for a new control block. -/
def TaskCall.unowned : TaskCall → Option TaskId
  | .create a => a.tcbBlock
  | _ => none

/-- A kernel call from an interrupt handler. The `_from_isr` calls that only read a count or the bits
are all `query`; the timer calls do not touch the kernel variables, and the mailbox calls are queue
calls. -/
inductive HandlerCall
  /-- `os_task_resume`. -/
  | resume (t : TaskId)
  /-- `os_task_notify_from_isr`. -/
  | notify (t : TaskId) (value : BitVec 32)
  /-- `os_sem_take_from_isr`. -/
  | semTake (a : Addr)
  /-- `os_sem_give_from_isr`. -/
  | semGive (a : Addr)
  /-- `os_queue_send_from_isr`. -/
  | queueSend (q : Addr) (item : Mem)
  /-- `os_queue_receive_from_isr`. -/
  | queueReceive (q : Addr)
  /-- `os_queue_overwrite_from_isr`. -/
  | queueOverwrite (q : Addr) (item : Mem)
  /-- `os_eventgroup_set_bits_from_isr`. -/
  | eventSet (e : Addr) (bits : BitVec 32)
  /-- `os_eventgroup_clear_bits_from_isr`. -/
  | eventClear (e : Addr) (bits : BitVec 32)
  /-- A getter: a critical section around a read. -/
  | query

/-- The state in which a call returns. -/
def HandlerCall.run (k : Kernel) : HandlerCall → Option Kernel
  | .resume t => some (osTaskResume k t)
  | .notify t v => some (osTaskNotifyFromIsr k t v).1
  | .semTake a => some (osSemTakeFromIsr k a).1
  | .semGive a => some (osSemGiveFromIsr k a).1
  | .queueSend q item => some (osQueueSendFromIsr k q item).1
  | .queueReceive q => some (osQueueReceiveFromIsr k q).1
  | .queueOverwrite q item => some (osQueueOverwriteFromIsr k q item).1
  | .eventSet e bits => (osEventgroupSetBitsFromIsr k e bits).map fun r => r.1
  | .eventClear e bits => some (osEventgroupClearBitsFromIsr k e bits).1
  | .query => some (osSchedExitCritical (osSchedEnterCritical k))

/-- The task handle a call takes. -/
def HandlerCall.handle : HandlerCall → Option TaskId
  | .resume t | .notify t _ => some t
  | _ => none

/-- **What can make a task READY**: a call of the current task, a call from a handler that has
interrupted `n` others, or a SysTick. -/
inductive Occasion
  /-- A call by the current task. -/
  | task (x : TaskCall)
  /-- A call by an interrupt handler. -/
  | handler (n : Nat) (x : HandlerCall)
  /-- `SysTick_Handler`. -/
  | sysTick (n : Nat)

/-- The state after it, when the outermost handler has returned. -/
def Occasion.run (nesting : Bool) (k : Kernel) : Occasion → Option Kernel
  | .task x => x.run k
  | .handler n x => inHandler nesting n x.run k
  | .sysTick n => MiniRTOS.sysTick nesting n k

/-- The discipline of the environment, as for the steps of a run. -/
def Occasion.Allowed (s : Sys) : Occasion → Prop
  | .task x => s.Permits .task ∧ (∀ t ∈ x.handle, t ∈ s.kernel.liveTcbs) ∧
      ∀ t ∈ x.unowned, t ∉ s.kernel.liveTcbs
  | .handler _ x => ∀ t ∈ x.handle, t ∈ s.kernel.liveTcbs
  | .sysTick _ => True

/-! ## On time or too late -/

/-- The current task `c` is live and can run, and no READY task is more urgent. -/
structure Kernel.OnTop (k : Kernel) (c : TaskId) : Prop where
  /-- The current task. -/
  current : k.current = some c
  /-- Its control block. -/
  live : c ∈ k.liveTcbs
  /-- READY or RUNNING. -/
  state : (k.tcb c).state = .ready ∨ (k.tcb c).state = .running
  /-- Nobody outranks it. -/
  top : ¬ k.dispatch.Outranked

/-- **A PendSV is requested** when a READY task is more urgent than the current one. -/
def Kernel.Prompt (k : Kernel) : Prop := k.dispatch.Outranked → k.pendSv = true

/-- **Where a call of the current task `c` misses a preemption.** -/
def TaskCall.Misses (k : Kernel) (c : TaskId) : TaskCall → Prop
  | .create a => a.accepted k ∧ a.priority < (k.prio c).val
  | .resume t => (k.tcb t).state = .suspended ∧ k.prio t < k.prio c
  | .setPriority t p => p < numPriorities ∧
      if t = c then ∃ u ∈ k.dispatch.ready, u ≠ c ∧ (k.prio u).val < p
      else t ∈ k.dispatch.ready ∧ p < (k.prio c).val
  | .semGive _ | .eventSet .. | .notify .. => False
  | .queueSend q _ _ => (k.queues q).count < (k.queues q).maxItems ∧
      k.headOutranks (.queueRecv q) c ∧ (k.tcb c).state ≠ .running
  | .queueReceive q _ => 0 < (k.queues q).count ∧
      k.headOutranks (.queueSend q) c ∧ (k.tcb c).state ≠ .running
  | .queueOverwrite q _ => ((k.queues q).maxItems = 1 ∧ (k.queues q).count = 0) ∧
      k.headOutranks (.queueRecv q) c ∧ (k.tcb c).state ≠ .running
  | .mutexUnlock m => ((k.mutexes m).owner = some c ∧ (k.mutexes m).lastLock) ∧
      (∃ u ∈ k.dispatch.ready, u ≠ c ∧ k.prio u < (k.mutexes m).originalPrio) ∧
      ¬ ∃ t ∈ k.waitHead (.mutex m), k.prio t < (k.mutexes m).originalPrio

/-- The tasks that a call from a handler makes READY. -/
def HandlerCall.wakes (k : Kernel) : HandlerCall → Set TaskId
  | .resume t => if (k.tcb t).state = .suspended then {t} else ∅
  | .notify t _ => if k.awaitsNotify t then {t} else ∅
  | .semGive a => k.firstWaiter (.sem a)
  | .queueSend q _ =>
      if (k.queues q).count < (k.queues q).maxItems then k.firstWaiter (.queueRecv q) else ∅
  | .queueReceive q => if 0 < (k.queues q).count then k.firstWaiter (.queueSend q) else ∅
  | .queueOverwrite q _ =>
      if (k.queues q).maxItems = 1 ∧ (k.queues q).count = 0 then k.firstWaiter (.queueRecv q) else ∅
  | .eventSet e bits => { t | t ∈ k.eventWakes e bits }
  | .semTake _ | .eventClear .. | .query => ∅

/-- The call notes in `yield_pending` that it woke a task; `os_task_resume` has no such form. -/
def HandlerCall.requests : HandlerCall → Bool
  | .resume _ => false
  | _ => true

/-- **Where a preemption is missed.** Without interrupt nesting, by every wake-up from a handler; with
nesting, by a resumption or a tick that finds `yield_pending` clear. -/
def Occasion.Misses (nesting : Bool) (k : Kernel) (c : TaskId) : Occasion → Prop
  | .task x => x.Misses k c
  | .handler _ x => (∃ t ∈ x.wakes k, k.prio t < k.prio c) ∧
      (nesting = true → x.requests = false ∧ k.yieldPending = false)
  | .sysTick _ => nesting = true ∧ k.yieldPending = false ∧ k.canaryIntact ∧
      ∃ t ∈ k.expired, k.prio t < k.prio c

/-! ## Each call of a task -/

/-- The scheduler runs, and no PendSV is pending. -/
structure Kernel.Armed (k : Kernel) : Prop where
  /-- `scheduler_running`. -/
  running : k.schedulerRunning = true
  /-- The PendSV bit. -/
  clear : k.pendSv = false

/-- After a wake-up only a woken task can outrank the current one. -/
theorem Kernel.OnTop.outranked_wake (h : k.OnTop c) :
    (k.dispatch.wake W).Outranked ↔ ∃ t ∈ W, k.prio t < k.prio c := by
  rw [Dispatch.outranked_wake (d := k.dispatch) h.current]
  exact or_iff_right h.top

/-- A call that yields under a condition. -/
theorem Effect.prompt_iff {d : Dispatch TaskId Prio} {b : Prop} [Decidable b]
    (h : Effect d (if b then k.signals.yield else k.signals) k') (ha : k.Armed) :
    k'.Prompt ↔ (d.Outranked → b) := by
  have hpend : k'.pendSv = true ↔ b := by
    have hg : k'.pendSv = (if b then k.signals.yield else k.signals).pendSv :=
      congrArg Signals.pendSv h.signals
    rw [hg]
    by_cases hb : b
    · simp [hb, Signals.yield, Kernel.signals, ha.running]
    · simp [hb, Kernel.signals, ha.clear]
  rw [Kernel.Prompt, h.dispatch, hpend]

/-- A call that asks for nothing. -/
theorem Effect.prompt_iff_not {d : Dispatch TaskId Prio} (h : Effect d k.signals k') (ha : k.Armed) :
    k'.Prompt ↔ ¬ d.Outranked := by
  have hpend : k'.pendSv = false := (congrArg Signals.pendSv h.signals : _).trans ha.clear
  rw [Kernel.Prompt, h.dispatch, hpend]
  simp

/-- **`os_task_create`** misses the preemption by the task it created. -/
theorem Kernel.OnTop.prompt_create {a : CreateArgs} (h : k.OnTop c) (ha : k.Armed)
    (hu : ∀ t ∈ a.tcbBlock, t ∉ k.liveTcbs) :
    (osTaskCreate k a).2.2.Prompt ↔ ¬ (a.accepted k ∧ a.priority < (k.prio c).val) := by
  obtain ⟨hrefuse, haccept⟩ := effect_osTaskCreate k a
  by_cases hacc : a.accepted k
  · obtain ⟨t, p, ht, hp, heff⟩ := haccept hacc
    have hnew : t ∉ k.liveTcbs := hu t ht
    have htc : t ≠ c := fun htc => hnew (htc ▸ h.live)
    have hold : ¬ (k.dispatch.setPrio t p).Outranked := by
      rw [Dispatch.outranked_setPrio_of_ne (d := k.dispatch) h.current htc h.top]
      exact fun hready => hnew hready.1.1
    have hwake : ((k.dispatch.setPrio t p).wake {t}).Outranked ↔ p < k.prio c := by
      rw [Dispatch.outranked_wake (d := k.dispatch.setPrio t p) h.current, or_iff_right hold]
      have hself : (k.dispatch.setPrio t p).prio t = p := Function.update_self ..
      have hcur : (k.dispatch.setPrio t p).prio c = k.prio c := Function.update_of_ne htc.symm _ _
      simp only [Set.mem_singleton_iff, exists_eq_left, hself, hcur]
    rw [heff.prompt_iff_not ha, hwake, ← hp, Fin.lt_def]
    simp [hacc]
  · rw [(hrefuse hacc).prompt_iff_not ha]
    simp [hacc, h.top]

/-- **`os_task_set_priority`** misses every preemption it causes. -/
theorem Kernel.OnTop.prompt_setPriority (h : k.OnTop c) (ha : k.Armed) (t : TaskId) (p : Prio) :
    (osTaskSetPriority k t p).Prompt ↔
      ¬ if t = c then ∃ u ∈ k.dispatch.ready, u ≠ c ∧ k.prio u < p
        else t ∈ k.dispatch.ready ∧ p < k.prio c := by
  rw [(effect_osTaskSetPriority k t p).prompt_iff_not ha]
  by_cases htc : t = c
  · subst htc
    rw [if_pos rfl, Dispatch.outranked_setPrio_self (d := k.dispatch) h.current]
    exact Iff.rfl
  · rw [if_neg htc, Dispatch.outranked_setPrio_of_ne (d := k.dispatch) h.current htc h.top]
    exact Iff.rfl

/-- **The queue calls** miss the preemption of a caller that is not RUNNING. -/
theorem TurnEffect.prompt_iff {turn : Prop} {w : WaitList} (h : TurnEffect turn w c k k')
    (htop : k.OnTop c) (ha : k.Armed) :
    k'.Prompt ↔ ¬ (turn ∧ k.headOutranks w c ∧ (k.tcb c).state ≠ .running) := by
  by_cases hturn : turn
  · rw [(h.moved hturn).prompt_iff ha, htop.outranked_wake]
    have hhead : (∃ t ∈ k.firstWaiter w, k.prio t < k.prio c) ↔ k.headOutranks w c := Iff.rfl
    rw [hhead]
    tauto
  · have hprompt : k'.Prompt := by
      rcases h.other hturn with hd | hg
      · intro hout
        rw [hd] at hout
        exact absurd hout htop.top
      · intro _
        have hpend : k'.pendSv = k.signals.yield.pendSv := congrArg Signals.pendSv hg
        rw [hpend]
        simp [Signals.yield, Kernel.signals, ha.running]
    simp [hprompt, hturn]

/-- **`os_mutex_unlock`** misses the READY tasks that the restored priority lets outrank its caller. -/
theorem Kernel.OnTop.prompt_unlock {m : Addr} {r : Kernel × Status × Option TaskId} (h : k.OnTop c)
    (ha : k.Armed) (hinv : TaskListInv k L) (hr : osMutexUnlock k m = some r) :
    r.1.Prompt ↔ ¬ (((k.mutexes m).owner = some c ∧ (k.mutexes m).lastLock) ∧
      (∃ u ∈ k.dispatch.ready, u ≠ c ∧ k.prio u < (k.mutexes m).originalPrio) ∧
      ¬ ∃ t ∈ k.waitHead (.mutex m), k.prio t < (k.mutexes m).originalPrio) := by
  obtain ⟨r', hr', hkeep, hrelease⟩ := effect_osMutexUnlock (m := m) hinv h.current h.state
  obtain rfl : r = r' := Option.some.inj (hr.symm.trans hr')
  by_cases hlast : (k.mutexes m).owner = some c ∧ (k.mutexes m).lastLock
  · -- the last unlock puts the owner back to its saved priority and wakes the first waiter
    have heff := hrelease hlast
    set p := (k.mutexes m).originalPrio with hp
    have hself : (k.dispatch.setPrio c p).prio c = p := Function.update_self ..
    have hwaiter : (∃ t ∈ k.firstWaiter (.mutex m), (k.dispatch.setPrio c p).prio t
        < (k.dispatch.setPrio c p).prio c) ↔ ∃ t ∈ k.waitHead (.mutex m), k.prio t < p := by
      refine exists_congr fun t => and_congr_right fun ht => ?_
      -- the caller runs, and a waiter is blocked
      have htc : t ≠ c := by
        rintro rfl
        have hb := (hinv.waitHead_blocked ht).2
        have hs := h.state
        simp [hb] at hs
      have hother : (k.dispatch.setPrio c p).prio t = k.prio t := Function.update_of_ne htc _ _
      rw [hself, hother]
    rw [heff.prompt_iff ha, Dispatch.outranked_wake (d := k.dispatch.setPrio c p) h.current,
      Dispatch.outranked_setPrio_self (d := k.dispatch) h.current, hwaiter]
    have hready : (∃ u ∈ k.dispatch.ready, u ≠ c ∧ k.dispatch.prio u < p)
        ↔ ∃ u ∈ k.dispatch.ready, u ≠ c ∧ k.prio u < p := Iff.rfl
    rw [hready]
    -- a switch is asked for only when the woken waiter outranks the caller; a ready task that the
    -- dropped priority lets through is missed
    constructor
    · rintro hprompt ⟨-, hold, hnew⟩
      exact hnew (hprompt (Or.inl hold))
    · intro hno hout
      by_contra hnew
      exact hno ⟨hlast, hout.resolve_right hnew, hnew⟩
  · rw [(hkeep hlast).prompt_iff_not ha]
    simp [hlast, h.top]

/-- **Every call of a task returns**, and is prompt exactly where it does not miss. -/
theorem TaskCall.prompt_iff {x : TaskCall} (hinv : TaskListInv k L) (h : k.OnTop c) (ha : k.Armed)
    (hh : ∀ t ∈ x.handle, t ∈ k.liveTcbs) (hu : ∀ t ∈ x.unowned, t ∉ k.liveTcbs) :
    ∃ k', x.run k = some k' ∧ (k'.Prompt ↔ ¬ x.Misses k c) := by
  cases x with
  | create a => exact ⟨_, rfl, h.prompt_create ha hu⟩
  | resume t =>
      refine ⟨_, rfl, ?_⟩
      rw [(woke_osTaskResume (hh t rfl)).effect.prompt_iff_not ha, h.outranked_wake]
      by_cases hs : (k.tcb t).state = .suspended <;> simp [TaskCall.Misses, hs]
  | setPriority t p =>
      refine ⟨_, rfl, ?_⟩
      by_cases hp : p < numPriorities
      · rw [dif_pos hp, h.prompt_setPriority ha]
        simp only [TaskCall.Misses, hp, true_and]
        exact Iff.rfl
      · rw [dif_neg hp]
        simp [TaskCall.Misses, hp, Kernel.Prompt, h.top]
  | semGive a =>
      obtain ⟨r, hr, heff⟩ := effect_osSemGive (a := a) hinv h.current
      refine ⟨r.1, by rw [TaskCall.run, hr]; rfl, ?_⟩
      rw [heff.prompt_iff ha, h.outranked_wake]
      exact ⟨fun _ => not_false, fun _ hout => hout⟩
  | queueSend q item timeout =>
      obtain ⟨r, hr, heff⟩ := effect_osQueueSend (q := q) item timeout hinv h.current h.live h.state
      exact ⟨r.1, by rw [TaskCall.run, hr]; rfl, heff.prompt_iff h ha⟩
  | queueReceive q timeout =>
      obtain ⟨r, hr, heff⟩ := effect_osQueueReceive (q := q) timeout hinv h.current h.live h.state
      exact ⟨r.1, by rw [TaskCall.run, hr]; rfl, heff.prompt_iff h ha⟩
  | queueOverwrite q item =>
      exact ⟨_, rfl, (effect_osQueueOverwrite item hinv h.current h.state).prompt_iff h ha⟩
  | mutexUnlock m =>
      obtain ⟨r, hr, -⟩ := effect_osMutexUnlock (m := m) hinv h.current h.state
      exact ⟨r.1, by rw [TaskCall.run, hr]; rfl, h.prompt_unlock ha hinv hr⟩
  | eventSet e bits =>
      obtain ⟨r, hr, heff⟩ := effect_osEventgroupSetBits (e := e) bits hinv h.current
      refine ⟨r.1, by rw [TaskCall.run, hr]; rfl, ?_⟩
      rw [heff.prompt_iff ha, h.outranked_wake]
      exact ⟨fun _ => not_false, fun _ hout => hout⟩
  | notify t v =>
      obtain ⟨r, hr, heff⟩ := effect_osTaskNotify v (hh t rfl) h.current
      refine ⟨r.1, by rw [TaskCall.run, hr]; rfl, ?_⟩
      rw [heff.prompt_iff ha, h.outranked_wake]
      by_cases hw : k.awaitsNotify t <;> simp [TaskCall.Misses, hw]

/-! ## Handlers and ticks -/

/-- What a call from a handler leaves. -/
theorem HandlerCall.effect {x : HandlerCall} (hinv : TaskListInv k L)
    (hh : ∀ t ∈ x.handle, t ∈ k.liveTcbs) :
    ∃ k', x.run k = some k' ∧ k'.dispatch = k.dispatch.wake (x.wakes k) ∧ k'.pendSv = k.pendSv ∧
      (x.requests = true → (x.wakes k).Nonempty → k'.yieldPending = true) ∧
      (x.requests = false → k'.yieldPending = k.yieldPending) := by
  have hreq : ∀ {k'}, x.requests = true → Requested (x.wakes k) k k' →
      k'.dispatch = k.dispatch.wake (x.wakes k) ∧ k'.pendSv = k.pendSv ∧
        (x.requests = true → (x.wakes k).Nonempty → k'.yieldPending = true) ∧
        (x.requests = false → k'.yieldPending = k.yieldPending) := fun hx h =>
    ⟨h.dispatch, h.pendSv, fun _ => h.yieldPending, fun hno => by simp [hx] at hno⟩
  cases x with
  | resume t =>
      have hwoke := woke_osTaskResume (hh t rfl)
      exact ⟨_, rfl, hwoke.dispatch, congrArg Signals.pendSv hwoke.signals, fun hno => (by cases hno),
        fun _ => congrArg Signals.yieldPending hwoke.signals⟩
  | notify t v => exact ⟨_, rfl, hreq rfl (requested_osTaskNotifyFromIsr v (hh t rfl))⟩
  | semTake a => exact ⟨_, rfl, hreq rfl (requested_osSemTakeFromIsr k a)⟩
  | semGive a => exact ⟨_, rfl, hreq rfl (requested_osSemGiveFromIsr hinv)⟩
  | queueSend q item => exact ⟨_, rfl, hreq rfl (requested_osQueueSendFromIsr item hinv)⟩
  | queueReceive q => exact ⟨_, rfl, hreq rfl (requested_osQueueReceiveFromIsr hinv)⟩
  | queueOverwrite q item => exact ⟨_, rfl, hreq rfl (requested_osQueueOverwriteFromIsr item hinv)⟩
  | eventSet e bits =>
      obtain ⟨r, hr, h⟩ := requested_osEventgroupSetBitsFromIsr (e := e) bits hinv
      exact ⟨r.1, by rw [HandlerCall.run, hr]; rfl, hreq rfl h⟩
  | eventClear e bits =>
      have hwoke : Woke ∅ k (osEventgroupClearBitsFromIsr k e bits).1 := Woke.of_tcb rfl rfl rfl rfl
      exact ⟨_, rfl, hreq rfl hwoke.requested⟩
  | query => exact ⟨_, rfl, hreq rfl (woke_enterCritical k).exitCritical.requested⟩

/-- Leaving the outermost handler changes nothing but the signals. -/
theorem prompt_leaveIsr (hpend : k'.pendSv = false) :
    (leaveIsr k').Prompt ↔ (k'.dispatch.Outranked → k'.yieldPending = true) := by
  unfold leaveIsr Kernel.Prompt
  cases hy : k'.yieldPending with
  | false => simp [hpend]
  | true => simp [osPortYield]

/-- **A call from a handler** is prompt exactly where it does not miss. -/
theorem HandlerCall.prompt_iff {x : HandlerCall} (nesting : Bool) (n : Nat) (hinv : TaskListInv k L)
    (h : k.OnTop c) (ha : k.Armed) (hh : ∀ t ∈ x.handle, t ∈ k.liveTcbs) :
    ∃ k', inHandler nesting n x.run k = some k' ∧
      (k'.Prompt ↔ ¬ (Occasion.handler n x).Misses nesting k c) := by
  obtain ⟨k₁, hrun, hd, hpend, hyes, hno⟩ := HandlerCall.effect hinv hh
  have hout : k₁.dispatch.Outranked ↔ ∃ t ∈ x.wakes k, k.prio t < k.prio c := by
    rw [hd, h.outranked_wake]
  have hpend₁ : k₁.pendSv = false := hpend.trans ha.clear
  rw [inHandler_eq, hrun]
  cases nesting with
  | false =>
      refine ⟨k₁, rfl, ?_⟩
      simp [Kernel.Prompt, Occasion.Misses, hout, hpend₁]
  | true =>
      refine ⟨leaveIsr k₁, rfl, ?_⟩
      rw [prompt_leaveIsr hpend₁, hout]
      simp only [Occasion.Misses, forall_const]
      cases hx : x.requests with
      | true =>
          have hset : (∃ t ∈ x.wakes k, k.prio t < k.prio c) → k₁.yieldPending = true :=
            fun ⟨t, ht, _⟩ => hyes hx ⟨t, ht⟩
          exact ⟨fun _ hmiss => by simp at hmiss, fun _ => hset⟩
      | false =>
          rw [hno hx]
          cases k.yieldPending <;> simp

/-- **A SysTick** is prompt exactly where it does not miss; it returns while the current task's canary
is intact. -/
theorem prompt_sysTick (nesting : Bool) (n : Nat) (hinv : TaskListInv k L) (h : k.OnTop c)
    (ha : k.Armed) :
    (k.canaryIntact → ∃ k', sysTick nesting n k = some k') ∧
      ((∀ k', sysTick nesting n k = some k' → k'.Prompt) ↔
        ¬ (Occasion.sysTick n).Misses nesting k c) := by
  set k₀ : Kernel := { k with systemTick := (k.systemTick + 1) % 2 ^ 32 } with hk₀
  -- counting the tick touches no list
  have hinv₀ : TaskListInv k₀ L :=
    ⟨hinv.lists.congr rfl rfl rfl fun P => by
        cases P with
        | wait w => cases w <;> rfl
        | _ => rfl,
      hinv.live, hinv.placed, hinv.coherent, hinv.liveNodup, hinv.liveCount, hinv.tableBound⟩
  have hticks : k.canaryIntact → ∃ k₁, osTaskTick k₀ = some k₁ ∧
      k₁.dispatch = k.dispatch.wake k.expired ∧ k₁.signals = k.signals := by
    intro hcan
    have hcan₀ : k₀.canaryIntact := hcan
    obtain ⟨k₁, hk₁, -⟩ := hinv₀.osTaskTick hcan₀
    have hd := dispatch_osTaskTick hinv₀ hk₁
    have hg := signals_osTaskTick hk₁
    exact ⟨k₁, hk₁, hd, hg⟩
  -- a broken canary stops the tick, and then there is no state to be prompt in
  have hhalts : ¬ k.canaryIntact → osTaskTick k₀ = none := fun hcan => hinv₀.osTaskTick_halts hcan
  unfold sysTick
  cases nesting with
  | false =>
      simp only [Bool.false_eq_true, if_false, osKernelTick, ← hk₀]
      refine ⟨fun hcan => ?_, ⟨fun _ hmiss => (by cases hmiss.1), fun _ k' hk' => ?_⟩⟩
      · obtain ⟨k₁, hk₁, -⟩ := hticks hcan
        exact ⟨_, by rw [hk₁]; rfl⟩
      · -- the handler requests a PendSV in any case
        obtain ⟨k₁, -, rfl⟩ := Option.map_eq_some_iff.mp hk'
        exact fun _ => rfl
  -- with the nesting wrapper, only the outermost exit pends a switch, and only if the flag was set
  | true =>
      simp only [if_true, inHandler_eq, osKernelTick, ← hk₀]
      by_cases hcan : k.canaryIntact
      · obtain ⟨k₁, hk₁, hd, hg⟩ := hticks hcan
        have hpend : k₁.pendSv = false := (congrArg Signals.pendSv hg : _).trans ha.clear
        have hflag : k₁.yieldPending = k.yieldPending := congrArg Signals.yieldPending hg
        rw [hk₁]
        refine ⟨fun _ => ⟨_, rfl⟩, ?_⟩
        simp only [Option.map_some, Option.some.injEq, forall_eq']
        rw [prompt_leaveIsr hpend, hd, h.outranked_wake, hflag]
        cases hy : k.yieldPending <;> simp [Occasion.Misses, hcan, hy]
      · rw [hhalts hcan]
        simp [Occasion.Misses, hcan]

/-! ## Runs -/

/-- What can happen before: the steps of `System`, and the calls of this module that are not among
them. -/
inductive KernelOp
  /-- A step of the system. -/
  | op (o : Op)
  /-- `os_task_set_priority`. -/
  | setPriority (t : TaskId) (p : Prio)
  /-- `os_queue_overwrite`. -/
  | overwrite (q : Addr) (item : Mem)
  /-- `os_queue_overwrite_from_isr`. -/
  | overwriteFromIsr (q : Addr) (item : Mem)

/-- **One step.** -/
def kernelStep (s : Sys) : KernelOp → Option Sys
  | .op o => step s o
  | .setPriority t p => some (s.after (osTaskSetPriority s.kernel t p))
  | .overwrite q item => some (s.after (osQueueOverwrite s.kernel q item).1)
  | .overwriteFromIsr q item => some (s.onIsr (osQueueOverwriteFromIsr s.kernel q item).1)

/-- The steps that keep the lists intact: no boosted owner releases a mutex, and no RUNNING task gets
another priority; such a task would stay in the ready list of its old priority. -/
def ListedStep (s : Sys) : KernelOp → Prop
  | .op o => SafeStep s o
  | .setPriority t _ => s.Permits .startup ∧ t ∈ s.kernel.liveTcbs ∧ (s.kernel.tcb t).state ≠ .running
  | .overwrite .. => s.Permits .task
  | .overwriteFromIsr .. => True

/-- The ring write of the overwriting calls is calm. -/
theorem TaskListInv.overwriteSlot {q : Addr} (item : Mem) (h : TaskListInv k L) :
    CalmInv k L (Queue.overwriteSlot (osSchedEnterCritical k) q item).2 := by
  unfold Queue.overwriteSlot
  dsimp only
  split
  · have h₁ : CalmInv (osSchedEnterCritical k) L ((osSchedEnterCritical k).setQueue q
        { ((osSchedEnterCritical k).queues q).put item with count := 1 }) :=
      ⟨L, h.enterCritical.setQueue rfl rfl, Calm.objects rfl rfl rfl⟩
    exact (h₁.trans fun L' h' => h'.wakeTask (by simp)).enterCritical
  · exact CalmInv.enterCritical ⟨L, h.enterCritical.setQueue rfl rfl, Calm.objects rfl rfl rfl⟩

/-- `os_queue_overwrite` keeps the lists. -/
theorem TaskListInv.osQueueOverwrite {q : Addr} (item : Mem) (h : TaskListInv k L) :
    CalmInv k L (osQueueOverwrite k q item).1 := by
  unfold MiniRTOS.osQueueOverwrite
  dsimp only
  split
  · exact (CalmInv.refl h.enterCritical).enterCritical.exitCritical
  · split
    · exact (h.overwriteSlot item).exitCritical.yieldIf _
    · exact (h.overwriteSlot item).exitCritical

/-- `os_queue_overwrite_from_isr` keeps the lists. -/
theorem TaskListInv.osQueueOverwriteFromIsr {q : Addr} (item : Mem) (h : TaskListInv k L) :
    CalmInv k L (osQueueOverwriteFromIsr k q item).1 := by
  unfold MiniRTOS.osQueueOverwriteFromIsr
  dsimp only
  split
  · exact (CalmInv.refl h.enterCritical).enterCritical.exitCritical
  · exact (h.overwriteSlot item).exitCritical.requestSwitchIf _

/-- **A view without rings**: what the overwriting calls leave alone. -/
def SameButRings (v v' : View) : Prop := v'.locks = v.locks ∧ v'.prios = v.prios

/-- The ring write of the overwriting calls touches no mutex and no priority. -/
theorem view_overwriteSlot (k : Kernel) (q : Addr) (item : Mem) :
    SameButRings k.view (Queue.overwriteSlot (osSchedEnterCritical k) q item).2.view := by
  unfold Queue.overwriteSlot Queue.prvWakeTask
  dsimp only
  split
  · rw [view_wakeTask, view_setQueue]
    exact ⟨rfl, rfl⟩
  · rw [view_setQueue]
    exact ⟨rfl, rfl⟩

/-- An overwriting send writes into the ring, and nothing else of the view. -/
theorem view_osQueueOverwrite (k : Kernel) (q : Addr) (item : Mem) :
    SameButRings k.view (osQueueOverwrite k q item).1.view := by
  unfold osQueueOverwrite
  dsimp only
  split
  · exact ⟨rfl, rfl⟩
  · split
    · rw [view_yieldIf]
      exact view_overwriteSlot k q item
    · exact view_overwriteSlot k q item

/-- So does one from an interrupt. -/
theorem view_osQueueOverwriteFromIsr (k : Kernel) (q : Addr) (item : Mem) :
    SameButRings k.view (osQueueOverwriteFromIsr k q item).1.view := by
  unfold osQueueOverwriteFromIsr
  dsimp only
  split
  · exact ⟨rfl, rfl⟩
  · rw [view_requestSwitchIf]
    exact view_overwriteSlot k q item

/-- **Every such step keeps the invariant.** -/
theorem LockInv.kernelStep {op : KernelOp} (h : LockInv s L) (hop : ListedStep s op)
    (hs : kernelStep s op = some s') : ∃ L', LockInv s' L' := by
  cases op with
  | op o => exact h.step hop hs
  | setPriority t p =>
      obtain rfl := Option.some.inj hs
      obtain ⟨-, hlive, hst⟩ := hop
      refine h.of_calm (h.tasks.lists.osTaskSetPriority hlive (Or.inl hst)) ?_ rfl rfl
      exact (congrArg View.locks (view_osTaskSetPriority s.kernel t p) : _)
  | overwrite q item =>
      obtain rfl := Option.some.inj hs
      exact h.of_calm (h.tasks.lists.osQueueOverwrite item) (view_osQueueOverwrite s.kernel q item).1
        rfl rfl
  | overwriteFromIsr q item =>
      obtain rfl := Option.some.inj hs
      exact h.of_calm (h.tasks.lists.osQueueOverwriteFromIsr item)
        (view_osQueueOverwriteFromIsr s.kernel q item).1 rfl rfl

/-- **The state at the time of a call.** A PendSV that was requested earlier has been taken, and the
bit is clear; `yield_pending` can have either value. -/
def Kernel.atCall (k : Kernel) (yieldPending : Bool) : Kernel :=
  { k with pendSv := false, yieldPending := yieldPending }

/-- The lists do not depend on the signals. -/
theorem TaskListInv.atCall (h : TaskListInv k L) (y : Bool) : TaskListInv (k.atCall y) L := by
  refine h.of_data (h.lists.congr rfl rfl rfl fun P => ?_) rfl
  cases P with
  | wait w => cases w <;> rfl
  | _ => rfl

/-- **No missed preemption, exactly.** In every state that a run reaches, with the scheduler running
and the current task on top, whatever happens next returns (a SysTick while the canary is intact), and
a PendSV is requested for every READY task that outranks the current one afterwards unless
`Occasion.Misses` holds. -/
theorem preemption_requested_iff {ops : List KernelOp} {o : Occasion} (h₀ : s₀.Init)
    (hfree : s₀.NoneHeld) (hrun : Run ListedStep kernelStep s₀ ops s)
    (hsched : s.kernel.schedulerRunning = true) (htop : s.kernel.OnTop c) (ho : o.Allowed s)
    (nesting y : Bool) :
    ((∀ n, o ≠ .sysTick n) ∨ s.kernel.canaryIntact →
        ∃ k', o.run nesting (s.kernel.atCall y) = some k') ∧
      ((∀ k', o.run nesting (s.kernel.atCall y) = some k' → k'.Prompt) ↔
        ¬ o.Misses nesting (s.kernel.atCall y) c) := by
  obtain ⟨L, hinv⟩ := hrun.invariant (fun s => ∃ L, LockInv s L)
    (fun _ _ _ ⟨_, h⟩ hop hs => h.kernelStep hop hs) ⟨_, h₀.lockInv hfree⟩
  have hlists : TaskListInv (s.kernel.atCall y) L := hinv.tasks.lists.atCall y
  have hontop : (s.kernel.atCall y).OnTop c := ⟨htop.current, htop.live, htop.state, htop.top⟩
  have harmed : (s.kernel.atCall y).Armed := ⟨hsched, rfl⟩
  have hone : (∃ k', o.run nesting (s.kernel.atCall y) = some k' ∧
      (k'.Prompt ↔ ¬ o.Misses nesting (s.kernel.atCall y) c)) →
      (∃ k', o.run nesting (s.kernel.atCall y) = some k') ∧
      ((∀ k', o.run nesting (s.kernel.atCall y) = some k' → k'.Prompt) ↔
        ¬ o.Misses nesting (s.kernel.atCall y) c) := by
    rintro ⟨k', hk', hiff⟩
    refine ⟨⟨k', hk'⟩, ?_⟩
    simpa [hk'] using hiff
  cases o with
  | task x =>
      obtain ⟨hret, hiff⟩ := hone (TaskCall.prompt_iff hlists hontop harmed ho.2.1 ho.2.2)
      exact ⟨fun _ => hret, hiff⟩
  | handler n x =>
      obtain ⟨hret, hiff⟩ := hone (HandlerCall.prompt_iff nesting n hlists hontop harmed ho)
      exact ⟨fun _ => hret, hiff⟩
  | sysTick n =>
      obtain ⟨hret, hiff⟩ := prompt_sysTick nesting n hlists hontop harmed
      exact ⟨fun hcan => hret (hcan.resolve_left fun hno => hno n rfl), hiff⟩

/-! ## A prompt call, and one that is not -/

/-- A run of the system is a run here. -/
theorem listedRun_of_run {ops : List Op} (h : Run SafeStep step s₀ ops s) :
    Run ListedStep kernelStep s₀ (ops.map .op) s := by
  induction h with
  | nil => exact .nil _
  | cons hg hs _ ih => exact .cons hg hs ih

/-- The current task is on top when no live READY task is more urgent. -/
theorem Kernel.OnTop.of_live (hc : k.current = some c) (hl : c ∈ k.liveTcbs)
    (hs : (k.tcb c).state = .ready ∨ (k.tcb c).state = .running)
    (htop : ∀ t ∈ k.liveTcbs, (k.tcb t).state = .ready → ¬ k.prio t < k.prio c) : k.OnTop c := by
  refine ⟨hc, hl, hs, ?_⟩
  rw [Dispatch.outranked_iff (d := k.dispatch) hc]
  rintro ⟨t, ⟨ht, hst⟩, hlt⟩
  exact htop t ht hst hlt

/-- A task of priority 1 waits for a semaphore, a task of priority 5 runs. -/
def givingTrace : List Op :=
  [.semCreateCounting 0x10 1 0, .create (taskAt 0x200 1), .create (taskAt 0x100 5), .selectNext,
    .semTake 0x10 waitForever, .selectNext]

/-- A give to a more urgent waiter requests the switch to it. -/
theorem preemption_requested_iff_givingTrace :
    ∃ s, Run ListedStep kernelStep .boot (givingTrace.map .op) s ∧
      s.kernel.waitHead (.sem 0x10) = some 0x200 ∧
      ∀ nesting y k', (Occasion.task (.semGive 0x10)).run nesting (s.kernel.atCall y) = some k' →
        k'.Prompt := by
  obtain ⟨s, hr, hwait, hsched, hc, hl, hst, htop, hperm⟩ := exists_run_of_exec
    (fun s op => s.PlainUse op ∧ ¬ s.BoostedRelease op) step Sys.boot givingTrace
    (fun s => s.kernel.waitHead (.sem 0x10) = some 0x200 ∧ s.kernel.schedulerRunning = true ∧
      s.kernel.current = some 0x100 ∧ 0x100 ∈ s.kernel.liveTcbs ∧
      ((s.kernel.tcb 0x100).state = .ready ∨ (s.kernel.tcb 0x100).state = .running) ∧
      (∀ t ∈ s.kernel.liveTcbs, (s.kernel.tcb t).state = .ready →
        ¬ s.kernel.prio t < s.kernel.prio 0x100) ∧ s.Permits .task)
    (by decide +kernel)
  have hrun := listedRun_of_run (hr.mono fun _ _ h => (⟨h.1.proper, h.2⟩ : SafeStep _ _))
  refine ⟨s, hrun, hwait, fun nesting y => ?_⟩
  refine (preemption_requested_iff (o := .task (.semGive 0x10)) Sys.boot_init Sys.boot_noneHeld hrun
    hsched (Kernel.OnTop.of_live hc hl hst htop) ⟨hperm, by simp [TaskCall.handle], by simp [TaskCall.unowned]⟩
    nesting y).2.mpr ?_
  exact not_false

/-- A task of priority 5 runs, a task of priority 1 is SUSPENDED. -/
def resumingTrace : List Op :=
  [.create (taskAt 0x100 5), .createSuspended (taskAt 0x200 1), .selectNext]

/-- **`os_task_resume` of a more urgent task requests nothing**: the task of priority 1 is READY, the
task of priority 5 goes on. -/
theorem resume_without_request :
    ¬ ∀ (ops : List KernelOp) (s : Sys) (c : TaskId) (o : Occasion) (nesting y : Bool) (k' : Kernel),
      Run ListedStep kernelStep .boot ops s → s.kernel.schedulerRunning = true → s.kernel.OnTop c →
        o.Allowed s → o.run nesting (s.kernel.atCall y) = some k' → k'.Prompt := by
  intro hall
  obtain ⟨s, hr, hsched, hc, hl, hst, htop, hperm, hl', hc', hready, hlt, hpend⟩ := exists_run_of_exec
    (fun s op => s.PlainUse op ∧ ¬ s.BoostedRelease op) step Sys.boot resumingTrace
    (fun s => s.kernel.schedulerRunning = true ∧
      s.kernel.current = some 0x100 ∧ 0x100 ∈ s.kernel.liveTcbs ∧
      ((s.kernel.tcb 0x100).state = .ready ∨ (s.kernel.tcb 0x100).state = .running) ∧
      (∀ t ∈ s.kernel.liveTcbs, (s.kernel.tcb t).state = .ready →
        ¬ s.kernel.prio t < s.kernel.prio 0x100) ∧ s.Permits .task ∧
      0x200 ∈ s.kernel.liveTcbs ∧ (osTaskResume (s.kernel.atCall false) 0x200).current = some 0x100 ∧
      (0x200 ∈ (osTaskResume (s.kernel.atCall false) 0x200).liveTcbs ∧
        ((osTaskResume (s.kernel.atCall false) 0x200).tcb 0x200).state = .ready) ∧
      (osTaskResume (s.kernel.atCall false) 0x200).prio 0x200
        < (osTaskResume (s.kernel.atCall false) 0x200).prio 0x100 ∧
      (osTaskResume (s.kernel.atCall false) 0x200).pendSv = false)
    (by decide +kernel)
  have hrun := listedRun_of_run (hr.mono fun _ _ h => (⟨h.1.proper, h.2⟩ : SafeStep _ _))
  have hprompt := hall _ s 0x100 (.task (.resume 0x200)) false false _ hrun hsched
    (Kernel.OnTop.of_live hc hl hst htop)
    ⟨hperm, fun t ht => Option.some.inj ht ▸ hl', by simp [TaskCall.unowned]⟩ rfl
  have hbit := hprompt ⟨0x100, hc', 0x200, hready, hlt⟩
  rw [hpend] at hbit
  cases hbit

end MiniRTOS
