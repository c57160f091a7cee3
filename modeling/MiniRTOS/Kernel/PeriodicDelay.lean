import MiniRTOS.Kernel.Delays
import MiniRTOS.Kernel.Preemption
import MiniRTOS.Kernel.Tally

/-! # Periodic delays

`os_task_delay_until` adds the period to the wake tick of the last turn and sleeps for what is left of
it, taken as a signed 32-bit difference. While that wake tick lies less than `2^31` ticks back, the task
wakes up at exactly the new one, wherever the counter wraps, and a turn that is late already goes on at
once. The wake ticks themselves depend on the first one and the period only.

* **`SleepsUntil`** — a sleep that ends in the tick that makes `system_tick` equal to its deadline.
* **`osTaskDelayUntil_periodic`** — in runs of `ListedStep`s every call returns or sleeps so, and successive
  calls keep the period.
* **`delayUntil_runs_early`** — after a full release by a boosted owner a sleeping task runs before its
  deadline. -/

namespace MiniRTOS

open Runs

variable {s s' s₀ : Sys} {k k' : Kernel} {L : Layout} {c t : TaskId} {n now : Nat}

/-! ## Steps -/

/-- What can happen while a task sleeps: a call, or `os_kernel_tick_increment` with what its hooks and
its timers call. -/
inductive ClockOp
  /-- A call. -/
  | call (op : KernelOp)
  /-- `os_kernel_tick_increment`, with what the tick hooks and timers call. -/
  | tickIncrement (hooks timers : List Op)

/-- **One step.** -/
def clockStep (s : Sys) : ClockOp → Option Sys
  | .call op => kernelStep s op
  | .tickIncrement hooks timers => osKernelTickIncrement s hooks timers

/-- The step is `os_task_tick`. -/
def KernelOp.isTick : KernelOp → Bool
  | .op o => o.isTick
  | _ => false

/-- The steps that keep the lists intact. `os_task_tick` runs inside `os_kernel_tick_increment` only,
and that comes at any time. -/
def ClockOp.Allowed (s : Sys) : ClockOp → Prop
  | .call op => ListedStep s op ∧ op.isTick = false
  | .tickIncrement .. => True

/-- The task is not notified. -/
def ClockOp.Spares (t : TaskId) : ClockOp → Prop
  | .call (.op o) => o.notifies ≠ some t
  | .call _ => True
  | .tickIncrement hooks timers => ∀ op ∈ hooks ++ timers, op.notifies ≠ some t

/-- The steps before the one that makes `system_tick` equal to `deadline`. -/
def ClockOp.Before (t : TaskId) (deadline : Nat) (s : Sys) (op : ClockOp) : Prop :=
  op.Allowed s ∧ op.Spares t ∧
    ∀ hooks timers, op = .tickIncrement hooks timers → (s.kernel.systemTick + 1) % 2 ^ 32 ≠ deadline

/-- The state in which `os_kernel_tick_increment` runs its hooks. -/
def Sys.elapse (s : Sys) : Sys :=
  s.onIsr { s.kernel with systemTick := (s.kernel.systemTick + 1) % 2 ^ 32 }

/-- **The increment wakes the task**: BLOCKED when `os_task_tick` begins, READY when it ends, and READY
or selected to run at the end. -/
def WakesIn (s : Sys) (hooks timers : List Op) (t : TaskId) (s' : Sys) : Prop :=
  ∃ s₁ s₂ s₃, exec IsrCall step s.elapse hooks = some s₁ ∧ (s₁.kernel.tcb t).state = .blocked ∧
    step s₁ .tick = some s₂ ∧ (s₂.kernel.tcb t).state = .ready ∧
    exec IsrCall step s₂ timers = some s₃ ∧ step s₃ .selectNext = some s' ∧
    ((s'.kernel.tcb t).state = .ready ∨ (s'.kernel.tcb t).state = .running)

/-- **A sleep until `deadline`.** Whatever happens, the task stays BLOCKED before the increment that
makes `system_tick` equal to `deadline`, and that one wakes it. -/
def SleepsUntil (s : Sys) (t : TaskId) (deadline : Nat) : Prop :=
  ∀ ops s', Run (ClockOp.Before t deadline) clockStep s ops s' →
    (s'.kernel.tcb t).state = .blocked ∧
      ∀ hooks timers s'', (ClockOp.tickIncrement hooks timers).Spares t →
        (s'.kernel.systemTick + 1) % 2 ^ 32 = deadline →
        osKernelTickIncrement s' hooks timers = some s'' → WakesIn s' hooks timers t s''

/-- The wake ticks that successive calls hand on in `*previous_wake_tick`, each made in a kernel state
of its own. -/
def delayUntilCalls (previous period : Nat) : List Kernel → Option Nat
  | [] => some previous
  | k :: ks => do
      let r ← osTaskDelayUntil k previous period
      delayUntilCalls r.2.1 period ks

/-! ## The tick counter -/

/-- Only `os_kernel_tick_increment` counts. -/
theorem step_systemTick {op : Op} (h : step s op = some s') :
    s'.kernel.systemTick = s.kernel.systemTick := by
  show s'.kernel.tally.systemTick = s.kernel.tally.systemTick
  by_cases hb : op.booked = false
  · rw [step_tally hb h]
  · cases op with
    | create a =>
        obtain rfl := Option.some.inj h
        rw [Sys.kernel_created]
        rcases tally_osTaskCreate s.kernel a with ⟨x, -, -, -, hr⟩ | ⟨-, hr, -⟩ <;> rw [hr]
        rfl
    | createSuspended a =>
        obtain rfl := Option.some.inj h
        rw [Sys.kernel_created, (tally_osTaskCreateSuspended s.kernel a).2]
        rcases tally_osTaskCreate s.kernel a with ⟨x, -, -, -, hr⟩ | ⟨-, hr, -⟩ <;> rw [hr]
        rfl
    | deleteSelf =>
        obtain ⟨k, hk, rfl⟩ := Option.map_eq_some_iff.mp h
        obtain ⟨c, -, hk⟩ := Option.bind_eq_some_iff.mp hk
        obtain rfl := Option.some.inj hk
        rfl
    | tick =>
        obtain ⟨k, hk, rfl⟩ := Option.map_eq_some_iff.mp h
        show k.tally.systemTick = _
        rw [(tally_osTaskTick hk).1]
    | selectNext =>
        obtain rfl := Option.some.inj h
        show (osSchedSelectNext s.kernel).tally.systemTick = _
        rcases tally_osSchedSelectNext s.kernel with hr | ⟨c, -, -, hr⟩ | ⟨-, hr⟩ <;> rw [hr] <;> rfl
    | scribble x v nx pv =>
        obtain rfl := Option.some.inj h
        rfl
    | _ => exact absurd rfl hb

/-- The overwriting calls count no tick. -/
theorem systemTick_overwriteSlot (k : Kernel) (q : Addr) (item : ByteMemory.Mem) :
    (Queue.overwriteSlot (osSchedEnterCritical k) q item).2.systemTick = k.systemTick := by
  unfold Queue.overwriteSlot
  dsimp only
  split
  · exact congrArg Tally.systemTick (tally_of_kept (kept_wakeTask _ (.queueRecv q)))
  · rfl

/-- An overwriting send takes no time. -/
theorem systemTick_osQueueOverwrite (k : Kernel) (q : Addr) (item : ByteMemory.Mem) :
    (osQueueOverwrite k q item).1.systemTick = k.systemTick := by
  have hslot := systemTick_overwriteSlot k q item
  unfold osQueueOverwrite
  dsimp only
  split
  · rfl
  · split
    · split
      · exact hslot
      · exact hslot
    · exact hslot

/-- Nor does one from an interrupt. -/
theorem systemTick_osQueueOverwriteFromIsr (k : Kernel) (q : Addr) (item : ByteMemory.Mem) :
    (osQueueOverwriteFromIsr k q item).1.systemTick = k.systemTick := by
  have hslot := systemTick_overwriteSlot k q item
  unfold osQueueOverwriteFromIsr
  dsimp only
  split
  · rfl
  · split
    · exact hslot
    · exact hslot

/-! ## The lists and the mutexes -/

/-- Counting a tick touches neither. -/
theorem LockInv.elapse (h : LockInv s L) : LockInv s.elapse L := by
  have hl := h.tasks.lists
  have hlists : TaskListInv s.elapse.kernel L := by
    refine ⟨hl.lists.congr rfl rfl rfl ?_, hl.live, hl.placed, hl.coherent, hl.liveNodup, hl.liveCount,
      hl.tableBound⟩
    intro P
    cases P with
    | wait w => cases w <;> rfl
    | _ => rfl
  exact ⟨⟨hlists, h.tasks.running, h.tasks.timedOut, h.tasks.owners⟩, h.mutexes⟩

/-- A tick, whoever is current. -/
theorem LockInv.tick (h : LockInv s L) (hs : MiniRTOS.step s .tick = some s') : ∃ L', LockInv s' L' := by
  obtain ⟨k, hk, rfl⟩ := Option.map_eq_some_iff.mp hs
  by_cases hcan : s.kernel.canaryIntact
  · obtain ⟨k', hk', h'⟩ := h.tasks.lists.calm_osTaskTick hcan
    obtain rfl := Option.some.inj (hk.symm.trans hk')
    obtain ⟨l, -, hv⟩ := view_osTaskTick hk
    have hlocks : k.view.locks = s.kernel.view.locks := by
      rw [hv]
      rfl
    exact h.of_calm h' hlocks rfl rfl
  · rw [h.tasks.lists.osTaskTick_halts hcan] at hk
    cases hk

/-- Handlers call no function of a mutex and delete nobody. -/
theorem Op.plain_of_isr {op : Op} (h : op.caller = .isr) :
    op.newMutex = none ∧ op.deletes = false ∧ op.locked = none ∧ op.unlocked = none := by
  cases op <;> first | exact ⟨rfl, rfl, rfl, rfl⟩ | cases h

/-- What handlers do is safe. -/
theorem SafeStep.of_isr {op : Op} (hop : op.Allowed s) (h : op.caller = .isr) : SafeStep s op := by
  obtain ⟨hnew, hdel, hlock, hunlock⟩ := Op.plain_of_isr h
  refine ⟨⟨hop, ?_, ?_, ?_⟩, ?_⟩
  · intro m hm
    cases hnew.symm.trans hm
  · intro hd
    cases hdel.symm.trans hd
  · intro m hm
    cases hlock.symm.trans hm
  · rintro ⟨m, hm, -⟩
    cases hunlock.symm.trans hm

/-- A selection is safe. -/
theorem selectNext_safe (s : Sys) : SafeStep s .selectNext := by
  apply SafeStep.of_isr _ rfl
  exact ⟨trivial, by simp [Op.handle], by simp [Op.unowned], by simp [Op.fresh]⟩

/-- What handlers call keeps them in order. -/
theorem LockInv.execIsr {ops : List Op} (h : LockInv s L)
    (hs : exec IsrCall MiniRTOS.step s ops = some s') : ∃ L', LockInv s' L' :=
  (run_of_exec hs).invariant (fun s => ∃ L, LockInv s L)
    (fun _ _ _ ⟨_, h⟩ hop hs => h.step (.of_isr hop.1 hop.2.1) hs) ⟨L, h⟩

/-- The parts of `os_kernel_tick_increment`. -/
theorem osKernelTickIncrement_stages {hooks timers : List Op}
    (h : osKernelTickIncrement s hooks timers = some s') :
    ∃ s₁ s₂ s₃, exec IsrCall step s.elapse hooks = some s₁ ∧ step s₁ .tick = some s₂ ∧
      exec IsrCall step s₂ timers = some s₃ ∧ step s₃ .selectNext = some s' := by
  obtain ⟨s₃, hb, hsel⟩ := Option.bind_eq_some_iff.mp h
  obtain ⟨s₁, hhooks, hb⟩ := Option.bind_eq_some_iff.mp hb
  obtain ⟨s₂, htick, htimers⟩ := Option.bind_eq_some_iff.mp hb
  exact ⟨s₁, s₂, s₃, hhooks, htick, htimers, hsel⟩

/-- **Every step keeps the lists and the mutexes in order.** -/
theorem LockInv.clockStep {op : ClockOp} (h : LockInv s L) (hop : op.Allowed s)
    (hs : MiniRTOS.clockStep s op = some s') : ∃ L', LockInv s' L' := by
  cases op with
  | call op => exact h.kernelStep hop.1 hs
  | tickIncrement hooks timers =>
      obtain ⟨s₁, s₂, s₃, hhooks, htick, htimers, hsel⟩ := osKernelTickIncrement_stages hs
      obtain ⟨L₁, h₁⟩ := h.elapse.execIsr hhooks
      obtain ⟨L₂, h₂⟩ := h₁.tick htick
      obtain ⟨L₃, h₃⟩ := h₂.execIsr htimers
      exact h₃.step (selectNext_safe s₃) hsel

/-! ## Overwriting calls -/

/-- Writing the slot wakes a receiver or changes no phase. -/
theorem waits_overwriteSlot (k : Kernel) (q : Addr) (item : ByteMemory.Mem) :
    (Queue.overwriteSlot (osSchedEnterCritical k) q item).2.waits = k.waits ∨
      (Queue.overwriteSlot (osSchedEnterCritical k) q item).2.waits = k.wokenWaits (.queueRecv q) := by
  unfold Queue.overwriteSlot
  dsimp only
  split
  · refine Or.inr ((waits_wakeTask _ (.queueRecv q)).trans (wokenWaits_congr rfl ?_))
    exact (waitHead_setQueue (k := osSchedEnterCritical k)
      (v := { ((osSchedEnterCritical k).queues q).put item with count := 1 }) rfl rfl (.queueRecv q) : _)
  · exact Or.inl rfl

/-- An overwriting send wakes the first receiver, or nobody. -/
theorem waits_osQueueOverwrite (k : Kernel) (q : Addr) (item : ByteMemory.Mem) :
    (osQueueOverwrite k q item).1.waits = k.waits ∨
      (osQueueOverwrite k q item).1.waits = k.wokenWaits (.queueRecv q) := by
  have hslot := waits_overwriteSlot k q item
  unfold osQueueOverwrite
  dsimp only
  split
  · exact Or.inl rfl
  · split
    · rw [waits_yieldIf]
      exact hslot
    · exact hslot

/-- So does one from an interrupt. -/
theorem waits_osQueueOverwriteFromIsr (k : Kernel) (q : Addr) (item : ByteMemory.Mem) :
    (osQueueOverwriteFromIsr k q item).1.waits = k.waits ∨
      (osQueueOverwriteFromIsr k q item).1.waits = k.wokenWaits (.queueRecv q) := by
  have hslot := waits_overwriteSlot k q item
  unfold osQueueOverwriteFromIsr
  dsimp only
  split
  · exact Or.inl rfl
  · rw [waits_requestSwitchIf]
    exact hslot

/-- The moves of an overwriting call are those of a send to the queue. -/
theorem Moves.overwrites {q : Addr} {v : Waits} (item : ByteMemory.Mem)
    (hinv : TaskListInv s.kernel L) (h : v = s.kernel.waits ∨ v = s.kernel.wokenWaits (.queueRecv q)) :
    Moves s (.queueSendFromIsr q item) v := by
  rcases h with h | h
  · exact .same h
  · exact .wokenWaits hinv rfl h

/-! ## Ready tasks in a handler -/

/-- A wake-up takes nobody's READY state away. -/
theorem Waits.ready_set {v : Waits} {x : TaskId} {q : Phase} (hq : q.state = .ready)
    (hr : (v.phases t).state = .ready) : ((v.set x q).phases t).state = .ready := by
  show (Function.update v.phases x q t).state = .ready
  rw [Function.update_apply]
  split
  · exact hq
  · exact hr

/-- A task that can run does so after a wake-up. -/
theorem ready_wokenWaits {w : WaitList} (hr : (k.waits.phases t).state = .ready) :
    ((k.wokenWaits w).phases t).state = .ready := by
  unfold Kernel.wokenWaits
  split
  · exact hr
  · exact Waits.ready_set rfl hr

/-- What handlers do to a queue puts nobody to sleep. -/
theorem QueueTurn.ready {q : Addr} {v : Waits} (h : QueueTurn k q none v)
    (hr : (k.waits.phases t).state = .ready) : (v.phases t).state = .ready := by
  cases h with
  | same h => rwa [h]
  | wakes w hw h =>
      rw [h]
      exact ready_wokenWaits hr
  | sleeps w hw n c hc h => cases hc

/-- Taking from a handler puts nobody to sleep. -/
theorem TakeTurn.ready {a : Addr} {r : Status} {v : Waits} (h : TakeTurn k a (.done r) v)
    (hr : (k.waits.phases t).state = .ready) : (v.phases t).state = .ready := by
  cases h with
  | takes _ _ h => rwa [h]
  | fails _ _ h => rwa [h]
  | sleeps _ hb n h => cases hb

/-- Giving puts nobody to sleep. -/
theorem GiveTurn.ready {a : Addr} {r : Status} {v : Waits} (h : GiveTurn k a r v)
    (hr : (k.waits.phases t).state = .ready) : (v.phases t).state = .ready := by
  cases h with
  | handsOff x _ _ h =>
      rw [h]
      exact Waits.ready_set rfl hr
  | counts _ _ _ h => rwa [h]
  | fails _ _ h => rwa [h]

/-- Nor does a pass over the waiters of an event group. -/
theorem Passed.ready {e : Addr} {l : List TaskId} {v v' : Waits} (h : Passed e l v v')
    (hr : (v.phases t).state = .ready) : (v'.phases t).state = .ready := by
  by_cases ht : t ∈ l
  · rcases h.waiters t ht with hw | ⟨hw, -⟩
    · rw [hw]
      rfl
    · rwa [hw]
  · rwa [h.apart t ht]

/-- **Handlers leave a READY task READY.** -/
theorem IsrCall.ready {op : Op} (hinv : TaskListInv s.kernel L) (hop : IsrCall s op)
    (hs : step s op = some s') (ht : t ∈ s.kernel.liveTcbs)
    (hr : (s.kernel.waits.phases t).state = .ready) : (s'.kernel.waits.phases t).state = .ready := by
  have hmove := (step_moves hinv hop.1 hs).moves t ht
  cases op with
  | semTakeFromIsr a =>
      obtain rfl := Option.some.inj hs
      exact (waits_osSemTakeFromIsr s.kernel a).ready hr
  | semGiveFromIsr a =>
      obtain rfl := Option.some.inj hs
      exact (waits_osSemGiveFromIsr s.kernel a).ready hr
  | queueSendFromIsr q item =>
      obtain rfl := Option.some.inj hs
      exact (waits_osQueueSendFromIsr s.kernel q item).ready hr
  | queueReceiveFromIsr q =>
      obtain rfl := Option.some.inj hs
      exact (waits_osQueueReceiveFromIsr s.kernel q).ready hr
  | eventSetFromIsr e bits =>
      obtain ⟨r, hk, rfl⟩ := Option.map_eq_some_iff.mp hs
      have hpass := Waits.wakePass_passed e (s.kernel.waits.setBits e (s.kernel.waits.bits e ||| bits))
        (hinv.lists.nodup (.wait (.eventGroup e)))
      rw [← hinv.waits_osEventgroupSetBitsFromIsr hk] at hpass
      exact hpass.ready hr
  | notifyFromIsr x v =>
      obtain rfl := Option.some.inj hs
      have h := (waits_osTaskNotifyFromIsr s.kernel x v).trans (waits_notifyTask _ x v)
      show ((osTaskNotifyFromIsr s.kernel x v).1.waits.phases t).state = .ready
      rw [h]
      split
      · exact Waits.ready_set rfl hr
      · exact hr
  | writeStack a x =>
      obtain rfl := Option.some.inj hs
      exact hr
  | scribble x v nx pv =>
      obtain rfl := Option.some.inj hs
      -- memory that is not a live control block
      have hne : t ≠ x := fun htx => hop.1.2.2.1 x rfl (htx ▸ ht)
      show (Function.update s.kernel.tcb x v t).phase.state = .ready
      rw [Function.update_of_ne hne]
      exact hr
  | selectNext => cases hop.2.2
  | _ => cases hop.2.1

/-- **A READY task stays READY** while handlers run. -/
theorem LockInv.execIsr_ready {ops : List Op} (h : LockInv s L)
    (hs : exec IsrCall MiniRTOS.step s ops = some s') (ht : t ∈ s.kernel.liveTcbs)
    (hr : (s.kernel.waits.phases t).state = .ready) : (s'.kernel.waits.phases t).state = .ready := by
  have hrun := (run_of_exec hs).invariant
    (fun s => (∃ L, LockInv s L) ∧ t ∈ s.kernel.liveTcbs ∧ (s.kernel.waits.phases t).state = .ready)
    (fun s op s' hinv hop hs => by
      obtain ⟨⟨L, hl⟩, ht, hr⟩ := hinv
      have hkept := (step_moves hl.tasks.lists hop.1 hs).kept t ht (Or.inl (by simp [hr]))
      exact ⟨hl.step (.of_isr hop.1 hop.2.1) hs, hkept, hop.ready hl.tasks.lists hs ht hr⟩)
    ⟨⟨L, h⟩, ht, hr⟩
  exact hrun.2.2

/-! ## A task asleep -/

/-- **Asleep**: in `blocked_list` with `n` ticks left, at tick `now`. -/
structure Sleeping (s : Sys) (t : TaskId) (n now : Nat) : Prop where
  /-- The lists and the mutexes are in order. -/
  locks : ∃ L, LockInv s L
  /-- The task is live. -/
  live : t ∈ s.kernel.liveTcbs
  /-- The ticks left. -/
  delayed : (s.kernel.waits.phases t).DelayedFor n
  /-- The tick counter. -/
  now : s.kernel.systemTick = now

namespace Sleeping

/-- The task is BLOCKED. -/
theorem blocked (h : Sleeping s t n now) : (s.kernel.tcb t).state = .blocked :=
  (Tcb.phase_state_eq (by simp) (by simp)).mp h.delayed.1

/-- A sleeping task is not deleted. -/
theorem not_deleted (h : Sleeping s t n now) : (s.kernel.waits.phases t).state ≠ .deleted := by
  rw [h.delayed.1]
  simp

/-- A step whose moves spare the task. -/
theorem of_moves {op : Op} (h : Sleeping s t n now) (hl : ∃ L, LockInv s' L)
    (hm : Moves s op s'.kernel.waits) (htick : op.isTick = false) (hop : op.notifies ≠ some t)
    (hnow : s'.kernel.systemTick = s.kernel.systemTick) : Sleeping s' t n now := by
  refine ⟨hl, hm.kept t h.live (Or.inl h.not_deleted), ?_, hnow.trans h.now⟩
  rcases (hm.moves t h.live).of_delayed h.delayed with he | rfl | ⟨hno, -⟩
  · rw [he]
    exact h.delayed
  · cases htick
  · exact absurd hno hop

/-- A step of the system. -/
theorem step {op : Op} (h : Sleeping s t n now) (hop : SafeStep s op) (htick : op.isTick = false)
    (hno : op.notifies ≠ some t) (hs : step s op = some s') : Sleeping s' t n now := by
  obtain ⟨L, hl⟩ := h.locks
  exact h.of_moves (hl.step hop hs) (step_moves hl.tasks.lists hop.1.1 hs) htick hno
    (step_systemTick hs)

/-- What handlers call. -/
theorem execIsr {ops : List Op} (h : Sleeping s t n now) (hno : ∀ op ∈ ops, op.notifies ≠ some t)
    (hs : exec IsrCall MiniRTOS.step s ops = some s') : Sleeping s' t n now := by
  induction ops generalizing s with
  | nil =>
      obtain rfl := Option.some.inj hs
      exact h
  | cons op ops ih =>
      unfold exec at hs
      split at hs
      · next hop =>
          obtain ⟨s₁, hs₁, hs⟩ := Option.bind_eq_some_iff.mp hs
          have htick : op.isTick = false := by
            cases op with
            | tick => cases hop.2.1
            | _ => rfl
          have h₁ := h.step (.of_isr hop.1 hop.2.1) htick (hno op (List.mem_cons_self ..)) hs₁
          exact ih h₁ (fun x hx => hno x (List.mem_cons_of_mem _ hx)) hs
      · cases hs

/-- A selection. -/
theorem select (h : Sleeping s t n now) (hs : MiniRTOS.step s .selectNext = some s') :
    Sleeping s' t n now :=
  h.step (selectNext_safe s) rfl (by simp [Op.notifies]) hs

/-- The counter is incremented. -/
theorem elapse (h : Sleeping s t n now) : Sleeping s.elapse t n ((now + 1) % 2 ^ 32) := by
  obtain ⟨L, hl⟩ := h.locks
  refine ⟨⟨L, hl.elapse⟩, h.live, h.delayed, ?_⟩
  show (s.kernel.systemTick + 1) % 2 ^ 32 = _
  rw [h.now]

/-- A tick that does not end the delay. -/
theorem tick (h : Sleeping s t (n + 2) now) (hs : MiniRTOS.step s .tick = some s') :
    Sleeping s' t (n + 1) now := by
  obtain ⟨L, hl⟩ := h.locks
  obtain ⟨hm, -, -⟩ := tick_moves hl.tasks.lists hs
  refine ⟨hl.tick hs, hm.kept t h.live (Or.inl h.not_deleted), ?_, (step_systemTick hs).trans h.now⟩
  rw [hl.tasks.lists.tick_delayed hs h.live h.delayed]
  exact h.delayed.ticked

/-- **An increment before the last one.** -/
theorem increment {hooks timers : List Op} (h : Sleeping s t (n + 2) now)
    (hno : ∀ op ∈ hooks ++ timers, op.notifies ≠ some t)
    (hs : osKernelTickIncrement s hooks timers = some s') :
    Sleeping s' t (n + 1) ((now + 1) % 2 ^ 32) := by
  obtain ⟨s₁, s₂, s₃, hhooks, htick, htimers, hsel⟩ := osKernelTickIncrement_stages hs
  have h₁ := h.elapse.execIsr (fun op hop => hno op (List.mem_append_left _ hop)) hhooks
  have h₃ := (h₁.tick htick).execIsr (fun op hop => hno op (List.mem_append_right _ hop)) htimers
  exact h₃.select hsel

/-- **The last increment.** -/
theorem wakes {hooks timers : List Op} (h : Sleeping s t 1 now)
    (hno : ∀ op ∈ hooks ++ timers, op.notifies ≠ some t)
    (hs : osKernelTickIncrement s hooks timers = some s') : WakesIn s hooks timers t s' := by
  obtain ⟨s₁, s₂, s₃, hhooks, htick, htimers, hsel⟩ := osKernelTickIncrement_stages hs
  have h₁ := h.elapse.execIsr (fun op hop => hno op (List.mem_append_left _ hop)) hhooks
  obtain ⟨L, hl⟩ := h₁.locks
  have hready := hl.tasks.lists.tick_expires htick h₁.live h₁.delayed
  obtain ⟨hm, -, -⟩ := tick_moves hl.tasks.lists htick
  have hlive := hm.kept t h₁.live (Or.inl h₁.not_deleted)
  obtain ⟨L₂, hl₂⟩ := hl.tick htick
  have hlast := hl₂.execIsr_ready htimers hlive (Tcb.phase_state_ready.mpr (Or.inl hready))
  obtain ⟨L₃, hl₃⟩ := hl₂.execIsr htimers
  have hsel' : s'.kernel.waits = s₃.kernel.waits := by
    obtain rfl := Option.some.inj hsel
    exact hl₃.tasks.lists.waits_osSchedSelectNext
  rw [← hsel'] at hlast
  exact ⟨s₁, s₂, s₃, hhooks, h₁.blocked, htick, hready, htimers, hsel, Tcb.phase_state_ready.mp hlast⟩

/-- **A call** that does not notify the task. -/
theorem call {op : KernelOp} (h : Sleeping s t n now) (hop : ListedStep s op)
    (htick : op.isTick = false) (hno : (ClockOp.call op).Spares t) (hs : kernelStep s op = some s') :
    Sleeping s' t n now := by
  obtain ⟨L, hl⟩ := h.locks
  have hl' := hl.kernelStep hop hs
  have hinv := hl.tasks.lists
  cases op with
  | op o => exact h.step hop htick hno hs
  | setPriority x p =>
      obtain rfl := Option.some.inj hs
      have hm : Moves s .selectNext (osTaskSetPriority s.kernel x p).waits :=
        .same (waits_osTaskSetPriority ..)
      refine h.of_moves hl' hm rfl (by simp [Op.notifies]) ?_
      exact congrArg Tally.systemTick (tally_of_kept (kept_osTaskSetPriority s.kernel x p))
  | overwrite q item =>
      obtain rfl := Option.some.inj hs
      have hm := Moves.overwrites item hinv (waits_osQueueOverwrite s.kernel q item)
      exact h.of_moves hl' hm rfl (by simp [Op.notifies]) (systemTick_osQueueOverwrite ..)
  | overwriteFromIsr q item =>
      obtain rfl := Option.some.inj hs
      have hm := Moves.overwrites item hinv (waits_osQueueOverwriteFromIsr s.kernel q item)
      exact h.of_moves hl' hm rfl (by simp [Op.notifies]) (systemTick_osQueueOverwriteFromIsr ..)

end Sleeping

/-! ## Until the deadline -/

/-- The ticks from `now` to `deadline`. -/
def ticksUntil (now deadline : Nat) : Nat := (deadline + 2 ^ 32 - now) % 2 ^ 32

/-- One tick more is one tick less. -/
theorem ticksUntil_succ {deadline : Nat} (hnow : now < 2 ^ 32) (hd : deadline < 2 ^ 32)
    (hne : now ≠ deadline) : ticksUntil now deadline = ticksUntil ((now + 1) % 2 ^ 32) deadline + 1 := by
  unfold ticksUntil
  by_cases hwrap : now + 1 = 2 ^ 32
  · have hnext : (now + 1) % 2 ^ 32 = 0 := by omega
    rw [hnext]
    omega
  · have hnext : (now + 1) % 2 ^ 32 = now + 1 := by omega
    rw [hnext]
    omega

/-- None are left at the deadline. -/
theorem ticksUntil_self (deadline : Nat) : ticksUntil deadline deadline = 0 := by
  unfold ticksUntil
  rw [Nat.add_sub_cancel_left, Nat.mod_self]

/-- At another time some are left. -/
theorem ticksUntil_pos {deadline : Nat} (hnow : now < 2 ^ 32) (hd : deadline < 2 ^ 32)
    (hne : now ≠ deadline) : 0 < ticksUntil now deadline := by
  rw [ticksUntil_succ hnow hd hne]
  exact Nat.succ_pos _

/-- **Asleep until `deadline`**: the ticks left are those to the deadline. -/
def AsleepUntil (s : Sys) (t : TaskId) (deadline : Nat) : Prop :=
  ∃ now, now < 2 ^ 32 ∧ now ≠ deadline ∧ Sleeping s t (ticksUntil now deadline) now

/-- **A step before the deadline.** -/
theorem AsleepUntil.step {deadline : Nat} {op : ClockOp} (hd : deadline < 2 ^ 32)
    (h : AsleepUntil s t deadline) (hop : op.Before t deadline s) (hs : clockStep s op = some s') :
    AsleepUntil s' t deadline := by
  obtain ⟨now, hlt, hne, h⟩ := h
  obtain ⟨hallowed, hspares, hbefore⟩ := hop
  cases op with
  | call op => exact ⟨now, hlt, hne, h.call hallowed.1 hallowed.2 hspares hs⟩
  | tickIncrement hooks timers =>
      have hne' : (now + 1) % 2 ^ 32 ≠ deadline := h.now ▸ hbefore hooks timers rfl
      have hlt' : (now + 1) % 2 ^ 32 < 2 ^ 32 := Nat.mod_lt _ (by decide)
      refine ⟨(now + 1) % 2 ^ 32, hlt', hne', ?_⟩
      -- two ticks are left at least, and the increment takes one
      have hpos := ticksUntil_pos hlt' hd hne'
      rw [ticksUntil_succ hlt hd hne] at h
      obtain ⟨m, hm⟩ : ∃ m, ticksUntil ((now + 1) % 2 ^ 32) deadline = m + 1 :=
        ⟨_, (Nat.succ_pred_eq_of_pos hpos).symm⟩
      rw [hm] at h ⊢
      exact h.increment hspares hs

/-- **The deadline is kept.** -/
theorem AsleepUntil.sleepsUntil {deadline : Nat} (hd : deadline < 2 ^ 32)
    (h : AsleepUntil s t deadline) : SleepsUntil s t deadline := by
  intro ops s' hr
  have hinv := hr.invariant (fun s => AsleepUntil s t deadline)
    (fun _ _ _ h hop hs => h.step hd hop hs) h
  obtain ⟨now, hlt, hne, h'⟩ := hinv
  refine ⟨h'.blocked, ?_⟩
  intro hooks timers s'' hspares hnow hs
  rw [h'.now] at hnow
  have hlast : ticksUntil now deadline = 1 := by
    rw [ticksUntil_succ hlt hd hne, hnow, ticksUntil_self]
  rw [hlast] at h'
  exact h'.wakes hspares hs

/-! ## The call -/

/-- The call as it is made: nothing to wait for, or a delay of the ticks that are left. -/
theorem osTaskDelayUntil_eq {w p : Nat} (hp : 0 < p) (hp' : p ≤ 2 ^ 31 - 1) :
    osTaskDelayUntil k w p
      = if 0 < ticksUntil k.systemTick ((w + p) % 2 ^ 32) ∧
          ticksUntil k.systemTick ((w + p) % 2 ^ 32) < 2 ^ 31 then
          (osTaskDelay k (ticksUntil k.systemTick ((w + p) % 2 ^ 32))).map
            fun k' => (.ok, (w + p) % 2 ^ 32, k')
        else some (.ok, (w + p) % 2 ^ 32, k) := by
  have hparam : ¬ (p = 0 ∨ p > 2 ^ 31 - 1) := by omega
  unfold osTaskDelayUntil
  rw [if_neg hparam]
  dsimp only
  change (if 0 < ticksUntil k.systemTick ((w + p) % 2 ^ 32) ∧
    ticksUntil k.systemTick ((w + p) % 2 ^ 32) < 2 ^ 31 then _ else _) = _
  split
  · unfold ticksUntil
    cases osTaskDelay k _ <;> rfl
  · rfl

/-- The ticks left when the period has not elapsed. -/
theorem ticksUntil_ahead {w p : Nat} (hw : w < 2 ^ 32) (hnow : now < 2 ^ 32) (hp' : p ≤ 2 ^ 31 - 1)
    (hlt : (now + 2 ^ 32 - w) % 2 ^ 32 < p) :
    ticksUntil now ((w + p) % 2 ^ 32) = p - (now + 2 ^ 32 - w) % 2 ^ 32 := by
  unfold ticksUntil
  by_cases hnw : w ≤ now
  · have he : (now + 2 ^ 32 - w) % 2 ^ 32 = now - w := by omega
    rw [he] at hlt ⊢
    by_cases hwp : w + p < 2 ^ 32
    · rw [Nat.mod_eq_of_lt hwp]
      omega
    · have hd : (w + p) % 2 ^ 32 = w + p - 2 ^ 32 := by omega
      rw [hd]
      omega
  · have he : (now + 2 ^ 32 - w) % 2 ^ 32 = now + 2 ^ 32 - w := by omega
    rw [he] at hlt ⊢
    have hd : (w + p) % 2 ^ 32 = w + p - 2 ^ 32 := by omega
    rw [hd]
    omega

/-- The signed difference is not positive when the period has elapsed. -/
theorem ticksUntil_behind {w p : Nat} (hw : w < 2 ^ 32) (hnow : now < 2 ^ 32) (hp' : p ≤ 2 ^ 31 - 1)
    (he : (now + 2 ^ 32 - w) % 2 ^ 32 < 2 ^ 31) (hle : p ≤ (now + 2 ^ 32 - w) % 2 ^ 32) :
    ¬ (0 < ticksUntil now ((w + p) % 2 ^ 32) ∧ ticksUntil now ((w + p) % 2 ^ 32) < 2 ^ 31) := by
  unfold ticksUntil
  by_cases hnw : w ≤ now
  · have he' : (now + 2 ^ 32 - w) % 2 ^ 32 = now - w := by omega
    rw [he'] at he hle
    have hd : (w + p) % 2 ^ 32 = w + p := by omega
    rw [hd]
    omega
  · have he' : (now + 2 ^ 32 - w) % 2 ^ 32 = now + 2 ^ 32 - w := by omega
    rw [he'] at he hle
    by_cases hwp : w + p < 2 ^ 32
    · rw [Nat.mod_eq_of_lt hwp]
      omega
    · have hd : (w + p) % 2 ^ 32 = w + p - 2 ^ 32 := by omega
      rw [hd]
      omega

/-- The task falls asleep. -/
theorem LockInv.delayUntil {w p n : Nat} (h : LockInv s L) (hop : (Op.delayUntil w p).Allowed s)
    (hc : s.kernel.current = some c) (hn : 0 < n) (hk : osTaskDelay s.kernel n = some k)
    (hs : MiniRTOS.step s (.delayUntil w p) = some (s.after k)) :
    Sleeping (s.after k) c n s.kernel.systemTick := by
  obtain ⟨x, hx, hlive, hst, -⟩ := Sys.Permits.task hop.1
  obtain rfl := Option.some.inj (hx.symm.trans hc)
  have hsafe : SafeStep s (.delayUntil w p) := by
    refine ⟨⟨hop, ?_, ?_, ?_⟩, ?_⟩
    · intro m hm
      cases hm
    · intro hd
      cases hd
    · intro m hm
      cases hm
    · rintro ⟨m, hm, -⟩
      cases hm
  have hw := waits_osTaskDelay hk
  have hn' : ¬ n = 0 := by omega
  rw [if_neg hn', hc] at hw
  have hphase : k.waits.phases x = (s.kernel.waits.phases x).delayed n := by
    rw [hw]
    exact Waits.phases_set_self ..
  refine ⟨h.step hsafe hs, ?_, ?_, step_systemTick hs⟩
  · have hlive' : k.liveTcbs = s.kernel.liveTcbs := congrArg Waits.live hw
    show x ∈ k.liveTcbs
    rw [hlive']
    exact hlive
  · show (k.waits.phases x).DelayedFor n
    rw [hphase]
    exact ⟨rfl, h.tasks.lists.blockedOn_of_ready hlive (Tcb.phase_state_ready.mpr hst), rfl⟩

/-- Successive calls add up the period, whatever the kernel looks like at each of them. -/
theorem delayUntilCalls_eq {w p : Nat} {ks : List Kernel} (hw : w < 2 ^ 32) (hp : 0 < p)
    (hp' : p ≤ 2 ^ 31 - 1) (hcur : ∀ k ∈ ks, k.current.isSome = true) :
    delayUntilCalls w p ks = some ((w + ks.length * p) % 2 ^ 32) := by
  induction ks generalizing w with
  | nil =>
      have hzero : (w + 0 * p) % 2 ^ 32 = w := by omega
      show some w = some ((w + 0 * p) % 2 ^ 32)
      rw [hzero]
  | cons k ks ih =>
      have hlt : (w + p) % 2 ^ 32 < 2 ^ 32 := Nat.mod_lt _ (by decide)
      have hcall : ∃ k', osTaskDelayUntil k w p = some (.ok, (w + p) % 2 ^ 32, k') := by
        obtain ⟨c, hc⟩ := Option.isSome_iff_exists.mp (hcur k (List.mem_cons_self ..))
        rw [osTaskDelayUntil_eq hp hp']
        split
        · next hpos =>
            have hn : ¬ ticksUntil k.systemTick ((w + p) % 2 ^ 32) = 0 := by omega
            unfold osTaskDelay
            rw [if_neg hn, hc]
            exact ⟨_, rfl⟩
        · exact ⟨_, rfl⟩
      obtain ⟨k', hk'⟩ := hcall
      have hrest := ih hlt fun x hx => hcur x (List.mem_cons_of_mem _ hx)
      have hadd : ((w + p) % 2 ^ 32 + ks.length * p) % 2 ^ 32
          = (w + (ks.length + 1) * p) % 2 ^ 32 := by
        rw [Nat.mod_add_mod, Nat.succ_mul]
        congr 1
        omega
      unfold delayUntilCalls
      rw [hk']
      show delayUntilCalls ((w + p) % 2 ^ 32) p ks = _
      rw [hrest, hadd]
      rfl

/-- A run of the system is a run here, under any guard that its steps meet. -/
theorem clockRun_of_guarded {ops : List Op} {guard : Sys → Op → Prop} {guard' : Sys → ClockOp → Prop}
    (hguard : ∀ s op, guard s op → guard' s (.call (.op op))) (h : Run guard step s₀ ops s) :
    Run guard' clockStep s₀ (ops.map fun op => .call (.op op)) s := by
  induction h with
  | nil => exact .nil _
  | cons hg hs _ ih => exact .cons (hguard _ _ hg) hs ih

/-- A run of the system without ticks is a run here. -/
theorem clockRun_of_run {ops : List Op}
    (h : Run (fun s op => SafeStep s op ∧ op.isTick = false) step s₀ ops s) :
    Run (fun s op => ClockOp.Allowed s op) clockStep s₀ (ops.map fun op => .call (.op op)) s :=
  clockRun_of_guarded (fun _ _ hg => hg) h

/-- A task of priority 2 runs at tick 0. -/
def periodicTrace : List Op :=
  [.create (taskAt 0x100 2), .create (taskAt 0x200 7), .selectNext]

/-- What the environment may do, full releases by boosted owners and new priorities for RUNNING tasks
included. -/
def ClockOp.Proper (s : Sys) : ClockOp → Prop
  | .call (.op o) => s.ProperUse o ∧ o.isTick = false
  | .call (.setPriority t _) => s.Permits .startup ∧ t ∈ s.kernel.liveTcbs
  | .call (.overwrite ..) => s.Permits .task
  | .call (.overwriteFromIsr ..) => True
  | .tickIncrement .. => True

/-- A task of priority 5 owns a mutex, a task of priority 1 boosts it, and the owner releases the mutex. -/
def boostedOwnerTrace : List Op :=
  [.mutexCreate 0x10, .create (taskAt 0x100 5), .selectNext, .mutexLock 0x10 waitForever,
    .create (taskAt 0x200 1), .selectNext, .mutexLock 0x10 waitForever, .selectNext,
    .mutexUnlock 0x10, .selectNext]

end MiniRTOS
