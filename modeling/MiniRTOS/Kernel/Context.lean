import MiniRTOS.Kernel.SystemFrames

/-! # Whose context the CPU executes

`PendSV_Handler` stores the process stack pointer into the control block of `current_task_ptr`,
selects the next task and loads the stack pointer of that one. This is a context switch as long as
`current_task_ptr` is the task that the CPU executes. Without interrupt nesting `SysTick_Handler`
calls `os_sched_select_next` as well, before the switch it requests: when that call moves
`current_task_ptr` to another task, the next `PendSV_Handler` saves the interrupted context into the
control block of the wrong task. -/

namespace MiniRTOS

open Runs

variable {s s' : Sys} {op : Op} {k : Kernel}

/-! ## What kernel calls leave alone -/

/-- **No call switches contexts**: the current task and the saved stack pointers of live tasks
stay. -/
structure ContextFrame (s s' : Sys) : Prop where
  /-- The current task. -/
  current : s'.kernel.current = s.kernel.current
  /-- The saved stack pointers. -/
  sps : ∀ t ∈ s.kernel.liveTcbs, t ∈ s'.kernel.liveTcbs →
    (s'.kernel.tcb t).stackPtr = (s.kernel.tcb t).stackPtr

/-- A step that changes neither the stack pointers nor the current task. -/
theorem ContextFrame.of_view (hs : s'.kernel.view.sps = s.kernel.view.sps)
    (hc : s'.kernel.view.current = s.kernel.view.current) : ContextFrame s s' :=
  ⟨hc, fun t _ _ => congrFun hs t⟩

/-- Creating a task. -/
theorem Sys.created_context {a : CreateArgs} {r : Status × Option TaskId × Kernel}
    (hun : ∀ t ∈ a.tcbBlock, t ∉ s.kernel.liveTcbs)
    (hv : (∃ t p sp, a.tcbBlock = some t ∧ r.2.2.view = s.kernel.view.addTask t p sp) ∨
      r.2.2.view = s.kernel.view) : ContextFrame s (s.created a r) := by
  have hkernel : (s.created a r).kernel = r.2.2 := by
    unfold Sys.created
    split <;> rfl
  rcases hv with ⟨t, p, sp, ht, hv⟩ | hv
  · have hsps : (s.created a r).kernel.view.sps = Function.update s.kernel.view.sps t sp := by
      rw [hkernel, hv]
      rfl
    refine ⟨?_, fun x hx _ => ?_⟩
    · rw [hkernel]
      exact congrArg View.current hv
    · have hxt : x ≠ t := fun hxt => hun t ht (hxt ▸ hx)
      exact (congrFun hsps x).trans (Function.update_of_ne hxt _ _)
  · exact .of_view (by rw [hkernel, hv]) (by rw [hkernel, hv])

/-- **Every step but a selection** leaves the contexts alone. -/
theorem step_context (ha : op.Allowed s) (hsel : op ≠ .selectNext) (h : step s op = some s') :
    ContextFrame s s' := by
  by_cases hq : op.quiet = true
  · obtain ⟨l, c, -, hc, hv, -⟩ := step_quiet hq h
    refine .of_view (by rw [hv]; rfl) ?_
    rw [hv]
    exact hc hsel
  cases op with
  | create a =>
      obtain rfl := Option.some.inj h
      refine Sys.created_context ha.2.2.1 ?_
      rcases view_osTaskCreate s.kernel a with ⟨t, p, sp, -, ht, -, hv, -⟩ | ⟨-, hv⟩
      · exact Or.inl ⟨t, p, sp, ht, hv⟩
      · exact Or.inr hv
  | createSuspended a =>
      obtain rfl := Option.some.inj h
      refine Sys.created_context ha.2.2.1 ?_
      rw [(view_osTaskCreateSuspended s.kernel a).2]
      rcases view_osTaskCreate s.kernel a with ⟨t, p, sp, -, ht, -, hv, -⟩ | ⟨-, hv⟩
      · exact Or.inl ⟨t, p, sp, ht, hv⟩
      · exact Or.inr hv
  | queueCreate q sz n b =>
      obtain rfl := Option.some.inj h
      have hv : (osQueueCreate s.kernel q sz n b).2.view.sps = s.kernel.view.sps ∧
          (osQueueCreate s.kernel q sz n b).2.view.current = s.kernel.view.current := by
        unfold osQueueCreate
        split
        · exact ⟨rfl, rfl⟩
        · cases b <;> exact ⟨rfl, rfl⟩
      exact .of_view hv.1 hv.2
  | queueSend q item n =>
      obtain ⟨c, k, r, -, hr, rfl⟩ := Sys.blockingCall_inv h
      have hv : k.view.sps = s.kernel.view.sps ∧ k.view.current = s.kernel.view.current := by
        rcases view_osQueueSend hr with ⟨-, -, hv⟩ | ⟨-, hv⟩
        · rw [hv]
          exact ⟨rfl, rfl⟩
        · rw [hv]
          exact ⟨rfl, rfl⟩
      cases r <;> exact .of_view hv.1 hv.2
  | queueSendFromIsr q item =>
      obtain rfl := Option.some.inj h
      rcases view_osQueueSendFromIsr s.kernel q item with ⟨-, -, hv⟩ | ⟨-, hv⟩
      · exact .of_view (congrArg View.sps hv : _) (congrArg View.current hv : _)
      · exact .of_view (congrArg View.sps hv : _) (congrArg View.current hv : _)
  | queueReceive q n =>
      obtain ⟨c, k, r, -, hr, rfl⟩ := Sys.blockingCall_inv h
      have hv : k.view.sps = s.kernel.view.sps ∧ k.view.current = s.kernel.view.current := by
        rcases view_osQueueReceive hr with ⟨-, -, hv⟩ | ⟨-, hv⟩
        · rw [hv]
          exact ⟨rfl, rfl⟩
        · rw [hv]
          exact ⟨rfl, rfl⟩
      cases r <;> exact .of_view hv.1 hv.2
  | queueReceiveFromIsr q =>
      obtain rfl := Option.some.inj h
      rcases view_osQueueReceiveFromIsr s.kernel q with ⟨-, -, hv⟩ | ⟨-, hv⟩
      · exact .of_view (congrArg View.sps hv : _) (congrArg View.current hv : _)
      · exact .of_view (congrArg View.sps hv : _) (congrArg View.current hv : _)
  | mutexCreate m =>
      obtain rfl := Option.some.inj h
      exact .of_view rfl rfl
  | mutexLock m n =>
      obtain ⟨c, hc, -⟩ := Sys.Permits.task ha.1
      have hboost : ∀ o, (s.kernel.view.boost c o).sps = s.kernel.view.sps ∧
          (s.kernel.view.boost c o).current = s.kernel.view.current := by
        intro o
        unfold View.boost
        split <;> exact ⟨rfl, rfl⟩
      cases step_mutexLock hc h with
      | free _ hview => exact .of_view (by rw [hview]; rfl) (by rw [hview]; rfl)
      | again _ hview => exact .of_view (by rw [hview]; rfl) (by rw [hview]; rfl)
      | refused o _ _ hview =>
          exact .of_view (by rw [hview, (hboost o).1]) (by rw [hview, (hboost o).2])
      | blocked o _ _ hview =>
          exact .of_view (by rw [hview, (hboost o).1]) (by rw [hview, (hboost o).2])
  | mutexUnlock m =>
      obtain ⟨c, hc, -⟩ := Sys.Permits.task ha.1
      cases (step_mutexUnlock hc h).2 with
      | foreign _ hview => exact .of_view (by rw [hview]) (by rw [hview])
      | again _ _ hview => exact .of_view (by rw [hview]; rfl) (by rw [hview]; rfl)
      | full _ _ hview => exact .of_view (by rw [hview]; rfl) (by rw [hview]; rfl)
  | returnFromCall =>
      obtain ⟨c, hc, h⟩ := Option.bind_eq_some_iff.mp h
      cases hcall : s.call c with
      | idle =>
          rw [hcall] at h
          cases h
      | notifyWait =>
          rw [hcall] at h
          obtain rfl := Option.some.inj h
          have hv := view_osTaskNotifyWaitResume s.kernel c
          exact .of_view (congrArg View.sps hv : _) (congrArg View.current hv : _)
      | _ =>
          rw [hcall] at h
          obtain rfl := Option.some.inj h
          exact .of_view rfl rfl
  | scribble t v nx pv =>
      obtain rfl := Option.some.inj h
      refine ⟨rfl, fun x hx _ => ?_⟩
      have hxt : x ≠ t := fun hxt => ha.2.2.1 t rfl (hxt ▸ hx)
      show (Function.update s.kernel.tcb t v x).stackPtr = _
      rw [Function.update_of_ne hxt]
  | _ => exact absurd rfl hq

/-! ## Selections that change nothing -/

/-- **The current task is alone**: whenever a task is ready, the highest ready task is the current one,
and it is linked to no other task. -/
def Kernel.CurrentAlone (k : Kernel) : Prop :=
  ∀ t ∈ osTaskFindHighestReady k,
    k.current = some t ∧ k.links.next t = none ∧ k.links.prev t = none

/-- Whether the current task runs alone can be decided. -/
instance (k : Kernel) : Decidable k.CurrentAlone :=
  inferInstanceAs (Decidable (∀ t ∈ osTaskFindHighestReady k, _))

/-- The lowest set bit after setting a further one. -/
theorem builtinCtz_setBit {b : BitVec 32} {p : Nat} (q : Prio) (h : builtinCtz b = some p) :
    builtinCtz (b ||| BitVec.twoPow 32 q) = some (min p q) := by
  rw [builtinCtz, List.find?_range_eq_some] at h ⊢
  obtain ⟨hbit, hmem, hlow⟩ := h
  refine ⟨?_, ?_, fun j hj => ?_⟩
  · rw [getLsbD_setBit]
    rcases Nat.le_total p q with hpq | hpq
    · rw [Nat.min_eq_left hpq, hbit, Bool.true_or]
    · rw [Nat.min_eq_right hpq]
      simp
  · have hp := List.mem_range.mp hmem
    exact List.mem_range.mpr (by omega)
  · have hjp := hlow j (by omega)
    rw [getLsbD_setBit]
    have hne : q.val ≠ j := by omega
    simpa [hne] using hjp

/-- Rotating a ready list of one task changes nothing that the search reads. -/
theorem osTaskFindHighestReady_rotate {t : TaskId} (h : osTaskFindHighestReady k = some t)
    (hnext : k.links.next t = none) (hprev : k.links.prev t = none) :
    osTaskFindHighestReady (osTaskAddToReady (osTaskRemoveFromReady k t) t) = some t := by
  unfold osTaskFindHighestReady at h
  cases hctz : builtinCtz k.readyBitmap with
  | none =>
      rw [hctz] at h
      cases h
  | some p =>
      rw [hctz] at h
      dsimp only at h
      split at h
      · next hp =>
          -- the list of the task's priority is empty in between
          have hlist : (osTaskAddToReady (osTaskRemoveFromReady k t) t).readyList
              = Function.update k.readyList (k.prio t)
                  ⟨some t, some t, (k.readyList (k.prio t)).count - 1 + 1⟩ := by
            simp [osTaskAddToReady, osTaskRemoveFromReady, Kernel.prio, hnext, hprev]
          have hbits : (osTaskAddToReady (osTaskRemoveFromReady k t) t).readyBitmap
              = k.readyBitmap ||| BitVec.twoPow 32 (k.prio t) := by
            have hraw : (osTaskAddToReady (osTaskRemoveFromReady k t) t).readyBitmap
                = (k.readyBitmap &&& ~~~BitVec.twoPow 32 (k.prio t)) ||| BitVec.twoPow 32 (k.prio t) := by
              simp [osTaskAddToReady, osTaskRemoveFromReady, Kernel.prio, hnext, hprev]
            rw [hraw]
            refine BitVec.eq_of_getLsbD_eq fun i _ => ?_
            rw [getLsbD_setBit, getLsbD_setBit, getLsbD_clearBit]
            by_cases hi : (k.prio t).val = i <;> simp [hi]
          rw [osTaskFindHighestReady, hbits, builtinCtz_setBit (k.prio t) hctz, hlist]
          have hmin : min p (k.prio t).val < numPriorities := by omega
          simp only [dif_pos hmin]
          rw [Function.update_apply]
          split
          · rfl
          · next hne =>
              have hlt : min p (k.prio t).val = p := by
                by_contra hmp
                refine hne (Fin.ext ?_)
                show min p (k.prio t).val = (k.prio t).val
                omega
              simp only [hlt]
              exact h
      · cases h

/-- **A selection that finds the current task alone** leaves it current. -/
theorem Kernel.CurrentAlone.selectNext (h : k.CurrentAlone) :
    (osSchedSelectNext k).current = k.current := by
  unfold osSchedSelectNext
  cases hfind : osTaskFindHighestReady k with
  | none => rfl
  | some t =>
      obtain ⟨hc, hnext, hprev⟩ := h t hfind
      simp only [if_pos hc, osTaskFindHighestReady_rotate hfind hnext hprev]
      rw [hc]
      rfl

/-! ## The CPU

`running` and `savedPsp` are ghosts: which task's context the CPU executes, and the process stack
pointer that each task had when it was last switched out. -/

/-- Registers are 32 bits wide, and eight of them (R4-R11) lie between a saved stack pointer and the
process stack pointer. -/
def pspOf (stackPtr : Nat) : Nat := (stackPtr + 32) % 2 ^ 32

/-- The stack pointer after `stmdb r0!, {r4-r11}`. -/
def stmdb (psp : Nat) : Nat := (psp + (2 ^ 32 - 32)) % 2 ^ 32

/-- The kernel and the CPU that runs it. -/
structure Cpu where
  /-- The kernel and its callers. -/
  sys : Sys
  /-- The process stack pointer. -/
  psp : Nat
  /-- The task whose context is executed. -/
  running : TaskId
  /-- The process stack pointer of each task at its last switch. -/
  savedPsp : TaskId → Nat

/-- The CPU after a kernel call: a new task resumes from its initial frame. -/
def Cpu.withSys (c : Cpu) (s : Sys) : Cpu :=
  { c with
    sys := s
    savedPsp := fun t =>
      if t ∈ s.kernel.liveTcbs ∧ t ∉ c.sys.kernel.liveTcbs then pspOf (s.kernel.tcb t).stackPtr
      else c.savedPsp t }

/-- What the CPU can do next. -/
inductive CpuOp
  /-- A call, in thread mode or from an interrupt. -/
  | call (op : Op)
  /-- The task executes, up to this stack pointer. -/
  | exec (psp : Nat)
  /-- `os_sched_yield`. -/
  | yield
  /-- `SysTick_Handler`, with what the tick hooks and timers call. -/
  | sysTick (hooks timers : List Op)
  /-- `PendSV_Handler`. -/
  | pendSv

/-- The steps that belong to the two exceptions. -/
def Op.ofException : Op → Bool
  | .selectNext | .tick => true
  | _ => false

/-- A call that a tick hook, a timer or another handler can make. -/
def IsrCall (s : Sys) (op : Op) : Prop := op.Allowed s ∧ op.caller = .isr ∧ op.ofException = false

/-- Whether a call belongs to interrupts can be decided. -/
instance (s : Sys) (op : Op) : Decidable (IsrCall s op) := inferInstanceAs (Decidable (_ ∧ _))

/-- `os_kernel_tick_increment` up to its `os_sched_select_next`: the tick hooks, `os_task_tick`, and
what the software timers and the watchdog call. -/
def beforeSelect (s : Sys) (hooks timers : List Op) : Option Sys := do
  let s₁ := s.onIsr { s.kernel with systemTick := (s.kernel.systemTick + 1) % 2 ^ 32 }
  let s₂ ← exec IsrCall step s₁ hooks
  let s₃ ← step s₂ .tick
  exec IsrCall step s₃ timers

/-- `os_kernel_tick_increment` without interrupt nesting. -/
def osKernelTickIncrement (s : Sys) (hooks timers : List Op) : Option Sys :=
  (beforeSelect s hooks timers).bind fun s => step s .selectNext

/-- `SysTick_Handler`: the tick, then `os_port_yield`. -/
def sysTickHandler (s : Sys) (hooks timers : List Op) : Option Sys :=
  (osKernelTickIncrement s hooks timers).map fun s => s.onIsr { s.kernel with pendSv := true }

/-- The first part of `PendSV_Handler`: R4-R11 go on the process stack, and its pointer into the
control block of the current task. -/
def saveContext (k : Kernel) (cur : TaskId) (psp : Nat) : Kernel :=
  { k.setTcb cur { k.tcb cur with stackPtr := stmdb psp } with pendSv := false }

/-- `PendSV_Handler`: save, select, load. -/
def pendSvHandler (c : Cpu) : Option Cpu := do
  let cur ← c.sys.kernel.current
  let s₂ ← step (c.sys.onIsr (saveContext c.sys.kernel cur c.psp)) .selectNext
  let n ← s₂.kernel.current
  some
    { sys := s₂
      psp := pspOf (s₂.kernel.tcb n).stackPtr
      running := n
      savedPsp := Function.update c.savedPsp c.running c.psp }

/-- **One step of the CPU.** -/
def cpuStep (c : Cpu) : CpuOp → Option Cpu
  | .call op => (step c.sys op).map c.withSys
  | .exec psp => some { c with psp := psp % 2 ^ 32 }
  | .yield => some (c.withSys (c.sys.onIsr (osSchedYield c.sys.kernel)))
  | .sysTick hooks timers => (sysTickHandler c.sys hooks timers).map c.withSys
  | .pendSv => if c.sys.kernel.pendSv then pendSvHandler c else none

/-- The last part of `os_sched_start`: select the first task and pop its whole initial frame but
xPSR. -/
def osSchedStart (s : Sys) : Option Cpu := do
  let s₁ ← step (s.onIsr { s.kernel with schedulerRunning := true }) .selectNext
  let t ← s₁.kernel.current
  some
    { sys := s₁
      psp := ((s₁.kernel.tcb t).stackPtr + 60) % 2 ^ 32
      running := t
      savedPsp := fun t => pspOf (s₁.kernel.tcb t).stackPtr }

/-- What can happen: the task or an interrupt calls the kernel, the task executes or yields, and the
two exceptions. -/
def CpuAllowed (c : Cpu) : CpuOp → Prop
  | .call op => op.Allowed c.sys ∧ op.ofException = false
  | _ => True

/-- **Ticks that keep the current task**: the `os_sched_select_next` of `os_kernel_tick_increment`
finds no ready task, or the current task alone in its list. -/
def TickKeeps (c : Cpu) : CpuOp → Prop
  | .sysTick hooks timers => ∀ s ∈ beforeSelect c.sys hooks timers, s.kernel.CurrentAlone
  | _ => True

/-- The steps of the runs in which no tick moves the current task. -/
def OwnedStep (c : Cpu) (op : CpuOp) : Prop := CpuAllowed c op ∧ TickKeeps c op

/-- Whether an action of the processor is allowed can be decided. -/
instance (c : Cpu) : (op : CpuOp) → Decidable (CpuAllowed c op)
  | .call _ => inferInstanceAs (Decidable (_ ∧ _))
  | .exec _ | .yield | .sysTick .. | .pendSv => inferInstanceAs (Decidable True)

/-- Whether a tick keeps the context can be decided. -/
instance (c : Cpu) : (op : CpuOp) → Decidable (TickKeeps c op)
  | .sysTick hooks timers =>
      inferInstanceAs (Decidable (∀ s ∈ beforeSelect c.sys hooks timers, s.kernel.CurrentAlone))
  | .call _ | .exec _ | .yield | .pendSv => inferInstanceAs (Decidable True)

/-- Whether a step of such runs may take place can be decided. -/
instance (c : Cpu) (op : CpuOp) : Decidable (OwnedStep c op) := inferInstanceAs (Decidable (_ ∧ _))

/-! ## The invariant -/

/-- **The CPU executes the current task**, and every other live task has the stack pointer it was
switched out with in its control block. -/
structure Cpu.Owned (c : Cpu) : Prop where
  /-- The current task is executed. -/
  current : c.sys.kernel.current = some c.running
  /-- The stack pointer is a 32-bit value. -/
  psp : c.psp < 2 ^ 32
  /-- The other tasks are saved. -/
  saved : ∀ t ∈ c.sys.kernel.liveTcbs, t ≠ c.running →
    c.savedPsp t = pspOf (c.sys.kernel.tcb t).stackPtr

/-- Loading undoes saving. -/
theorem pspOf_stmdb {psp : Nat} (h : psp < 2 ^ 32) : pspOf (stmdb psp) = psp := by
  unfold pspOf stmdb
  omega

/-- Frames compose as long as the second part creates no task. -/
theorem ContextFrame.trans {s₁ s₂ s₃ : Sys} (h₁ : ContextFrame s₁ s₂) (h₂ : ContextFrame s₂ s₃)
    (hlive : s₃.kernel.liveTcbs ⊆ s₂.kernel.liveTcbs) : ContextFrame s₁ s₃ := by
  refine ⟨h₂.current.trans h₁.current, fun t ht ht' => ?_⟩
  rw [h₂.sps t (hlive ht') ht', h₁.sps t ht (hlive ht')]

/-- No interrupt creates a task. -/
theorem step_isr_live (hop : op.caller = .isr ∨ op = .tick) (h : step s op = some s') :
    s'.kernel.liveTcbs ⊆ s.kernel.liveTcbs := by
  by_cases hq : op.quiet = true
  · obtain ⟨l, c, hl, -, hv, -⟩ := step_quiet hq h
    have hlive : s'.kernel.liveTcbs = l := congrArg View.live hv
    rw [hlive]
    exact hl
  cases op with
  | queueSendFromIsr q item =>
      obtain rfl := Option.some.inj h
      have hlive : (osQueueSendFromIsr s.kernel q item).1.liveTcbs = s.kernel.liveTcbs := by
        rcases view_osQueueSendFromIsr s.kernel q item with ⟨-, -, hv⟩ | ⟨-, hv⟩
        · exact congrArg View.live hv
        · exact congrArg View.live hv
      exact fun x hx => hlive ▸ hx
  | queueReceiveFromIsr q =>
      obtain rfl := Option.some.inj h
      have hlive : (osQueueReceiveFromIsr s.kernel q).1.liveTcbs = s.kernel.liveTcbs := by
        rcases view_osQueueReceiveFromIsr s.kernel q with ⟨-, -, hv⟩ | ⟨-, hv⟩
        · exact congrArg View.live hv
        · exact congrArg View.live hv
      exact fun x hx => hlive ▸ hx
  | scribble t v nx pv =>
      obtain rfl := Option.some.inj h
      exact List.Subset.refl _
  | _ => first | exact absurd rfl hq | (rcases hop with hop | hop <;> cases hop)

/-- A step that is no selection is none of `os_sched_select_next`. -/
theorem Op.ne_selectNext (h : op.ofException = false) : op ≠ .selectNext := by
  rintro rfl
  cases h

/-- **The calls of handlers** leave the contexts alone and create no task. -/
theorem exec_isr_context {ops : List Op} (h : exec IsrCall step s ops = some s') :
    ContextFrame s s' ∧ s'.kernel.liveTcbs ⊆ s.kernel.liveTcbs := by
  have hr := run_of_exec h
  refine hr.invariant (fun s' => ContextFrame s s' ∧ s'.kernel.liveTcbs ⊆ s.kernel.liveTcbs)
    (fun s₁ op s₂ hinv hg hs => ?_) ⟨⟨rfl, fun _ _ _ => rfl⟩, List.Subset.refl _⟩
  obtain ⟨hframe, hsub⟩ := hinv
  obtain ⟨ha, hisr, hex⟩ := hg
  have hlive := step_isr_live (Or.inl hisr) hs
  exact ⟨hframe.trans (step_context ha (Op.ne_selectNext hex) hs) hlive, List.Subset.trans hlive hsub⟩

/-- The part of the tick before its selection. -/
theorem beforeSelect_context {hooks timers : List Op} (h : beforeSelect s hooks timers = some s') :
    ContextFrame s s' := by
  obtain ⟨s₂, hhooks, h⟩ := Option.bind_eq_some_iff.mp h
  obtain ⟨s₃, htick, htimers⟩ := Option.bind_eq_some_iff.mp h
  obtain ⟨k, hk, rfl⟩ := Option.map_eq_some_iff.mp htick
  obtain ⟨l, hl, hv⟩ := view_osTaskTick hk
  have hframe : ContextFrame s₂ (s₂.onIsr k) :=
    .of_view (congrArg View.sps hv : _) (congrArg View.current hv : _)
  obtain ⟨h₂, -⟩ := exec_isr_context hhooks
  obtain ⟨h₃, hsub⟩ := exec_isr_context htimers
  have h₀ : ContextFrame s
      (s.onIsr { s.kernel with systemTick := (s.kernel.systemTick + 1) % 2 ^ 32 }) :=
    ⟨rfl, fun _ _ _ => rfl⟩
  have hlive : k.liveTcbs ⊆ s₂.kernel.liveTcbs := step_isr_live (Or.inr rfl) htick
  refine ((h₀.trans h₂ ?_).trans hframe hlive).trans h₃ hsub
  exact (exec_isr_context hhooks).2

/-- A selection changes no saved stack pointer. -/
theorem osSchedSelectNext_stackPtr (k : Kernel) (t : TaskId) :
    ((osSchedSelectNext k).tcb t).stackPtr = (k.tcb t).stackPtr :=
  congrFun (congrArg View.sps (view_osSchedSelectNext k)) t

/-- A selection frees and creates no control block. -/
theorem osSchedSelectNext_liveTcbs (k : Kernel) :
    (osSchedSelectNext k).liveTcbs = k.liveTcbs :=
  congrArg View.live (view_osSchedSelectNext k)

/-- Saving a context writes one stack pointer. -/
theorem saveContext_stackPtr (k : Kernel) (cur t : TaskId) (psp : Nat) :
    ((saveContext k cur psp).tcb t).stackPtr
      = if t = cur then stmdb psp else (k.tcb t).stackPtr := by
  simp only [saveContext, Kernel.setTcb, Function.update_apply]
  split <;> rfl

/-- The tick handler, when its selection keeps the current task. -/
theorem sysTickHandler_context {hooks timers : List Op} (h : sysTickHandler s hooks timers = some s')
    (halone : ∀ s₁ ∈ beforeSelect s hooks timers, s₁.kernel.CurrentAlone) : ContextFrame s s' := by
  obtain ⟨s₂, h₂, rfl⟩ := Option.map_eq_some_iff.mp h
  obtain ⟨s₁, h₁, hsel⟩ := Option.bind_eq_some_iff.mp h₂
  obtain rfl := Option.some.inj hsel
  refine (beforeSelect_context h₁).trans ⟨?_, fun t _ _ => ?_⟩ ?_
  · exact (halone s₁ h₁).selectNext
  · exact osSchedSelectNext_stackPtr s₁.kernel t
  · exact fun t ht => osSchedSelectNext_liveTcbs s₁.kernel ▸ ht

namespace Cpu

variable {c c' : Cpu}

/-- Kernel calls keep the ownership. -/
theorem Owned.withSys (h : c.Owned) (hf : ContextFrame c.sys s) : (c.withSys s).Owned := by
  refine ⟨hf.current.trans h.current, h.psp, fun t ht hne => ?_⟩
  show (if t ∈ s.kernel.liveTcbs ∧ t ∉ c.sys.kernel.liveTcbs then _ else c.savedPsp t) = _
  split
  · rfl
  · next hold =>
      have hlive : t ∈ c.sys.kernel.liveTcbs := by
        by_contra hn
        exact hold ⟨ht, hn⟩
      rw [h.saved t hlive hne]
      exact congrArg pspOf (hf.sps t hlive ht).symm

/-- **What `PendSV_Handler` does** when the current task is executed. -/
structure Switch (c c' : Cpu) : Prop where
  /-- The interrupted task's own control block holds its stack pointer. -/
  stored : (c'.sys.kernel.tcb c.running).stackPtr = stmdb c.psp
  /-- No other stack pointer changes. -/
  others : ∀ t, t ≠ c.running →
    (c'.sys.kernel.tcb t).stackPtr = (c.sys.kernel.tcb t).stackPtr
  /-- The interrupted task is the one switched out. -/
  out : c'.savedPsp = Function.update c.savedPsp c.running c.psp
  /-- The task switched in is current. -/
  current : c'.sys.kernel.current = some c'.running
  /-- It resumes from the stack pointer of its last switch. -/
  resumed : c'.running ∈ c'.sys.kernel.liveTcbs → c'.psp = c'.savedPsp c'.running

/-- **A context switch** from an owned state. -/
theorem Owned.pendSv (h : c.Owned) (hs : pendSvHandler c = some c') : Switch c c' ∧ c'.Owned := by
  unfold pendSvHandler at hs
  obtain ⟨cur, hcur, hs⟩ := Option.bind_eq_some_iff.mp hs
  have hrun : cur = c.running := Option.some.inj (hcur.symm.trans h.current)
  subst hrun
  obtain ⟨s₂, hsel, hs⟩ := Option.bind_eq_some_iff.mp hs
  obtain ⟨n, hn, hs⟩ := Option.bind_eq_some_iff.mp hs
  obtain rfl := Option.some.inj hsel
  obtain rfl := Option.some.inj hs
  have hsp : ∀ t, ((osSchedSelectNext (saveContext c.sys.kernel c.running c.psp)).tcb t).stackPtr
      = if t = c.running then stmdb c.psp else (c.sys.kernel.tcb t).stackPtr := by
    intro t
    rw [osSchedSelectNext_stackPtr, saveContext_stackPtr]
  have hstored := (hsp c.running).trans (if_pos rfl)
  have hothers : ∀ t, t ≠ c.running → _ := fun t ht => (hsp t).trans (if_neg ht)
  have hlive := osSchedSelectNext_liveTcbs (saveContext c.sys.kernel c.running c.psp)
  refine ⟨⟨hstored, hothers, rfl, hn, fun hl => ?_⟩, hn, Nat.mod_lt _ (by decide), fun t ht hne => ?_⟩
  · show pspOf _ = Function.update c.savedPsp c.running c.psp n
    by_cases hnr : n = c.running
    · subst hnr
      rw [Function.update_self]
      exact (congrArg pspOf hstored).trans (pspOf_stmdb h.psp)
    · rw [Function.update_of_ne hnr, h.saved n (hlive ▸ hl) hnr]
      exact congrArg pspOf (hothers n hnr)
  · show Function.update c.savedPsp c.running c.psp t = pspOf _
    by_cases htr : t = c.running
    · subst htr
      rw [Function.update_self]
      exact ((congrArg pspOf hstored).trans (pspOf_stmdb h.psp)).symm
    · rw [Function.update_of_ne htr, h.saved t (hlive ▸ ht) htr]
      exact congrArg pspOf (hothers t htr).symm

/-- One step. -/
theorem Owned.step {op : CpuOp} (h : c.Owned) (hop : OwnedStep c op) (hs : cpuStep c op = some c') :
    c'.Owned := by
  obtain ⟨ha, hkeep⟩ := hop
  cases op with
  | call op =>
      obtain ⟨s, hstep, rfl⟩ := Option.map_eq_some_iff.mp hs
      exact h.withSys (step_context ha.1 (Op.ne_selectNext ha.2) hstep)
  | exec psp =>
      obtain rfl := Option.some.inj hs
      exact ⟨h.current, Nat.mod_lt _ (by decide), h.saved⟩
  | yield =>
      obtain rfl := Option.some.inj hs
      exact h.withSys ⟨rfl, fun _ _ _ => rfl⟩
  | sysTick hooks timers =>
      obtain ⟨s, htick, rfl⟩ := Option.map_eq_some_iff.mp hs
      exact h.withSys (sysTickHandler_context htick hkeep)
  | pendSv =>
      rw [cpuStep] at hs
      split at hs
      · exact (h.pendSv hs).2
      · cases hs

/-- The CPU after `os_sched_start`. -/
theorem owned_osSchedStart (h : osSchedStart s = some c) : c.Owned := by
  unfold osSchedStart at h
  obtain ⟨s₁, -, h⟩ := Option.bind_eq_some_iff.mp h
  obtain ⟨t, ht, h⟩ := Option.bind_eq_some_iff.mp h
  obtain rfl := Option.some.inj h
  exact ⟨ht, Nat.mod_lt _ (by decide), fun _ _ _ => rfl⟩

end Cpu

/-! ## Whole runs -/

/-- **Context ownership.** In every state that the CPU reaches after `os_sched_start`, with any tasks,
if no selection made by a tick moves the current task: the current task is the one whose context is
executed, and a `PendSV_Handler` that starts there stores the stack pointer into that task's own
control block and into no other, and resumes the task it selects from the stack pointer this task had
when it was last switched out. -/
theorem context_owned {s₀ : Sys} {c₀ c : Cpu} {ops : List CpuOp} (h₀ : osSchedStart s₀ = some c₀)
    (hr : Run OwnedStep cpuStep c₀ ops c) :
    c.sys.kernel.current = some c.running ∧
      ∀ c', cpuStep c .pendSv = some c' → Cpu.Switch c c' := by
  have hinv : c.Owned :=
    hr.invariant Cpu.Owned (fun _ _ _ h hop hs => h.step hop hs) (Cpu.owned_osSchedStart h₀)
  refine ⟨hinv.current, fun c' hs => ?_⟩
  rw [cpuStep] at hs
  split at hs
  · exact (hinv.pendSv hs).1
  · cases hs

/-- The CPU after `os_sched_start` with a task `0x100` of priority 3 and a task `0x200` of
priority `p`. -/
def startTwo (p : Nat) : Option Cpu :=
  (exec Op.Allowed step Sys.boot [.create (taskAt 0x100 3), .create (taskAt 0x200 p)]).bind
    osSchedStart

/-- The urgent task is interrupted by a tick, waits for a notification, and gets it from the other
task. -/
def notifyOps : List CpuOp :=
  [.exec 0x1080, .sysTick [] [], .pendSv, .call (.notifyWait 5), .pendSv, .exec 0x1180,
    .call (.notify 0x100 7)]

/-- A notified task is switched in with its own stack pointer. -/
theorem context_owned_notifyOps :
    ∃ s₀ c₀ c c', osSchedStart s₀ = some c₀ ∧ Run OwnedStep cpuStep c₀ notifyOps c ∧
      c.running = 0x200 ∧ c.sys.kernel.current = some c.running ∧ cpuStep c .pendSv = some c' ∧
      Cpu.Switch c c' ∧ c'.running = 0x100 ∧ c'.psp = 0x1080 := by
  have hex : (startTwo 5).any (fun c₀ => (exec OwnedStep cpuStep c₀ notifyOps).any fun c =>
      (cpuStep c .pendSv).any fun c' =>
        decide (c.running = 0x200 ∧ c'.running = 0x100 ∧ c'.psp = 0x1080)) = true := by
    decide +kernel
  obtain ⟨c₀, h₀, hex⟩ := (Option.any_eq_true _ _).mp hex
  obtain ⟨c, hc, hex⟩ := (Option.any_eq_true _ _).mp hex
  obtain ⟨c', hc', hex⟩ := (Option.any_eq_true _ _).mp hex
  obtain ⟨hrun, hrun', hpsp⟩ := of_decide_eq_true hex
  obtain ⟨s₀, -, h₀⟩ := Option.bind_eq_some_iff.mp h₀
  have hr := run_of_exec hc
  obtain ⟨hcur, hsw⟩ := context_owned h₀ hr
  exact ⟨s₀, c₀, c, c', h₀, hr, hrun, hcur, hc', hsw c' hc', hrun', hpsp⟩

/-- **Counterexample.** Two tasks of one priority: a tick makes the second one current while the CPU
executes the first. The `PendSV_Handler` that the tick requested stores the first task's stack pointer
into the control block of the second, and the first task's own one keeps its old value. -/
theorem context_saved_elsewhere :
    ∃ c₀ c c', startTwo 3 = some c₀ ∧
      Run CpuAllowed cpuStep c₀ [.exec 0x1080, .sysTick [] []] c ∧ cpuStep c .pendSv = some c' ∧
      c.running = 0x100 ∧ c.sys.kernel.current = some 0x200 ∧
      (c'.sys.kernel.tcb 0x200).stackPtr = stmdb 0x1080 ∧
      (c'.sys.kernel.tcb 0x100).stackPtr ≠ stmdb 0x1080 := by
  have hex : (startTwo 3).any (fun c₀ =>
      (exec CpuAllowed cpuStep c₀ [.exec 0x1080, .sysTick [] []]).any fun c =>
        (cpuStep c .pendSv).any fun c' =>
          decide (c.running = 0x100 ∧ c.sys.kernel.current = some 0x200 ∧
            (c'.sys.kernel.tcb 0x200).stackPtr = stmdb 0x1080 ∧
            (c'.sys.kernel.tcb 0x100).stackPtr ≠ stmdb 0x1080)) = true := by
    decide +kernel
  obtain ⟨c₀, h₀, hex⟩ := (Option.any_eq_true _ _).mp hex
  obtain ⟨c, hc, hex⟩ := (Option.any_eq_true _ _).mp hex
  obtain ⟨c', hc', hex⟩ := (Option.any_eq_true _ _).mp hex
  exact ⟨c₀, c, c', h₀, run_of_exec hc, hc', of_decide_eq_true hex⟩

end MiniRTOS
