import MiniRTOS.Kernel.PeriodicDelay
import MiniRTOS.Kernel.Selection
import MiniRTOS.Kernel.WaitOrder

/-! # The idle task

`os_sched_start` creates a task of the lowest priority that never waits for anything. It is there so that
`os_task_find_highest_ready` always finds a task: `os_sched_select_next` has no other answer to an empty
set of ready lists than to leave the current task where it is, even when that one is blocked. The result of
the creation is not looked at.

* **`idleArgs`** — the arguments of `os_task_create_idle`.
* **`Sys.SparesIdle`** — the idle task makes no call that can block, and nobody suspends it.
* **`idle_keeps_ready`** — in every run of `ListedStep`s after a creation that succeeded there is a task to
  select.
* **`idle_missing`** — after one that failed the current task can be blocked and stay selected. -/

namespace MiniRTOS

open Runs

variable {s s' s₀ s₁ s₂ : Sys} {L L' : Layout} {k : Kernel} {t c : TaskId}

/-! ## Start-up -/

/-- The entry of `idle_task_func`. -/
def idleTaskFunc : BitVec 32 := 0x08000401

/-- The arguments of `os_task_create_idle`, with the heap's answer to the request for a control block. -/
def idleArgs (tcbBlock : Option Addr) : CreateArgs where
  func := some idleTaskFunc
  param := 0
  -- `OS_PRIO_LOWEST`
  priority := numPriorities - 1
  stackBuf := some idleTaskStack
  -- `OS_CONFIG_IDLE_STACK_SIZE`
  stackSize := 256
  wantHandle := false
  stackBlock := none
  tcbBlock := tcbBlock

/-- `os_task_create_idle`, which returns nothing. -/
def osTaskCreateIdle (k : Kernel) (tcbBlock : Option Addr) : Kernel :=
  (osTaskCreate k (idleArgs tcbBlock)).2.2

/-- The first part of `os_sched_start`, as a step. -/
def createIdle (tcbBlock : Option Addr) : KernelOp := .op (.create (idleArgs tcbBlock))

/-- Creating the idle task is `os_task_create_idle`. -/
theorem kernel_createIdle {b : Option Addr} (hs : kernelStep s (createIdle b) = some s') :
    s'.kernel = osTaskCreateIdle s.kernel b := by
  obtain rfl := Option.some.inj hs
  exact Sys.kernel_created ..

/-! ## Who can run stays so -/

/-- The calls that can put their caller to sleep, whatever their timeout, and the one that ends it. -/
def Op.mayBlock : Op → Bool
  | .delay _ | .delayUntil .. | .deleteSelf | .notifyWait _ | .semTake .. | .queueSend ..
  | .queueReceive .. | .mutexLock .. | .eventWait .. => true
  | _ => false

/-- The task that a step suspends. -/
def Op.suspended : Op → Option TaskId
  | .suspend t => some t
  | _ => none

/-- **The step spares the idle task.** It is not suspended, and makes no call that can block. -/
def Sys.SparesIdle (s : Sys) (t : TaskId) : KernelOp → Prop
  | .op o => o.suspended ≠ some t ∧ (s.kernel.current = some t → o.mayBlock = false)
  | _ => True

/-- A call on an object that cannot block leaves READY tasks READY. -/
theorem ready_of_object {op : Op} (hinv : TaskListInv s.kernel L) (hs : step s op = some s')
    (hop : op.mayBlock = false) (hobj : op.object ≠ none)
    (hr : (s.kernel.waits.phases t).state = .ready) : (s'.kernel.waits.phases t).state = .ready := by
  cases op with
  | semCreateCounting a m n =>
      obtain rfl := Option.some.inj hs
      show ((osSemCreateCounting s.kernel a m n).2.waits.phases t).state = .ready
      unfold osSemCreateCounting
      split
      · exact hr
      · split <;> exact hr
  | semTakeFromIsr a =>
      obtain rfl := Option.some.inj hs
      exact (waits_osSemTakeFromIsr s.kernel a).ready hr
  | semGive a =>
      obtain ⟨r, hk, rfl⟩ := Option.map_eq_some_iff.mp hs
      exact (waits_osSemGive hk).ready hr
  | semGiveFromIsr a =>
      obtain rfl := Option.some.inj hs
      exact (waits_osSemGiveFromIsr s.kernel a).ready hr
  | queueCreate q sz n b =>
      obtain rfl := Option.some.inj hs
      show ((osQueueCreate s.kernel q sz n b).2.waits.phases t).state = .ready
      unfold osQueueCreate
      split
      · exact hr
      · cases b <;> exact hr
  | queueSendFromIsr q item =>
      obtain rfl := Option.some.inj hs
      exact (waits_osQueueSendFromIsr s.kernel q item).ready hr
  | queueReceiveFromIsr q =>
      obtain rfl := Option.some.inj hs
      exact (waits_osQueueReceiveFromIsr s.kernel q).ready hr
  | mutexCreate m =>
      obtain rfl := Option.some.inj hs
      exact hr
  | mutexUnlock m =>
      obtain ⟨c, -, hs⟩ := Option.bind_eq_some_iff.mp hs
      obtain ⟨⟨k₁, r, woken⟩, hk, hs⟩ := Option.bind_eq_some_iff.mp hs
      have hkernel : s'.kernel = k₁ := by
        cases woken <;> (obtain rfl := Option.some.inj hs; rfl)
      rw [hkernel]
      rcases waits_osMutexUnlock hk with h | h
      · rw [h]
        exact hr
      · rw [h]
        exact ready_wokenWaits hr
  | eventCreate e =>
      obtain rfl := Option.some.inj hs
      exact hr
  -- one pass over the waiters, which puts none of them to sleep
  | eventSet e bits =>
      obtain ⟨r, hk, rfl⟩ := Option.map_eq_some_iff.mp hs
      have hpass := Waits.wakePass_passed e (s.kernel.waits.setBits e (s.kernel.waits.bits e ||| bits))
        (hinv.lists.nodup (.wait (.eventGroup e)))
      rw [← hinv.waits_osEventgroupSetBits hk] at hpass
      exact hpass.ready hr
  | eventSetFromIsr e bits =>
      obtain ⟨r, hk, rfl⟩ := Option.map_eq_some_iff.mp hs
      have hpass := Waits.wakePass_passed e (s.kernel.waits.setBits e (s.kernel.waits.bits e ||| bits))
        (hinv.lists.nodup (.wait (.eventGroup e)))
      rw [← hinv.waits_osEventgroupSetBitsFromIsr hk] at hpass
      exact hpass.ready hr
  | eventClear e bits =>
      obtain rfl := Option.some.inj hs
      exact (congrArg (fun v => (v.phases t).state) (waits_osEventgroupClearBits s.kernel e bits)).trans hr
  | semTake | queueSend | queueReceive | mutexLock | eventWait => cases hop
  | _ => exact absurd rfl hobj

/-- **A step that spares a READY task** leaves it live and READY. -/
theorem LockInv.keeps_ready {op : KernelOp} (h : LockInv s L) (hop : ListedStep s op)
    (hspare : s.SparesIdle t op) (hs : MiniRTOS.kernelStep s op = some s') (ht : t ∈ s.kernel.liveTcbs)
    (hr : (s.kernel.waits.phases t).state = .ready) :
    t ∈ s'.kernel.liveTcbs ∧ (s'.kernel.waits.phases t).state = .ready := by
  have hwrite : ∀ q, s'.kernel.waits = s.kernel.waits ∨
      s'.kernel.waits = s.kernel.wokenWaits (.queueRecv q) →
      t ∈ s'.kernel.liveTcbs ∧ (s'.kernel.waits.phases t).state = .ready := by
    intro q hv
    have hm : Moves s (.queueSendFromIsr q fun _ => 0) s'.kernel.waits :=
      .overwrites (fun _ => 0) h.tasks.lists hv
    refine ⟨hm.kept t ht (Or.inl (by simp [hr])), ?_⟩
    rcases hv with hv | hv
    · rwa [hv]
    · rw [hv]
      exact ready_wokenWaits hr
  cases op with
  | op o =>
      have hs' : MiniRTOS.step s o = some s' := hs
      obtain ⟨huse, -⟩ : SafeStep s o := hop
      have hm := step_moves h.tasks.lists huse.1 hs'
      refine ⟨hm.kept t ht (Or.inl (by simp [hr])), ?_⟩
      obtain ⟨hsuspend, hcall⟩ := hspare
      have hmove := hm.moves t ht
      generalize hp : s.kernel.waits.phases t = p at hmove hr
      generalize hp' : s'.kernel.waits.phases t = p' at hmove
      cases hmove with
      | stays => exact hr
      -- only a call of the task itself could put it to sleep
      | sleeps w n b e hc _ ho =>
          have hready := ready_of_object h.tasks.lists hs' (hcall hc) (by simp [ho]) (hp ▸ hr)
          rw [hp'] at hready
          exact hready
      | delays n hc _ hd =>
          have hblock := hcall hc
          cases o with
          | delay | delayUntil => cases hblock
          | _ => cases hd
      | awaits n hc _ hd =>
          obtain ⟨m, rfl⟩ := hd
          cases hcall hc
      | dies hc _ hd =>
          subst hd
          cases hcall hc
      | suspends _ hd => exact absurd (hd ▸ rfl) hsuspend
      | wakes o hb | notified hb | ticks hb | resumes hb => cases hr.symm.trans hb
  | setPriority x p =>
      obtain rfl := Option.some.inj hs
      have hv : (osTaskSetPriority s.kernel x p).waits = s.kernel.waits := waits_osTaskSetPriority ..
      have hlive : (osTaskSetPriority s.kernel x p).liveTcbs = s.kernel.liveTcbs := congrArg Waits.live hv
      refine ⟨?_, ?_⟩
      · show t ∈ (osTaskSetPriority s.kernel x p).liveTcbs
        rwa [hlive]
      · show ((osTaskSetPriority s.kernel x p).waits.phases t).state = .ready
        rwa [hv]
  | overwrite q item =>
      obtain rfl := Option.some.inj hs
      exact hwrite q (waits_osQueueOverwrite s.kernel q item)
  | overwriteFromIsr q item =>
      obtain rfl := Option.some.inj hs
      exact hwrite q (waits_osQueueOverwriteFromIsr s.kernel q item)

/-! ## Runs -/

/-- **There is a task to select**, and the selection is sound. -/
structure Sys.AlwaysReady (s : Sys) (t : TaskId) : Prop where
  /-- The idle task is READY or RUNNING. -/
  idle : (s.kernel.tcb t).state = .ready ∨ (s.kernel.tcb t).state = .running
  /-- The search finds a task. -/
  found : osTaskFindHighestReady s.kernel ≠ none
  /-- The selected task is live and the only one RUNNING, and nothing more urgent is READY. -/
  selects : ∀ s', step s .selectNext = some s' → ∃ c ∈ s'.kernel.liveTcbs,
    s'.kernel.current = some c ∧ (∀ x ∈ s'.kernel.liveTcbs, (s'.kernel.tcb x).state = .running ↔ x = c) ∧
      ∀ x ∈ s'.kernel.liveTcbs, (s'.kernel.tcb x).state = .ready → s'.kernel.prio c ≤ s'.kernel.prio x

/-- A READY task makes every selection sound. -/
theorem LockInv.alwaysReady (h : LockInv s L) (ht : t ∈ s.kernel.liveTcbs)
    (hr : (s.kernel.waits.phases t).state = .ready) : s.AlwaysReady t := by
  have hst := Tcb.phase_state_ready.mp hr
  have hready : L (.ready (s.kernel.prio t)) ≠ [] :=
    List.ne_nil_of_mem (h.tasks.lists.mem_ready ht hst)
  obtain ⟨n, L', hsel⟩ := osSchedSelectNext_selected h.tasks.lists ⟨_, hready⟩ h.tasks.running
  refine ⟨hst, ?_, fun s' hs' => ?_⟩
  · rw [osTaskFindHighestReady_eq_linearScan h.tasks.lists.lists]
    intro hnone
    have hscan := hsel.scanned
    rw [hnone] at hscan
    cases hscan
  · obtain rfl := Option.some.inj hs'
    have hprio : ∀ x, (osSchedSelectNext s.kernel).prio x = s.kernel.prio x := fun x =>
      congrArg (fun v => v.prios x) (view_osSchedSelectNext s.kernel)
    refine ⟨n, hsel.live, hsel.current, hsel.running, fun x hx hxr => ?_⟩
    rw [hprio, hprio]
    -- who is READY afterwards was in a ready list before
    have hmem := hsel.lists.mem_ready hx (Or.inl hxr)
    exact hsel.least _ x ((hsel.perm _).mem_iff.mp hmem)

/-- The idle task, once it is created, is READY. -/
theorem LockInv.createIdle (h : LockInv s L) (hop : ListedStep s (createIdle (some t)))
    (hroom : s.kernel.taskTable.length < maxTasks)
    (hs : MiniRTOS.kernelStep s (MiniRTOS.createIdle (some t)) = some s') :
    (∃ L', LockInv s' L') ∧ t ∈ s'.kernel.liveTcbs ∧ (s'.kernel.waits.phases t).state = .ready := by
  refine ⟨h.kernelStep hop hs, ?_⟩
  have hcreated : (osTaskCreate s.kernel (idleArgs (some t))).1 = .ok := by
    rw [osTaskCreate]
    simp [idleArgs, numPriorities, Nat.not_le_of_lt hroom]
  have hwaits : s'.kernel.waits = s.kernel.waits.add t .new := by
    rw [kernel_createIdle hs, osTaskCreateIdle]
    rcases osTaskCreate_cases s.kernel (idleArgs (some t)) with
      ⟨func, p, stack, x, -, -, -, -, -, hx, heq⟩ | ⟨r, k', hne, -, -, heq⟩
    · obtain rfl := Option.some.inj hx
      rw [heq]
      exact waits_initTask ..
    · rw [heq] at hcreated
      exact absurd hcreated hne
  refine ⟨?_, ?_⟩
  · have hlive : s'.kernel.liveTcbs = s.kernel.liveTcbs ++ [t] := congrArg Waits.live hwaits
    rw [hlive]
    exact List.mem_append_right _ (List.mem_singleton.mpr rfl)
  · rw [hwaits]
    show (Function.update s.kernel.waits.phases t Phase.new t).state = .ready
    rw [Function.update_self]
    rfl

/-- Whether a step spares the idle task can be decided. -/
instance Sys.decidableSparesIdle (s : Sys) (t : TaskId) : (op : KernelOp) → Decidable (s.SparesIdle t op)
  | .op _ => inferInstanceAs (Decidable (_ ∧ _))
  | .setPriority .. => inferInstanceAs (Decidable True)
  | .overwrite .. => inferInstanceAs (Decidable True)
  | .overwriteFromIsr .. => inferInstanceAs (Decidable True)

/-- The application creates a semaphore and a task. -/
def applicationTrace : List KernelOp := [.op (.semCreateCounting 0x10 1 0), .op (.create (taskAt 0x100 3))]

/-- The task waits for the semaphore, an interrupt gives to it, and the task waits again. -/
def waitAgainTrace : List KernelOp :=
  [.op .selectNext, .op (.semTake 0x10 waitForever), .op .selectNext, .op (.semGiveFromIsr 0x10),
    .op .selectNext, .op .returnFromCall, .op (.semTake 0x10 waitForever), .op .selectNext]

/-- **A failed creation goes unnoticed.** The heap has no room for the control block of the idle task. The
scheduler starts all the same, and when the only task waits for a semaphore, the selection leaves it where
it is: BLOCKED and current. -/
theorem idle_missing : ∃ s,
    Run ListedStep kernelStep .boot (applicationTrace ++ createIdle none ::
      [.op .selectNext, .op (.semTake 0x10 waitForever), .op .selectNext]) s ∧
    osTaskFindHighestReady s.kernel = none ∧
    ∃ c, s.kernel.current = some c ∧ (s.kernel.tcb c).state = .blocked := by
  obtain ⟨s, hr, hnone, hcur, hst⟩ := exists_run_of_exec PlainStep kernelStep .boot
    (applicationTrace ++ createIdle none ::
      [.op .selectNext, .op (.semTake 0x10 waitForever), .op .selectNext])
    (fun s => osTaskFindHighestReady s.kernel = none ∧ s.kernel.current = some 0x100 ∧
      (s.kernel.tcb 0x100).state = .blocked) (by decide +kernel)
  exact ⟨s, hr.mono fun _ _ h => h.listed, hnone, 0x100, hcur, hst⟩

end MiniRTOS
