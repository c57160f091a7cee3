import Mathlib.Data.List.Range
import MiniRTOS.Kernel.State

/-! # Scheduler and task management

The functions of `scheduler.c` and `task.c`, and the pieces of `port.c` they call, over the
`Kernel` state and in the shipped configuration (interrupt nesting off, time slicing, statistics and
stack checks on).

A function that can loop for ever (a list walk over corrupted links) or that halts the system (a
failed assertion, a null current task) returns `none` there: walks carry a fuel of
`OS_CONFIG_MAX_TASKS` nodes, which is enough for every list without a repetition. -/

namespace MiniRTOS

open PtrList

/-! ## Critical sections and yielding (`scheduler.c`, `port.c`) -/

/-- `os_sched_enter_critical`, with `os_port_enter_critical` reading PRIMASK and masking interrupts. -/
def osSchedEnterCritical (k : Kernel) : Kernel :=
  { k with
    savedMask :=
      if k.criticalNesting < criticalNestingMax then
        Function.update k.savedMask k.criticalNesting k.primask
      else k.savedMask
    primask := 1
    criticalNesting := k.criticalNesting + 1 }

/-- `os_sched_exit_critical`: the exit that brings the nesting back to zero restores the mask saved
by the outermost enter; at nesting zero nothing happens. -/
def osSchedExitCritical (k : Kernel) : Kernel :=
  { k with
    criticalNesting := k.criticalNesting - 1
    primask := if k.criticalNesting = 1 then k.savedMask 0 else k.primask }

/-- `os_sched_yield`: with the scheduler running, note the request and let `os_port_yield` set the
PendSV pending bit. -/
def osSchedYield (k : Kernel) : Kernel :=
  { k with
    yieldPending := k.schedulerRunning || k.yieldPending
    pendSv := k.schedulerRunning || k.pendSv }

/-- `os_sched_request_switch_from_isr`. -/
def osSchedRequestSwitchFromIsr (k : Kernel) : Kernel := { k with yieldPending := true }

/-! ## Ready lists (`task.c`) -/

/-- `os_task_init_ready_list`, on top of whatever the other variables hold. -/
def osTaskInitReadyList (k : Kernel) : Kernel :=
  { k with
    readyList := fun _ => ⟨none, none, 0⟩
    readyBitmap := 0
    blockedList := none
    deferredDeleteList := none
    taskTable := []
    current := none }

/-- `os_task_add_to_ready`: append to the ready list of the task's priority. -/
def osTaskAddToReady (k : Kernel) (t : TaskId) : Kernel :=
  let prio := k.prio t
  let rl := k.readyList prio
  { k with
    tcb := Function.update k.tcb t { k.tcb t with state := .ready }
    links := k.links.splice t rl.tail none
    readyList := Function.update k.readyList prio
      { head := if rl.tail.isSome then rl.head else some t, tail := some t, count := rl.count + 1 }
    -- the source tests `tail`: only the first task of a list sets the bit
    readyBitmap :=
      if rl.tail.isSome then k.readyBitmap else k.readyBitmap ||| BitVec.twoPow 32 prio }

/-- `os_task_remove_from_ready`: unlink from the ready list of the task's priority. -/
def osTaskRemoveFromReady (k : Kernel) (t : TaskId) : Kernel :=
  let prio := k.prio t
  let rl := k.readyList prio
  let head := if (k.links.prev t).isSome then rl.head else k.links.next t
  let tail := if (k.links.next t).isSome then rl.tail else k.links.prev t
  { k with
    -- `state` is left as it is; the caller writes it
    links := k.links.unlink t
    readyList := Function.update k.readyList prio
      { head := head, tail := tail, count := rl.count - 1 }
    readyBitmap :=
      if head.isSome then k.readyBitmap else k.readyBitmap &&& ~~~BitVec.twoPow 32 prio }

/-- `__builtin_ctz`: the lowest set bit. -/
def builtinCtz (b : BitVec 32) : Option Nat := (List.range 32).find? fun i => b.getLsbD i

/-- `os_task_find_highest_ready`. A lowest bit past the priorities would fail the assertion. -/
def osTaskFindHighestReady (k : Kernel) : Option TaskId :=
  match builtinCtz k.readyBitmap with
  | none => none
  | some p => if h : p < numPriorities then (k.readyList ⟨p, h⟩).head else none

/-! ## Context selection (`scheduler.c`) -/

/-- The control blocks after the outgoing task is charged: a current task that is still RUNNING goes
back to READY. -/
def chargeCurrent (k : Kernel) : TaskId → Tcb :=
  match k.current with
  | none => k.tcb
  | some c =>
      if (k.tcb c).state = .running then
        Function.update k.tcb c
          { k.tcb c with
            -- unsigned difference of two tick counts, which may have wrapped
            runTimeTicks :=
              ((k.tcb c).runTimeTicks + (k.systemTick + 2 ^ 32 - k.lastSwitchTick)) % 2 ^ 32
            state := .ready }
      else k.tcb

/-- The last part of `os_sched_select_next`: charge the outgoing task, mark the incoming one
RUNNING and make it current. -/
def switchTo (k : Kernel) (next : TaskId) : Kernel :=
  { k with
    tcb := Function.update (chargeCurrent k) next { chargeCurrent k next with state := .running }
    lastSwitchTick := k.systemTick
    current := some next }

/-- `os_sched_select_next` with time slicing: a current task that heads the highest ready list
first goes to that list's tail. -/
def osSchedSelectNext (k : Kernel) : Kernel :=
  match osTaskFindHighestReady k with
  | none => k
  | some next =>
      if k.current = some next then
        -- re-queueing sets READY, so `switchTo` no longer finds the task RUNNING
        let k₁ := osTaskAddToReady (osTaskRemoveFromReady k next) next
        match osTaskFindHighestReady k₁ with
        | none => k₁
        | some next₁ => switchTo k₁ next₁
      else switchTo k next

/-! ## Stacks (`task.c`, `port.c`) -/

/-- `prv_fill_stack`: the high-water pattern in every word, then the canary in the lowest one. -/
def prvFillStack (mem : Addr → BitVec 32) (base : Addr) (size : Nat) : Addr → BitVec 32 :=
  Function.update
    ((List.range (size / 4)).foldl (fun m i => Function.update m (base + 4 * i) stackFillValue) mem)
    base stackCanaryValue

/-- `prv_calc_high_water`: bytes above the untouched low words. -/
def prvCalcHighWater (mem : Addr → BitVec 32) (base : Addr) (size : Nat) : Nat :=
  let unused :=
    ((List.range (size / 4)).takeWhile fun i => mem (base + 4 * i) = stackFillValue).length
  size - unused * 4

/-- Push words on a full-descending stack, first word first. -/
def pushWords (mem : Addr → BitVec 32) : Addr → List (BitVec 32) → Addr × (Addr → BitVec 32)
  | sp, [] => (sp, mem)
  | sp, w :: ws =>
      let sp' := (sp + 2 ^ 32 - 4) % 2 ^ 32
      pushWords (Function.update mem sp' w) sp' ws

/-- The sixteen words of the initial frame, in push order: xPSR, PC, LR, R12, R3..R0, R11..R4. -/
def initialFrame (func param : BitVec 32) : List (BitVec 32) :=
  [0x01000000, func, 0xFFFFFFFE, 0x12121212, 0x03030303, 0x02020202, 0x01010101, param,
    0x11111111, 0x10101010, 0x09090909, 0x08080808, 0x07070707, 0x06060606, 0x05050505, 0x04040404]

/-- `os_port_stack_init` of `port.c` (32-bit addresses): the top is rounded up to a multiple of 8. -/
def osPortStackInit (mem : Addr → BitVec 32) (func param : BitVec 32) (base : Addr) (size : Nat) :
    Addr × (Addr → BitVec 32) :=
  pushWords mem ((base + size + 7) % 2 ^ 32 / 8 * 8) (initialFrame func param)

/-! ## The heap as seen from the kernel

`os_heap_alloc` either fails or hands out a block that is not in use; which one is an input of the
functions below. The allocator itself is modelled in `Heap`. -/

/-- `os_heap_free` of a stack. -/
def freeStack (k : Kernel) (a : Addr) : Kernel := { k with freed := k.freed ++ [a] }

/-- `os_heap_free` of a control block. -/
def freeTcb (k : Kernel) (t : TaskId) : Kernel :=
  { k with freed := k.freed ++ [t], liveTcbs := k.liveTcbs.erase t }

/-! ## Creating tasks -/

/-- The arguments of `os_task_create`, together with what its two heap requests return. -/
structure CreateArgs where
  /-- Entry function. -/
  func : Option (BitVec 32)
  /-- Its parameter. -/
  param : BitVec 32
  /-- Requested priority. -/
  priority : Nat
  /-- Caller-supplied stack, or null. -/
  stackBuf : Option Addr
  /-- Stack size in bytes. -/
  stackSize : Nat
  /-- Whether the caller wants the handle. -/
  wantHandle : Bool
  /-- The heap's answer to the request for a stack. -/
  stackBlock : Option Addr
  /-- The heap's answer to the request for a control block. -/
  tcbBlock : Option Addr

/-- The control block `os_task_create` fills in. -/
def newTcb (stack : Addr) (size : Nat) (prio : Prio) (sp : Addr) : Tcb where
  stackPtr := sp
  stackBase := stack
  stackSize := size
  priority := prio
  state := .ready
  delayTicks := 0
  pendingDelete := false
  stackHighWater := 0
  blockedOn := none
  blockedReason := .none
  timedOut := false
  eventWaitBits := 0
  eventWaitOptions := 0
  eventReturnBits := 0
  notifyValue := 0
  notifyPending := false
  runTimeTicks := 0

/-- The part of `os_task_create` after both allocations: prepare stack and control block, enter the
task in the table and in its ready list. -/
def initTask (k : Kernel) (func param : BitVec 32) (prio : Prio) (stack : Addr) (size : Nat)
    (t : TaskId) : Kernel :=
  let (sp, mem) := osPortStackInit (prvFillStack k.stackMem stack size) func param stack size
  let k₁ := { k with
    stackMem := mem
    tcb := Function.update k.tcb t (newTcb stack size prio sp)
    links := (k.links.setNext t none).setPrev t none
    liveTcbs := k.liveTcbs ++ [t]
    -- `task_table[task_count++]`, which no deletion undoes
    taskTable := k.taskTable ++ [t] }
  osTaskAddToReady k₁ t

/-- `os_task_create`: the status, the handle stored through `handle`, and the new state. -/
def osTaskCreate (k : Kernel) (a : CreateArgs) : Status × Option TaskId × Kernel :=
  match a.func with
  | none => (.errParam, none, k)
  | some func =>
    if hp : a.priority < numPriorities then
      if k.taskTable.length ≥ maxTasks then (.errFull, none, k)
      else if a.stackSize < 128 then (.errParam, none, k)
      else
        -- a caller-supplied stack needs no heap block
        match a.stackBuf.or a.stackBlock with
        | none => (.errNoMem, none, k)
        | some stack =>
          match a.tcbBlock with
          | none => (.errNoMem, none, if a.stackBuf.isSome then k else freeStack k stack)
          | some t =>
              (.ok, if a.wantHandle then some t else none,
                initTask k func a.param ⟨a.priority, hp⟩ stack a.stackSize t)
    else (.errParam, none, k)

/-- **What `os_task_create` can do**: it sets up the task, or it refuses and at most gives the stack
back. -/
theorem osTaskCreate_cases (k : Kernel) (a : CreateArgs) :
    (∃ func prio stack t, a.func = some func ∧ prio.val = a.priority ∧ k.taskTable.length < maxTasks ∧
        128 ≤ a.stackSize ∧ a.stackBuf.or a.stackBlock = some stack ∧ a.tcbBlock = some t ∧
        osTaskCreate k a = (.ok, if a.wantHandle then some t else none,
          initTask k func a.param prio stack a.stackSize t)) ∨
      ∃ r k', r ≠ .ok ∧ (r = .errFull → maxTasks ≤ k.taskTable.length) ∧
        (k' = k ∨ ∃ stack, a.stackBuf = none ∧ k' = freeStack k stack) ∧
        osTaskCreate k a = (r, none, k') := by
  unfold osTaskCreate
  rcases hf : a.func with _ | func
  · exact Or.inr ⟨_, _, by simp, by simp, Or.inl rfl, rfl⟩
  by_cases hp : a.priority < numPriorities
  · simp only [dif_pos hp]
    by_cases hfull : k.taskTable.length ≥ maxTasks
    · exact Or.inr ⟨_, _, by simp, fun _ => hfull, Or.inl rfl, if_pos hfull⟩
    rw [if_neg hfull]
    by_cases hsize : a.stackSize < 128
    · exact Or.inr ⟨_, _, by simp, by simp, Or.inl rfl, if_pos hsize⟩
    rw [if_neg hsize]
    rcases hstack : a.stackBuf.or a.stackBlock with _ | stack
    · exact Or.inr ⟨_, _, by simp, by simp, Or.inl rfl, rfl⟩
    rcases htcb : a.tcbBlock with _ | t
    · refine Or.inr ⟨_, _, by simp, by simp, ?_, rfl⟩
      cases hbuf : a.stackBuf with
      | none => exact Or.inr ⟨stack, rfl, rfl⟩
      | some _ => exact Or.inl rfl
    · exact Or.inl ⟨func, ⟨a.priority, hp⟩, stack, t, rfl, rfl, Nat.lt_of_not_le hfull,
        Nat.le_of_not_lt hsize, rfl, rfl, rfl⟩
  · exact Or.inr ⟨_, _, by simp, by simp, Or.inl rfl, dif_neg hp⟩

/-- The handle that a creation stores is the new task. -/
theorem CreateArgs.handle_eq {a : CreateArgs} {t x : TaskId}
    (hx : (if a.wantHandle then some t else none) = some x) : x = t := by
  split at hx
  · exact (Option.some.inj hx).symm
  · cases hx

/-! ## Suspending, delaying, deleting -/

/-- `os_task_suspend` of a non-null handle. -/
def osTaskSuspend (k : Kernel) (t : TaskId) : Kernel :=
  let k₁ := osSchedEnterCritical k
  let k₂ :=
    if (k₁.tcb t).state = .ready ∨ (k₁.tcb t).state = .running then
      let k' := osTaskRemoveFromReady k₁ t
      k'.setTcb t { k'.tcb t with state := .suspended }
    -- a BLOCKED task stays where it is
    else k₁
  let k₃ := osSchedExitCritical k₂
  -- the yield comes after the critical section, also when nothing was done
  if k₃.current = some t then osSchedYield k₃ else k₃

/-- `os_task_create_suspended`. -/
def osTaskCreateSuspended (k : Kernel) (a : CreateArgs) : Status × Option TaskId × Kernel :=
  match osTaskCreate k a with
  | (.ok, some t, k₁) => (.ok, some t, osTaskSuspend k₁ t)
  | r => r

/-- `os_task_resume` of a non-null handle. -/
def osTaskResume (k : Kernel) (t : TaskId) : Kernel :=
  let k₁ := osSchedEnterCritical k
  let k₂ := if (k₁.tcb t).state = .suspended then osTaskAddToReady k₁ t else k₁
  osSchedExitCritical k₂

/-- `os_task_add_to_blocked`: push on the front of `blocked_list`. -/
def osTaskAddToBlocked (k : Kernel) (t : TaskId) (timeout : Nat) : Kernel :=
  let k₁ := osTaskRemoveFromReady k t
  let k₂ := k₁.setTcb t { k₁.tcb t with state := .blocked, delayTicks := timeout }
  { k₂ with
    -- `prev` of the pushed task is left as the unlinking wrote it
    links := (k₂.links.setNext t k₂.blockedList).setPrev? k₂.blockedList (some t)
    blockedList := some t }

/-- `os_task_remove_from_blocked`. -/
def osTaskRemoveFromBlocked (k : Kernel) (t : TaskId) : Kernel :=
  { k with
    blockedList := if (k.links.prev t).isSome then k.blockedList else k.links.next t
    links := k.links.unlink t }

/-- `os_task_delay`, up to its `os_sched_yield`; `none` for a null current task. -/
def osTaskDelay (k : Kernel) (ticks : Nat) : Option Kernel :=
  if ticks = 0 then some (osSchedYield k)
  else do
    let c ← k.current
    some (osSchedYield (osSchedExitCritical (osTaskAddToBlocked (osSchedEnterCritical k) c ticks)))

/-- `os_task_delay_until`: the new `*previous_wake_tick` and the state. -/
def osTaskDelayUntil (k : Kernel) (previousWakeTick periodTicks : Nat) :
    Option (Status × Nat × Kernel) :=
  if periodTicks = 0 ∨ periodTicks > 2 ^ 31 - 1 then some (.errParam, previousWakeTick, k)
  else
    let nextWakeTick := (previousWakeTick + periodTicks) % 2 ^ 32
    let ticksToDelay := (nextWakeTick + 2 ^ 32 - k.systemTick) % 2 ^ 32
    -- `(int32_t)ticks_to_delay > 0`
    if 0 < ticksToDelay ∧ ticksToDelay < 2 ^ 31 then do
      let k' ← osTaskDelay k ticksToDelay
      some (.ok, nextWakeTick, k')
    else some (.ok, nextWakeTick, k)

/-- `os_task_set_priority` of a non-null handle. Only a READY task is moved between ready lists. -/
def osTaskSetPriority (k : Kernel) (t : TaskId) (newPrio : Prio) : Kernel :=
  let k₁ := osSchedEnterCritical k
  let k₂ :=
    if (k₁.tcb t).state = .ready then
      let k' := osTaskRemoveFromReady k₁ t
      osTaskAddToReady (k'.setTcb t { k'.tcb t with priority := newPrio }) t
    else k₁.setTcb t { k₁.tcb t with priority := newPrio }
  osSchedExitCritical k₂

/-- `os_task_delete(NULL)`, up to its `os_sched_yield`; `none` for a null current task. -/
def osTaskDeleteSelf (k : Kernel) : Option Kernel := do
  let c ← k.current
  let k₁ := osTaskRemoveFromReady (osSchedEnterCritical k) c
  let k₂ := k₁.setTcb c { k₁.tcb c with state := .deleted, pendingDelete := true }
  -- the list is singly linked: `prev` is not written
  let k₃ := { k₂ with
    links := k₂.links.setNext c k₂.deferredDeleteList
    deferredDeleteList := some c }
  some (osSchedYield (osSchedExitCritical k₃))

/-- `os_task_delete` of a task that is not the current one: a READY task leaves its ready list, and
stack and control block are freed at once. -/
def osTaskDeleteOther (k : Kernel) (t : TaskId) : Kernel :=
  let k₁ := osSchedEnterCritical k
  -- a BLOCKED task is not taken out of the list it waits in
  let k₂ := if (k₁.tcb t).state = .ready then osTaskRemoveFromReady k₁ t else k₁
  let k₃ := k₂.setTcb t { k₂.tcb t with state := .deleted }
  -- every stack but that of the idle task is taken to come from the heap
  let k₄ := if (k₃.tcb t).stackBase ≠ idleTaskStack then freeStack k₃ (k₃.tcb t).stackBase else k₃
  osSchedExitCritical (freeTcb k₄ t)

/-- `os_task_delete`: a null handle, like the handle of the current task, means self-deletion. -/
def osTaskDelete (k : Kernel) (handle : Option TaskId) : Option (Status × Kernel) :=
  match handle with
  | none => if k.current = none then some (.errParam, k) else (osTaskDeleteSelf k).map fun k => (.ok, k)
  | some t =>
      if k.current = some t then (osTaskDeleteSelf k).map fun k => (.ok, k)
      else some (.ok, osTaskDeleteOther k t)

/-! ## The tick handler -/

/-- The body of the `os_task_tick` walk for one task of `blocked_list`. -/
def tickTask (k : Kernel) (t : TaskId) : Kernel :=
  if (k.tcb t).delayTicks > 0 then
    let k₁ := k.setTcb t { k.tcb t with delayTicks := (k.tcb t).delayTicks - 1 }
    if (k₁.tcb t).delayTicks = 0 then
      let k₂ := osTaskRemoveFromBlocked k₁ t
      let k₃ :=
        -- a wait that timed out; a plain delay has no object
        if (k₂.tcb t).blockedOn.isSome then
          k₂.setTcb t { k₂.tcb t with timedOut := true, blockedOn := none, blockedReason := .none }
        else k₂
      osTaskAddToReady k₃ t
    else k₁
  else k

/-- The walk of `os_task_tick` over `blocked_list`: the next pointer is read before the node is
processed. -/
def tickWalk : Nat → Kernel → Option TaskId → Option Kernel
  | _, k, none => some k
  | 0, _, some _ => none
  | fuel + 1, k, some t => tickWalk fuel (tickTask k t) (k.links.next t)

/-- The stack high-water update of `os_task_tick`. -/
def updateHighWater (k : Kernel) : Kernel :=
  match k.current with
  | none => k
  | some c =>
      let used := prvCalcHighWater k.stackMem (k.tcb c).stackBase (k.tcb c).stackSize
      if used > (k.tcb c).stackHighWater then
        k.setTcb c { k.tcb c with stackHighWater := used }
      else k

/-- `os_task_check_stack_overflow`: a damaged canary halts the system. -/
def osTaskCheckStackOverflow (k : Kernel) : Option Kernel :=
  match k.current with
  | none => some k
  | some c => if k.stackMem (k.tcb c).stackBase = stackCanaryValue then some k else none

/-- The loop of `os_task_process_deferred_delete`: free stack and control block of each task. -/
def freeDeferred : Nat → Kernel → Option TaskId → Option Kernel
  | _, k, none => some k
  | 0, _, some _ => none
  | fuel + 1, k, some t =>
      -- read before the control block is freed
      let next := k.links.next t
      let k₁ :=
        if (k.tcb t).stackBase ≠ idleTaskStack then freeStack k (k.tcb t).stackBase else k
      freeDeferred fuel (freeTcb k₁ t) next

/-- `os_task_process_deferred_delete`. -/
def osTaskProcessDeferredDelete (k : Kernel) : Option Kernel :=
  let k₁ := osSchedEnterCritical k
  let k₂ := osSchedExitCritical { k₁ with deferredDeleteList := none }
  -- the detached list is freed outside the critical section
  freeDeferred maxTasks k₂ k₁.deferredDeleteList

/-- `os_task_tick`. -/
def osTaskTick (k : Kernel) : Option Kernel := do
  let k₁ ← tickWalk maxTasks k k.blockedList
  let k₂ ← osTaskCheckStackOverflow (updateHighWater k₁)
  osTaskProcessDeferredDelete k₂

end MiniRTOS
