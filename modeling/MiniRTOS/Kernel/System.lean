import MiniRTOS.Lib.Runs
import MiniRTOS.Kernel.SchedCalls
import MiniRTOS.Kernel.Queue
import MiniRTOS.Kernel.Semaphore
import MiniRTOS.Kernel.Mutex
import MiniRTOS.Kernel.EventGroup

/-! # The running system

The kernel together with the tasks that call it. A task that blocks inside a call stays in that call
until it is current again and the call returns; `Sys.call` records where each task is. An `Op` is one
thing that can happen next: a call by the current task, a call from an interrupt, the tick, a context
selection, or the return of a call that had blocked. `Op.Allowed` is the discipline of the
environment; `step` runs the code. -/

namespace MiniRTOS

open ByteMemory

/-! ## States -/

/-- The blocking call a task is inside, after its `os_sched_yield()`. -/
inductive Call
  /-- It executes its own code. -/
  | idle
  /-- It was put to sleep in `os_queue_send`. -/
  | queueSend (q : Addr) (item : List UInt8)
  /-- It was put to sleep in `os_queue_receive`. -/
  | queueReceive (q : Addr)
  /-- It was put to sleep in `os_sem_take`. -/
  | semTake (s : Addr)
  /-- It was put to sleep in `os_mutex_lock`. -/
  | mutexLock (m : Addr)
  /-- It was put to sleep in `os_eventgroup_wait_bits`. -/
  | eventWait (e : Addr)
  /-- It was put to sleep in `os_task_notify_wait`. -/
  | notifyWait
  deriving DecidableEq, Repr

/-- What the callers have seen, in order. -/
inductive Event
  /-- A task was created. -/
  | created (t : TaskId) (priority : Nat)
  /-- A send returned. -/
  | sendDone (q : Addr) (item : List UInt8) (r : Status)
  /-- A receive returned. -/
  | receiveDone (q : Addr) (r : Status) (copied : Option (List UInt8))
  /-- A lock returned without having slept. -/
  | lockDone (m : Addr) (t : TaskId) (r : Status)
  /-- A lock returned after its caller had slept. -/
  | lockResumed (m : Addr) (t : TaskId) (r : Status)
  /-- An unlock handed the mutex to a waiter. -/
  | handOff (m : Addr) (t : TaskId)
  /-- An unlock returned. -/
  | unlockDone (m : Addr) (t : TaskId) (r : Status)
  deriving DecidableEq, Repr

/-- The kernel and its callers. -/
structure Sys where
  /-- The kernel variables. -/
  kernel : Kernel
  /-- The call each task is inside. -/
  call : TaskId → Call
  /-- The current task has left the ready lists and `os_sched_select_next` has not run since. -/
  needSelect : Bool
  /-- The results of calls, oldest first. -/
  log : List Event

/-- The current task is READY or RUNNING, or there is none yet. -/
def Kernel.currentRunnable (k : Kernel) : Bool :=
  match k.current with
  | none => true
  | some c => (k.tcb c).state == .ready || (k.tcb c).state == .running

/-- The state after a call made by the current task or by the start-up code. -/
def Sys.after (s : Sys) (k : Kernel) : Sys :=
  { s with kernel := k, needSelect := !k.currentRunnable }

/-- The state after something that happens in an interrupt. -/
def Sys.onIsr (s : Sys) (k : Kernel) : Sys := { s with kernel := k }

/-- Record a result. -/
def Sys.emit (s : Sys) (e : Event) : Sys := { s with log := s.log ++ [e] }

/-- A task goes into a call, or leaves it. -/
def Sys.setCall (s : Sys) (t : TaskId) (c : Call) : Sys :=
  { s with call := Function.update s.call t c }

/-! ## What can happen -/

/-- One step of the system. -/
inductive Op
  /-- `os_task_create`. -/
  | create (a : CreateArgs)
  /-- `os_task_create_suspended`. -/
  | createSuspended (a : CreateArgs)
  /-- `os_task_suspend`. -/
  | suspend (t : TaskId)
  /-- `os_task_resume`. -/
  | resume (t : TaskId)
  /-- `os_task_delay`. -/
  | delay (ticks : Nat)
  /-- `os_task_delay_until`. -/
  | delayUntil (previous period : Nat)
  /-- `os_task_delete` of the caller. -/
  | deleteSelf
  /-- `os_task_notify`. -/
  | notify (t : TaskId) (value : BitVec 32)
  /-- `os_task_notify_from_isr`. -/
  | notifyFromIsr (t : TaskId) (value : BitVec 32)
  /-- `os_task_notify_wait`, up to the switch. -/
  | notifyWait (timeout : Nat)
  /-- `os_sem_create_counting`. -/
  | semCreateCounting (s : Addr) (maxCount initialCount : Nat)
  /-- `os_sem_take`, up to the switch. -/
  | semTake (s : Addr) (timeout : Nat)
  /-- `os_sem_take_from_isr`. -/
  | semTakeFromIsr (s : Addr)
  /-- `os_sem_give`. -/
  | semGive (s : Addr)
  /-- `os_sem_give_from_isr`. -/
  | semGiveFromIsr (s : Addr)
  /-- `os_queue_create`, with what the heap returned. -/
  | queueCreate (q : Addr) (itemSize maxItems : Nat) (block : Option Addr)
  /-- `os_queue_send`, up to the switch. -/
  | queueSend (q : Addr) (item : Mem) (timeout : Nat)
  /-- `os_queue_send_from_isr`. -/
  | queueSendFromIsr (q : Addr) (item : Mem)
  /-- `os_queue_receive`, up to the switch. -/
  | queueReceive (q : Addr) (timeout : Nat)
  /-- `os_queue_receive_from_isr`. -/
  | queueReceiveFromIsr (q : Addr)
  /-- `os_mutex_create`. -/
  | mutexCreate (m : Addr)
  /-- `os_mutex_lock`, up to the switch. -/
  | mutexLock (m : Addr) (timeout : Nat)
  /-- `os_mutex_unlock`. -/
  | mutexUnlock (m : Addr)
  /-- `os_eventgroup_create`. -/
  | eventCreate (e : Addr)
  /-- `os_eventgroup_wait_bits`, up to the switch. -/
  | eventWait (e : Addr) (bits options : BitVec 32) (timeout : Nat)
  /-- `os_eventgroup_set_bits`. -/
  | eventSet (e : Addr) (bits : BitVec 32)
  /-- `os_eventgroup_set_bits_from_isr`. -/
  | eventSetFromIsr (e : Addr) (bits : BitVec 32)
  /-- `os_eventgroup_clear_bits`. -/
  | eventClear (e : Addr) (bits : BitVec 32)
  /-- `os_task_tick`. -/
  | tick
  /-- `os_sched_select_next`. -/
  | selectNext
  /-- The current task returns from the call in which it was put to sleep. -/
  | returnFromCall
  /-- A task writes a word of its stack. -/
  | writeStack (a : Addr) (v : BitVec 32)
  /-- Whoever owns freed memory writes to it. -/
  | scribble (t : TaskId) (v : Tcb) (next prev : Option TaskId)

/-- Who does it. -/
inductive Caller
  | task | startup | isr | tick | resumed
  deriving DecidableEq, Repr

/-- The caller of each step; `startup` calls can also be made before the scheduler runs. -/
def Op.caller : Op → Caller
  | .create _ | .createSuspended _ | .suspend _ | .resume _ | .semCreateCounting ..
  | .queueCreate .. | .mutexCreate _ | .eventCreate _ => .startup
  | .delay _ | .delayUntil .. | .deleteSelf | .notify .. | .notifyWait _ | .semTake .. | .semGive _
  | .queueSend .. | .queueReceive .. | .mutexLock .. | .mutexUnlock _ | .eventWait .. | .eventSet ..
  | .eventClear .. => .task
  -- `PendSV_Handler` selects, and other memory is written at any time
  | .notifyFromIsr .. | .semTakeFromIsr _ | .semGiveFromIsr _ | .queueSendFromIsr ..
  | .queueReceiveFromIsr _ | .eventSetFromIsr .. | .selectNext | .writeStack .. | .scribble .. => .isr
  | .tick => .tick
  | .returnFromCall => .resumed

/-- The task handle a call takes. -/
def Op.handle : Op → Option TaskId
  | .suspend t | .resume t | .notify t _ | .notifyFromIsr t _ => some t
  | _ => none

/-- The address that must not be a live control block: the heap's answer to a request for a new
one, or memory that somebody else writes. -/
def Op.unowned : Op → Option TaskId
  | .create a | .createSuspended a => a.tcbBlock
  | .scribble t .. => some t
  | _ => none

/-- The wait lists that a creating call initialises. -/
def Op.fresh : Op → List WaitList
  | .semCreateCounting s .. => [.sem s]
  | .queueCreate q .. => [.queueSend q, .queueRecv q]
  | .mutexCreate m => [.mutex m]
  | .eventCreate e => [.eventGroup e]
  | _ => []

/-- The call that the current task can be in: none for a task that makes a new call. -/
def Sys.currentIn (s : Sys) (p : Call → Prop) : Prop :=
  s.needSelect = false ∧
    ∃ c ∈ s.kernel.current, c ∈ s.kernel.liveTcbs ∧ s.kernel.currentRunnable = true ∧ p (s.call c)

/-- When a caller can act: a task when it is current, READY or RUNNING and not inside another call;
the tick when a current task that gave up the CPU has been replaced. -/
def Sys.Permits (s : Sys) : Caller → Prop
  | .task => s.currentIn (· = .idle)
  | .startup => s.currentIn (· = .idle) ∨ s.kernel.current = none
  | .isr => True
  | .tick => s.needSelect = false
  | .resumed => s.currentIn (· ≠ .idle)

/-- **The discipline of the environment.** -/
def Op.Allowed (s : Sys) (op : Op) : Prop :=
  s.Permits op.caller ∧ (∀ t ∈ op.handle, t ∈ s.kernel.liveTcbs) ∧
    (∀ t ∈ op.unowned, t ∉ s.kernel.liveTcbs) ∧ ∀ w ∈ op.fresh, s.kernel.waitHead w = none

/-- What the current task is in can be decided. -/
instance (s : Sys) (p : Call → Prop) [DecidablePred p] : Decidable (s.currentIn p) :=
  inferInstanceAs (Decidable (_ ∧ _))

/-- Whether a caller may act can be decided. -/
instance (s : Sys) : (c : Caller) → Decidable (s.Permits c)
  | .task => inferInstanceAs (Decidable (s.currentIn (· = .idle)))
  | .startup => inferInstanceAs (Decidable (s.currentIn (· = .idle) ∨ s.kernel.current = none))
  | .isr => inferInstanceAs (Decidable True)
  | .tick => inferInstanceAs (Decidable (s.needSelect = false))
  | .resumed => inferInstanceAs (Decidable (s.currentIn (· ≠ .idle)))

/-- Whether a step is allowed can be decided. -/
instance (s : Sys) (op : Op) : Decidable (op.Allowed s) :=
  inferInstanceAs (Decidable (_ ∧ _))

/-! ## What the discipline gives -/

/-- A runnable current task. -/
theorem Kernel.currentRunnable_iff {k : Kernel} {c : TaskId} (hc : k.current = some c) :
    k.currentRunnable = true ↔ (k.tcb c).state = .ready ∨ (k.tcb c).state = .running := by
  simp [Kernel.currentRunnable, hc]

/-- A task that acts is current, live, and READY or RUNNING. -/
theorem Sys.currentIn.cases {s : Sys} {p : Call → Prop} (h : s.currentIn p) :
    ∃ c, s.kernel.current = some c ∧ c ∈ s.kernel.liveTcbs ∧
      ((s.kernel.tcb c).state = .ready ∨ (s.kernel.tcb c).state = .running) ∧ p (s.call c) := by
  obtain ⟨-, c, hc, hl, hr, hp⟩ := h
  exact ⟨c, hc, hl, (Kernel.currentRunnable_iff hc).mp hr, hp⟩

/-- The task that makes a new call. -/
theorem Sys.Permits.task {s : Sys} (h : s.Permits .task) :
    ∃ c, s.kernel.current = some c ∧ c ∈ s.kernel.liveTcbs ∧
      ((s.kernel.tcb c).state = .ready ∨ (s.kernel.tcb c).state = .running) ∧ s.call c = .idle :=
  Sys.currentIn.cases (p := (· = .idle)) h

/-- The task whose call returns. -/
theorem Sys.Permits.resumed {s : Sys} (h : s.Permits .resumed) :
    ∃ c, s.kernel.current = some c ∧ c ∈ s.kernel.liveTcbs ∧
      ((s.kernel.tcb c).state = .ready ∨ (s.kernel.tcb c).state = .running) ∧ s.call c ≠ .idle :=
  Sys.currentIn.cases (p := (· ≠ .idle)) h

/-! ## Steps -/

/-- The state after a blocking call of `c`: it returned, or `c` is inside it now. -/
def Sys.outcome {α : Type} (s : Sys) (c : TaskId) (call : Call) (ret : Sys → α → Sys) :
    Outcome α → Sys
  | .done r => ret s r
  | .blocked => s.setCall c call

/-- The return of the call that the current task is inside. -/
def Sys.returnFrom (s : Sys) (c : TaskId) : Call → Option Sys
  | .idle => none
  | .queueSend q item =>
      some ((s.setCall c .idle).emit (.sendDone q item (osQueueSendResume s.kernel c)))
  | .queueReceive q =>
      let (r, copied) := osQueueReceiveResume s.kernel c
      some ((s.setCall c .idle).emit (.receiveDone q r copied))
  | .semTake _ => some (s.setCall c .idle)
  | .mutexLock m =>
      some ((s.setCall c .idle).emit (.lockResumed m c (osMutexLockResume s.kernel c)))
  | .eventWait _ => some (s.setCall c .idle)
  -- the one call that still writes kernel state after its yield
  | .notifyWait => some ((s.after (osTaskNotifyWaitResume s.kernel c).1).setCall c .idle)

/-- The state after a creation: a new task is in no call. -/
def Sys.created (s : Sys) (a : CreateArgs) (r : Status × Option TaskId × Kernel) : Sys :=
  match r.1, a.tcbBlock with
  | .ok, some t => ((s.after r.2.2).setCall t .idle).emit (.created t a.priority)
  | _, _ => s.after r.2.2

/-- **One step of the system.** -/
def step (s : Sys) : Op → Option Sys
  | .create a => some (s.created a (osTaskCreate s.kernel a))
  | .createSuspended a => some (s.created a (osTaskCreateSuspended s.kernel a))
  | .suspend t => some (s.after (osTaskSuspend s.kernel t))
  | .resume t => some (s.after (osTaskResume s.kernel t))
  | .delay n => (osTaskDelay s.kernel n).map s.after
  | .delayUntil previous period =>
      (osTaskDelayUntil s.kernel previous period).map fun r => s.after r.2.2
  | .deleteSelf => (osTaskDeleteSelf s.kernel).map s.after
  | .notify t v => (osTaskNotify s.kernel t v).map fun r => s.after r.1
  | .notifyFromIsr t v => some (s.onIsr (osTaskNotifyFromIsr s.kernel t v).1)
  | .notifyWait timeout => do
      let c ← s.kernel.current
      let (k, r) ← osTaskNotifyWait s.kernel timeout
      some ((s.after k).outcome c .notifyWait (fun s _ => s) r)
  | .semCreateCounting a m n => some (s.after (osSemCreateCounting s.kernel a m n).2)
  | .semTake a timeout => do
      let c ← s.kernel.current
      let (k, r) ← osSemTake s.kernel a timeout
      some ((s.after k).outcome c (.semTake a) (fun s _ => s) r)
  | .semTakeFromIsr a => some (s.onIsr (osSemTakeFromIsr s.kernel a).1)
  | .semGive a => (osSemGive s.kernel a).map fun r => s.after r.1
  | .semGiveFromIsr a => some (s.onIsr (osSemGiveFromIsr s.kernel a).1)
  | .queueCreate q itemSize maxItems block =>
      some (s.after (osQueueCreate s.kernel q itemSize maxItems block).2)
  | .queueSend q item timeout => do
      let c ← s.kernel.current
      -- the caller's buffer as it is when the call is made
      let bytes := readBytes item 0 (s.kernel.queues q).itemSize
      let (k, r) ← osQueueSend s.kernel q item timeout
      some ((s.after k).outcome c (.queueSend q bytes) (fun s r => s.emit (.sendDone q bytes r)) r)
  | .queueSendFromIsr q item =>
      let bytes := readBytes item 0 (s.kernel.queues q).itemSize
      let (k, r) := osQueueSendFromIsr s.kernel q item
      some ((s.onIsr k).emit (.sendDone q bytes r))
  | .queueReceive q timeout => do
      let c ← s.kernel.current
      let (k, r) ← osQueueReceive s.kernel q timeout
      some ((s.after k).outcome c (.queueReceive q)
        (fun s r => s.emit (.receiveDone q r.1 r.2)) r)
  | .queueReceiveFromIsr q =>
      let (k, r, copied) := osQueueReceiveFromIsr s.kernel q
      some ((s.onIsr k).emit (.receiveDone q r copied))
  | .mutexCreate m => some (s.after (osMutexCreate s.kernel m).2)
  | .mutexLock m timeout => do
      let c ← s.kernel.current
      let (k, r) ← osMutexLock s.kernel m timeout
      some ((s.after k).outcome c (.mutexLock m) (fun s r => s.emit (.lockDone m c r)) r)
  | .mutexUnlock m => do
      let c ← s.kernel.current
      let (k, r, woken) ← osMutexUnlock s.kernel m
      let s' := (s.after k).emit (.unlockDone m c r)
      -- who gets the mutex is decided by the unlocking call, so it is logged with it
      some (match woken with
        | none => s'
        | some w => s'.emit (.handOff m w))
  | .eventCreate e => some (s.after (osEventgroupCreate s.kernel e).2)
  | .eventWait e bits options timeout => do
      let c ← s.kernel.current
      let (k, r) ← osEventgroupWaitBits s.kernel e bits options timeout
      some ((s.after k).outcome c (.eventWait e) (fun s _ => s) r)
  | .eventSet e bits => (osEventgroupSetBits s.kernel e bits).map fun r => s.after r.1
  | .eventSetFromIsr e bits => (osEventgroupSetBitsFromIsr s.kernel e bits).map fun r => s.onIsr r.1
  | .eventClear e bits => some (s.after (osEventgroupClearBits s.kernel e bits).1)
  | .tick => (osTaskTick s.kernel).map s.onIsr
  | .selectNext => some { s with kernel := osSchedSelectNext s.kernel, needSelect := false }
  | .returnFromCall => do
      let c ← s.kernel.current
      s.returnFrom c (s.call c)
  | .writeStack a v =>
      some (s.onIsr { s.kernel with stackMem := Function.update s.kernel.stackMem a v })
  | .scribble t v nx pv => some (s.onIsr (s.kernel.scribble t v nx pv))

/-- **The step of a blocking call**: the current task makes it, and it returns or puts it to sleep. -/
theorem Sys.blockingCall_inv {α : Type} {s s' : Sys} {f : Option (Kernel × Outcome α)} {call : Call}
    {ret : TaskId → Sys → α → Sys}
    (h : (do
      let c ← s.kernel.current
      let (k, r) ← f
      some ((s.after k).outcome c call (ret c) r)) = some s') :
    ∃ c k r, s.kernel.current = some c ∧ f = some (k, r) ∧
      s' = (s.after k).outcome c call (ret c) r := by
  obtain ⟨c, hc, h⟩ := Option.bind_eq_some_iff.mp h
  obtain ⟨⟨k, r⟩, hk, h⟩ := Option.bind_eq_some_iff.mp h
  exact ⟨c, k, r, hc, hk, (Option.some.inj h).symm⟩

/-- **The states at start-up**: `os_task_init_ready_list` has run, no control block has been handed
out, no object has waiters and nobody is inside a call. -/
structure Sys.Init (s : Sys) : Prop where
  /-- The task lists are those of `os_task_init_ready_list`. -/
  lists : ∃ k, s.kernel = osTaskInitReadyList k
  /-- No control block is live. -/
  live : s.kernel.liveTcbs = []
  /-- No object has waiters. -/
  waiters : ∀ w, s.kernel.waitHead w = none
  /-- No task is inside a call. -/
  calls : ∀ t, s.call t = .idle
  /-- Nothing has happened yet. -/
  log : s.log = [] ∧ s.needSelect = false

/-- Zero-initialised memory, before `os_task_init_ready_list`. -/
def Kernel.zero : Kernel where
  links := ⟨fun _ => none, fun _ => none⟩
  tcb := fun _ => newTcb 0 0 0 0
  readyList := fun _ => ⟨none, none, 0⟩
  readyBitmap := 0
  blockedList := none
  deferredDeleteList := none
  taskTable := []
  current := none
  stackMem := fun _ => 0
  liveTcbs := []
  freed := []
  systemTick := 0
  lastSwitchTick := 0
  schedulerRunning := true
  yieldPending := false
  pendSv := false
  criticalNesting := 0
  savedMask := fun _ => 0
  primask := 0
  queues := fun _ => ⟨fun _ => 0, 0, 0, 0, 0, 0, 0, none, none⟩
  sems := fun _ => ⟨0, 0, none⟩
  mutexes := fun _ => ⟨none, 0, 0, none⟩
  eventGroups := fun _ => ⟨0, none⟩

/-- The system at start-up, on zero-initialised memory. -/
def Sys.boot : Sys := ⟨osTaskInitReadyList .zero, fun _ => .idle, false, []⟩

/-- Zeroed memory with initialised lists is a start. -/
theorem Sys.boot_init : Sys.boot.Init where
  lists := ⟨.zero, rfl⟩
  live := rfl
  waiters w := by cases w <;> rfl
  calls _ := rfl
  log := ⟨rfl, rfl⟩

/-- The arguments that create a task of priority `p` with its control block at `t` and its stack at
`t + 0x1000`. -/
def taskAt (t : TaskId) (p : Nat) : CreateArgs where
  func := some 0x08000101
  param := 0
  priority := p
  stackBuf := none
  stackSize := 256
  wantHandle := true
  stackBlock := some (t + 0x1000)
  tcbBlock := some t

end MiniRTOS
