import MiniRTOS.Kernel.SystemFrames
import MiniRTOS.Kernel.SystemInv

/-! # What few functions write

The task table, the list of live control blocks, the deferred delete list, the run times, the two
tick counters and the stack fields of the control blocks are file-scope variables (or fields) that only
a handful of functions write. `Kernel.kept` collects them, `Kernel.tally` those without the stacks.
Whatever the lists look like, the calls of `notify.c`, `queue.c`, `semaphore.c`, `mutex.c` and
`eventgroup.c` and most of `task.c` leave them alone.

* **`step_kept`** — every step that is not a creation, a deletion, a tick or a selection.
* **`tally_osTaskTick`**, **`tally_osSchedSelectNext`** — the tick and the selection. -/

namespace MiniRTOS

open PtrList

variable {k k' : Kernel} {t : TaskId} {w : WaitList} {s s' : Sys} {op : Op}

/-- The table of tasks, the live control blocks, the deferred deletions and the clocks. -/
structure Tally where
  /-- `task_table[0 .. task_count)`. -/
  table : List TaskId
  /-- The control blocks that the heap has handed out. -/
  live : List TaskId
  /-- `deferred_delete_list`. -/
  deferred : Option TaskId
  /-- `run_time_ticks` of every control block. -/
  runTimes : TaskId → Nat
  /-- `system_tick`. -/
  systemTick : Nat
  /-- `last_switch_tick`. -/
  lastSwitchTick : Nat

/-- The tally of a kernel state. -/
def Kernel.tally (k : Kernel) : Tally where
  table := k.taskTable
  live := k.liveTcbs
  deferred := k.deferredDeleteList
  runTimes t := (k.tcb t).runTimeTicks
  systemTick := k.systemTick
  lastSwitchTick := k.lastSwitchTick

/-- What a control block says about its stack. -/
structure StackUse where
  /-- Lowest address. -/
  base : Addr
  /-- Size in bytes. -/
  size : Nat
  /-- Largest use seen at a tick. -/
  highWater : Nat

/-- The stack of a control block. -/
def Tcb.stackUse (v : Tcb) : StackUse := ⟨v.stackBase, v.stackSize, v.stackHighWater⟩

/-- The stacks of all tasks. -/
def Kernel.stackUses (k : Kernel) : TaskId → StackUse := fun t => (k.tcb t).stackUse

/-- The tally and the stacks. -/
structure Kept where
  /-- The tally. -/
  tally : Tally
  /-- The stacks. -/
  stackUses : TaskId → StackUse

/-- The tally and the stacks of a kernel state. -/
def Kernel.kept (k : Kernel) : Kept := ⟨k.tally, k.stackUses⟩

/-- The tally is kept. -/
theorem tally_of_kept (h : k'.kept = k.kept) : k'.tally = k.tally := congrArg Kept.tally h

/-- So are the stacks. -/
theorem stackUses_of_kept (h : k'.kept = k.kept) : k'.stackUses = k.stackUses :=
  congrArg Kept.stackUses h

/-! ## Primitive writes -/

/-- States with the same variables and the same run times. -/
theorem tally_congr (hr : ∀ x, (k'.tcb x).runTimeTicks = (k.tcb x).runTimeTicks)
    (ht : k'.taskTable = k.taskTable) (hl : k'.liveTcbs = k.liveTcbs)
    (hd : k'.deferredDeleteList = k.deferredDeleteList) (hs : k'.systemTick = k.systemTick)
    (hlast : k'.lastSwitchTick = k.lastSwitchTick) : k'.tally = k.tally := by
  unfold Kernel.tally
  rw [ht, hl, hd, hs, hlast]
  congr 1
  exact funext hr

/-- Writing a control block without its run time. -/
theorem tally_setTcb {v : Tcb} (hv : v.runTimeTicks = (k.tcb t).runTimeTicks) :
    (k.setTcb t v).tally = k.tally := by
  refine tally_congr (fun x => ?_) rfl rfl rfl rfl rfl
  show (Function.update k.tcb t v x).runTimeTicks = _
  rw [Function.update_apply]
  split
  · next hx => rw [hx, hv]
  · rfl

/-- Writing a control block without its run time and without what it says about the stack. -/
@[simp] theorem kept_setTcb {v : Tcb} (hv : v.runTimeTicks = (k.tcb t).runTimeTicks)
    (hb : v.stackBase = (k.tcb t).stackBase) (hz : v.stackSize = (k.tcb t).stackSize)
    (hw : v.stackHighWater = (k.tcb t).stackHighWater) : (k.setTcb t v).kept = k.kept := by
  have hsame : ∀ x, ((k.setTcb t v).tcb x).runTimeTicks = (k.tcb x).runTimeTicks ∧
      ((k.setTcb t v).tcb x).stackUse = (k.tcb x).stackUse := by
    intro x
    show (Function.update k.tcb t v x).runTimeTicks = _ ∧ (Function.update k.tcb t v x).stackUse = _
    rw [Function.update_apply]
    split
    · next hx =>
        subst hx
        exact ⟨hv, by rw [Tcb.stackUse, Tcb.stackUse, hb, hz, hw]⟩
    · exact ⟨rfl, rfl⟩
  unfold Kernel.kept Kernel.tally Kernel.stackUses
  rw [funext fun x => (hsame x).1, funext fun x => (hsame x).2]
  rfl

/-- The links are no part of what is kept. -/
@[simp] theorem kept_setLinks (k : Kernel) (l : Links TaskId) : (k.setLinks l).kept = k.kept := rfl

/-- Nor are the queues. -/
@[simp] theorem kept_setQueue (k : Kernel) (q : Addr) (v : Queue) :
    (k.setQueue q v).kept = k.kept := rfl

/-- Nor are the semaphores. -/
@[simp] theorem kept_setSem (k : Kernel) (a : Addr) (v : Sem) : (k.setSem a v).kept = k.kept := rfl

/-- Nor are the mutexes. -/
@[simp] theorem kept_setMutex (k : Kernel) (m : Addr) (v : Mutex) :
    (k.setMutex m v).kept = k.kept := rfl

/-- Nor are the event groups. -/
@[simp] theorem kept_setEventGroup (k : Kernel) (e : Addr) (v : EventGroup) :
    (k.setEventGroup e v).kept = k.kept := rfl

/-- Nor are the heads of the wait lists. -/
@[simp] theorem kept_setWaitHead (k : Kernel) (h : Option TaskId) (w : WaitList) :
    (k.setWaitHead h w).kept = k.kept := by
  cases w <;> rfl

/-- Entering a critical section keeps tally and stacks. -/
@[simp] theorem kept_osSchedEnterCritical (k : Kernel) :
    (osSchedEnterCritical k).kept = k.kept := rfl

/-- So does leaving one. -/
@[simp] theorem kept_osSchedExitCritical (k : Kernel) : (osSchedExitCritical k).kept = k.kept := rfl

/-- So does asking for a switch. -/
@[simp] theorem kept_osSchedYield (k : Kernel) : (osSchedYield k).kept = k.kept := rfl

/-- So does asking for one from an interrupt. -/
@[simp] theorem kept_osSchedRequestSwitchFromIsr (k : Kernel) :
    (osSchedRequestSwitchFromIsr k).kept = k.kept := rfl

/-- A conditional yield. -/
@[simp] theorem kept_yieldIf (k : Kernel) (b : Prop) [Decidable b] :
    (if b then osSchedYield k else k).kept = k.kept := by
  split <;> rfl

/-- A conditional switch request. -/
@[simp] theorem kept_requestSwitchIf (k : Kernel) (b : Prop) [Decidable b] :
    (if b then osSchedRequestSwitchFromIsr k else k).kept = k.kept := by
  split <;> rfl

/-! ## Lists -/

/-- Taking a task out of its ready list keeps tally and stacks. -/
@[simp] theorem kept_osTaskRemoveFromReady (k : Kernel) (t : TaskId) :
    (osTaskRemoveFromReady k t).kept = k.kept := rfl

/-- So does taking one out of `blocked_list`. -/
@[simp] theorem kept_osTaskRemoveFromBlocked (k : Kernel) (t : TaskId) :
    (osTaskRemoveFromBlocked k t).kept = k.kept := rfl

/-- So does making a task ready. -/
@[simp] theorem kept_osTaskAddToReady (k : Kernel) (t : TaskId) :
    (osTaskAddToReady k t).kept = k.kept :=
  kept_setTcb (k := k) (t := t) (v := { k.tcb t with state := .ready }) rfl rfl rfl rfl

/-- So does blocking one. -/
@[simp] theorem kept_osTaskAddToBlocked (k : Kernel) (t : TaskId) (n : Nat) :
    (osTaskAddToBlocked k t n).kept = k.kept :=
  kept_setTcb (k := k) (t := t) (v := { k.tcb t with state := .blocked, delayTicks := n })
    rfl rfl rfl rfl

/-- So does linking a waiter. -/
@[simp] theorem kept_linkWaiter (k : Kernel) (w : WaitList) (t : TaskId) (prev iter : Option TaskId) :
    (linkWaiter k w t prev iter).kept = k.kept := by
  unfold linkWaiter
  dsimp only
  split <;> simp

/-- So does putting a task into a wait list. -/
theorem kept_blockTask {timeout : Nat} {reason : BlockedReason} {owner : Obj}
    (h : blockTask k w t timeout reason owner = some k') : k'.kept = k.kept := by
  unfold blockTask at h
  obtain ⟨⟨prev, iter⟩, -, h⟩ := Option.bind_eq_some_iff.mp h
  obtain rfl := Option.some.inj h
  simp

/-- So does taking one out of it. -/
@[simp] theorem kept_unblockTask (k : Kernel) (w : WaitList) (t : TaskId) :
    (unblockTask k w t).kept = k.kept := by
  unfold unblockTask
  dsimp only
  split <;> simp

/-- So does waking the first waiter. -/
@[simp] theorem kept_wakeTask (k : Kernel) (w : WaitList) : (wakeTask k w).2.kept = k.kept := by
  unfold wakeTask
  split <;> simp

/-! ## Tasks -/

/-- `os_task_suspend` keeps tally and stacks. -/
@[simp] theorem kept_osTaskSuspend (k : Kernel) (t : TaskId) :
    (osTaskSuspend k t).kept = k.kept := by
  unfold osTaskSuspend
  dsimp only
  rw [kept_yieldIf, kept_osSchedExitCritical]
  split <;> simp

/-- So does `os_task_resume`. -/
@[simp] theorem kept_osTaskResume (k : Kernel) (t : TaskId) : (osTaskResume k t).kept = k.kept := by
  unfold osTaskResume
  dsimp only
  rw [kept_osSchedExitCritical]
  split <;> simp

/-- So does `os_task_delay`. -/
theorem kept_osTaskDelay {n : Nat} (h : osTaskDelay k n = some k') : k'.kept = k.kept := by
  unfold osTaskDelay at h
  split at h
  · obtain rfl := Option.some.inj h
    rfl
  · obtain ⟨c, -, h⟩ := Option.bind_eq_some_iff.mp h
    obtain rfl := Option.some.inj h
    simp

/-- So does `os_task_delay_until`. -/
theorem kept_osTaskDelayUntil {a b : Nat} {r : Status × Nat × Kernel}
    (h : osTaskDelayUntil k a b = some r) : r.2.2.kept = k.kept := by
  unfold osTaskDelayUntil at h
  split at h
  · rw [← Option.some.inj h]
  · dsimp only at h
    split at h
    · obtain ⟨k₁, h₁, h⟩ := Option.bind_eq_some_iff.mp h
      rw [← Option.some.inj h]
      exact kept_osTaskDelay h₁
    · rw [← Option.some.inj h]

/-- So does `os_task_set_priority`. -/
@[simp] theorem kept_osTaskSetPriority (k : Kernel) (t : TaskId) (p : Prio) :
    (osTaskSetPriority k t p).kept = k.kept := by
  unfold osTaskSetPriority
  dsimp only
  rw [kept_osSchedExitCritical]
  split <;> simp

/-! ## Notifications -/

/-- Writing a notification keeps tally and stacks. -/
@[simp] theorem kept_notifyTask (k : Kernel) (t : TaskId) (v : BitVec 32) :
    (notifyTask k t v).2.kept = k.kept := by
  unfold notifyTask
  dsimp only
  split <;> simp

/-- So does `os_task_notify`. -/
theorem kept_osTaskNotify {v : BitVec 32} {r : Kernel × Status} (h : osTaskNotify k t v = some r) :
    r.1.kept = k.kept := by
  unfold osTaskNotify at h
  dsimp only at h
  split at h
  · obtain ⟨c, -, h⟩ := Option.bind_eq_some_iff.mp h
    rw [← Option.some.inj h]
    simp
  · rw [← Option.some.inj h]
    simp

/-- So does `os_task_notify_from_isr`. -/
@[simp] theorem kept_osTaskNotifyFromIsr (k : Kernel) (t : TaskId) (v : BitVec 32) :
    (osTaskNotifyFromIsr k t v).1.kept = k.kept := by
  unfold osTaskNotifyFromIsr
  simp

/-- So does `os_task_notify_wait`. -/
theorem kept_osTaskNotifyWait {n : Nat} {r : Kernel × Outcome (Status × Option (BitVec 32))}
    (h : osTaskNotifyWait k n = some r) : r.1.kept = k.kept := by
  unfold osTaskNotifyWait at h
  obtain ⟨c, -, h⟩ := Option.bind_eq_some_iff.mp h
  dsimp only at h
  split at h
  · rw [← Option.some.inj h]
    simp [takeNotification]
  · split at h <;> rw [← Option.some.inj h] <;> simp

/-- So does the return from it. -/
@[simp] theorem kept_osTaskNotifyWaitResume (k : Kernel) (c : TaskId) :
    (osTaskNotifyWaitResume k c).1.kept = k.kept := by
  unfold osTaskNotifyWaitResume
  split
  · simp [takeNotification]
  · rfl

/-! ## Semaphores and event groups -/

/-- Creating a semaphore keeps tally and stacks. -/
@[simp] theorem kept_osSemCreateCounting (k : Kernel) (a : Addr) (m n : Nat) :
    (osSemCreateCounting k a m n).2.kept = k.kept := by
  unfold osSemCreateCounting
  split
  · rfl
  · split <;> rfl

/-- So does `os_sem_take`. -/
theorem kept_osSemTake {a : Addr} {n : Nat} {r : Kernel × Outcome Status}
    (h : osSemTake k a n = some r) : r.1.kept = k.kept := by
  unfold osSemTake at h
  dsimp only at h
  split at h
  · rw [← Option.some.inj h]
    rfl
  · split at h
    · rw [← Option.some.inj h]
      rfl
    · obtain ⟨c, k₂, -, h₂, rfl⟩ := sleep_inv h
      simp [kept_blockTask h₂]

/-- So does `os_sem_take_from_isr`. -/
@[simp] theorem kept_osSemTakeFromIsr (k : Kernel) (a : Addr) :
    (osSemTakeFromIsr k a).1.kept = k.kept := by
  unfold osSemTakeFromIsr
  dsimp only
  split <;> rfl

/-- So does `os_sem_give`. -/
theorem kept_osSemGive {a : Addr} {r : Kernel × Status} (h : osSemGive k a = some r) :
    r.1.kept = k.kept := by
  have hw := kept_wakeTask (osSchedEnterCritical k) (.sem a)
  unfold osSemGive Sem.prvWakeTask at h
  dsimp only at h
  split at h
  · next x k₂ heq =>
      rw [heq] at hw
      obtain ⟨c, -, h⟩ := Option.bind_eq_some_iff.mp h
      rw [← Option.some.inj h]
      simpa using hw
  · split at h <;> rw [← Option.some.inj h] <;> rfl

/-- So does `os_sem_give_from_isr`. -/
@[simp] theorem kept_osSemGiveFromIsr (k : Kernel) (a : Addr) :
    (osSemGiveFromIsr k a).1.kept = k.kept := by
  have hw := kept_wakeTask (osSchedEnterCritical k) (.sem a)
  unfold osSemGiveFromIsr Sem.prvWakeTask
  dsimp only
  split
  · next x k₂ heq =>
      rw [heq] at hw
      simpa using hw
  · split <;> rfl

/-- Waking one waiter of an event group keeps tally and stacks. -/
@[simp] theorem kept_wakeWaiter (k : Kernel) (e : Addr) (t : TaskId) :
    (EventGroup.wakeWaiter k e t).kept = k.kept := by
  unfold EventGroup.wakeWaiter
  dsimp only
  split <;> simp

/-- So does the walk over the waiters. -/
theorem kept_wakeWalk {e : Addr} {fuel : Nat} {woken : List TaskId} {i : Option TaskId}
    {r : Kernel × List TaskId} (h : EventGroup.wakeWalk e fuel k woken i = some r) :
    r.1.kept = k.kept := by
  induction fuel generalizing k woken i with
  | zero =>
      cases i with
      | none => exact congrArg (fun r => r.1.kept) (Option.some.inj h).symm
      | some t => cases h
  | succ fuel ih =>
      cases i with
      | none => exact congrArg (fun r => r.1.kept) (Option.some.inj h).symm
      | some t =>
          rw [EventGroup.wakeWalk] at h
          split at h
          · exact (ih h).trans (kept_wakeWaiter k e t)
          · exact ih h

/-- So does `os_eventgroup_set_bits`. -/
theorem kept_osEventgroupSetBits {e : Addr} {bits : BitVec 32} {r : Kernel × Status}
    (h : osEventgroupSetBits k e bits = some r) : r.1.kept = k.kept := by
  unfold osEventgroupSetBits at h
  obtain ⟨⟨k₁, woken⟩, h₁, h⟩ := Option.bind_eq_some_iff.mp h
  have hl : k₁.kept = k.kept := by
    have hwalk := kept_wakeWalk h₁
    exact hwalk
  dsimp only at h
  split at h
  · rw [← Option.some.inj h]
    exact hl
  · obtain ⟨c, -, h⟩ := Option.bind_eq_some_iff.mp h
    rw [← Option.some.inj h]
    simpa using hl

/-- So does `os_eventgroup_set_bits_from_isr`. -/
theorem kept_osEventgroupSetBitsFromIsr {e : Addr} {bits : BitVec 32} {r : Kernel × Status}
    (h : osEventgroupSetBitsFromIsr k e bits = some r) : r.1.kept = k.kept := by
  unfold osEventgroupSetBitsFromIsr at h
  obtain ⟨⟨k₁, woken⟩, h₁, h⟩ := Option.bind_eq_some_iff.mp h
  have hl : k₁.kept = k.kept := by
    have hwalk := kept_wakeWalk h₁
    exact hwalk
  rw [← Option.some.inj h]
  dsimp only
  split <;> exact hl

/-- So does `os_eventgroup_wait_bits`. -/
theorem kept_osEventgroupWaitBits {e : Addr} {bits options : BitVec 32} {n : Nat}
    {r : Kernel × Outcome (BitVec 32)} (h : osEventgroupWaitBits k e bits options n = some r) :
    r.1.kept = k.kept := by
  unfold osEventgroupWaitBits at h
  dsimp only at h
  split at h
  · rw [← Option.some.inj h]
    dsimp only
    split <;> rfl
  · split at h
    · rw [← Option.some.inj h]
      rfl
    · obtain ⟨c, k₂, -, h₂, rfl⟩ := sleep_inv h
      unfold EventGroup.prvBlockTask at h₂
      simp [kept_blockTask h₂]

/-! ## Queues -/

/-- Creating a queue keeps tally and stacks. -/
@[simp] theorem kept_osQueueCreate (k : Kernel) (q : Addr) (sz n : Nat) (b : Option Addr) :
    (osQueueCreate k q sz n b).2.kept = k.kept := by
  unfold osQueueCreate
  split
  · rfl
  · cases b <;> rfl

/-- So does the request to switch to a task that a queue call woke. -/
theorem kept_preempt {woken : Option TaskId} (h : Queue.preempt k woken = some k') :
    k'.kept = k.kept := by
  unfold Queue.preempt at h
  split at h
  · exact congrArg Kernel.kept (Option.some.inj h).symm
  · obtain ⟨c, -, h⟩ := Option.bind_eq_some_iff.mp h
    rw [← Option.some.inj h]
    simp

/-- The wake-up at the end of a queue call. -/
theorem kept_wakePreempt (h : Queue.preempt (osSchedExitCritical (wakeTask k w).2) (wakeTask k w).1
    = some k') : k'.kept = k.kept := by
  rw [kept_preempt h, kept_osSchedExitCritical, kept_wakeTask]

/-- The common body of send and receive keeps tally and stacks. -/
theorem kept_exchange {α : Type} {q : Addr} {p : Prop} [Decidable p] {qu : Queue} {w w' : WaitList}
    {a b : α} {n : Nat} {r : Kernel × Outcome α}
    (h : Queue.exchange k q p qu w w' a b n = some r) : r.1.kept = k.kept := by
  rcases Queue.exchange_cases h with ⟨-, k', hk', rfl⟩ | ⟨-, rfl⟩ | ⟨-, c, k', -, hk', rfl⟩
  · have hl := kept_wakePreempt hk'
    exact hl
  · rfl
  · simp [kept_blockTask hk']

/-- So does `os_queue_send`. -/
theorem kept_osQueueSend {q : Addr} {item : ByteMemory.Mem} {n : Nat} {r : Kernel × Outcome Status}
    (h : osQueueSend k q item n = some r) : r.1.kept = k.kept :=
  kept_exchange (osQueueSend_eq_exchange k q item n ▸ h)

/-- So does `os_queue_receive`. -/
theorem kept_osQueueReceive {q : Addr} {n : Nat} {r : Kernel × Outcome (Status × Option (List UInt8))}
    (h : osQueueReceive k q n = some r) : r.1.kept = k.kept :=
  kept_exchange (osQueueReceive_eq_exchange k q n ▸ h)

/-- So does `os_queue_send_from_isr`. -/
@[simp] theorem kept_osQueueSendFromIsr (k : Kernel) (q : Addr) (item : ByteMemory.Mem) :
    (osQueueSendFromIsr k q item).1.kept = k.kept := by
  unfold osQueueSendFromIsr Queue.prvWakeTask
  dsimp only
  split <;> simp

/-- So does `os_queue_receive_from_isr`. -/
@[simp] theorem kept_osQueueReceiveFromIsr (k : Kernel) (q : Addr) :
    (osQueueReceiveFromIsr k q).1.kept = k.kept := by
  unfold osQueueReceiveFromIsr Queue.prvWakeTask
  dsimp only
  split <;> simp

/-! ## Mutexes -/

/-- Boosting an owner keeps tally and stacks. -/
@[simp] theorem kept_prvBoostPriority (k : Kernel) (m : Addr) (p : Prio) :
    (Mutex.prvBoostPriority k m p).kept = k.kept := by
  unfold Mutex.prvBoostPriority
  split
  · rfl
  · split <;> simp

/-- So does a full release. -/
@[simp] theorem kept_release (k : Kernel) (m : Addr) : (Mutex.release k m).2.kept = k.kept := by
  have hrestore : (Mutex.prvRestorePriority k m).kept = k.kept := by
    unfold Mutex.prvRestorePriority
    split <;> simp
  unfold Mutex.release Mutex.prvWakeAndTransfer
  dsimp only
  split
  · next k₁ heq =>
      have hw := kept_wakeTask ((Mutex.prvRestorePriority k m).setMutex m
        { (Mutex.prvRestorePriority k m).mutexes m with owner := none }) (.mutex m)
      rw [heq] at hw
      exact hw.trans hrestore
  · next t k₁ heq =>
      have hw := kept_wakeTask ((Mutex.prvRestorePriority k m).setMutex m
        { (Mutex.prvRestorePriority k m).mutexes m with owner := none }) (.mutex m)
      rw [heq] at hw
      exact hw.trans hrestore

/-- So does `os_mutex_lock`. -/
theorem kept_osMutexLock {m : Addr} {n : Nat} {r : Kernel × Outcome Status}
    (h : osMutexLock k m n = some r) : r.1.kept = k.kept := by
  obtain ⟨c, -, h⟩ := Option.bind_eq_some_iff.mp h
  split at h
  · rw [← Option.some.inj h]
    rfl
  · split at h
    · rw [← Option.some.inj h]
      rfl
    · dsimp only at h
      split at h
      · rw [← Option.some.inj h]
        simp
      · obtain ⟨k₂, h₂, h⟩ := Option.bind_eq_some_iff.mp h
        unfold Mutex.prvBlockTask at h₂
        rw [← Option.some.inj h]
        simp [kept_blockTask h₂]

/-- So does `os_mutex_unlock`. -/
theorem kept_osMutexUnlock {m : Addr} {r : Kernel × Status × Option TaskId}
    (h : osMutexUnlock k m = some r) : r.1.kept = k.kept := by
  obtain ⟨c, -, h⟩ := Option.bind_eq_some_iff.mp h
  dsimp only at h
  split at h
  · rw [← Option.some.inj h]
    rfl
  · split at h
    · rw [← Option.some.inj h]
      rfl
    · split at h <;> rw [← Option.some.inj h] <;> simp

/-! ## The tick -/

/-- Ticking one task keeps tally and stacks. -/
@[simp] theorem kept_tickTask (k : Kernel) (t : TaskId) : (tickTask k t).kept = k.kept := by
  unfold tickTask
  split
  · dsimp only
    split
    · rw [kept_osTaskAddToReady]
      split <;> simp
    · simp
  · rfl

/-- So does the walk over `blocked_list`. -/
theorem kept_tickWalk {fuel : Nat} {i : Option TaskId} (h : tickWalk fuel k i = some k') :
    k'.kept = k.kept := by
  induction fuel generalizing k i with
  | zero =>
      cases i with
      | none => exact congrArg Kernel.kept (Option.some.inj h).symm
      | some t => cases h
  | succ fuel ih =>
      cases i with
      | none => exact congrArg Kernel.kept (Option.some.inj h).symm
      | some t => exact (ih h).trans (kept_tickTask k t)

/-- Freeing control blocks. -/
theorem tally_freeDeferred {fuel : Nat} {i : Option TaskId} (h : freeDeferred fuel k i = some k') :
    k'.tally = { k.tally with live := k'.liveTcbs } := by
  induction fuel generalizing k i with
  | zero =>
      cases i with
      | none =>
          obtain rfl := Option.some.inj h
          rfl
      | some t => cases h
  | succ fuel ih =>
      cases i with
      | none =>
          obtain rfl := Option.some.inj h
          rfl
      | some t =>
          rw [freeDeferred] at h
          refine (ih h).trans ?_
          split <;> rfl

/-- **A tick** empties the deferred delete list, and frees nothing when it is empty. -/
theorem tally_osTaskTick (h : osTaskTick k = some k') :
    k'.tally = { k.tally with live := k'.liveTcbs, deferred := none } ∧
      (k.deferredDeleteList = none → k'.liveTcbs = k.liveTcbs) := by
  obtain ⟨k₁, k₂, h₁, hmark, h⟩ := osTaskTick_stages h
  have hl : k₂.tally = k.tally := by
    rw [← tally_of_kept (kept_tickWalk h₁)]
    rcases hmark with rfl | ⟨c, n, rfl⟩
    · rfl
    · exact tally_setTcb rfl
  have hdef : k₂.deferredDeleteList = k.deferredDeleteList := congrArg Tally.deferred hl
  refine ⟨?_, fun hnone => ?_⟩
  · rw [tally_freeDeferred h, ← hl]
    rfl
  · unfold osTaskProcessDeferredDelete at h
    dsimp only at h
    rw [show (osSchedEnterCritical k₂).deferredDeleteList = none from hdef.trans hnone] at h
    obtain rfl := Option.some.inj h
    exact congrArg Tally.live hl

/-! ## Selections -/

/-- The current task is RUNNING and does not head the highest ready list. -/
def Kernel.Charges (k : Kernel) : Prop :=
  ∃ c ∈ k.current, (k.tcb c).state = .running ∧ osTaskFindHighestReady k ≠ some c

/-- Whether a selection charges somebody can be decided. -/
instance (k : Kernel) : Decidable k.Charges := inferInstanceAs (Decidable (∃ c ∈ k.current, _))

/-- The tally after the ticks since the last switch have been charged to `c`. -/
def Tally.charge (l : Tally) (c : TaskId) : Tally :=
  { l with
    runTimes := Function.update l.runTimes c
      ((l.runTimes c + (l.systemTick + 2 ^ 32 - l.lastSwitchTick)) % 2 ^ 32)
    lastSwitchTick := l.systemTick }

/-- The tally after those ticks have been forgotten. -/
def Tally.forget (l : Tally) : Tally := { l with lastSwitchTick := l.systemTick }

/-- The run times after a switch are those that the charge leaves. -/
theorem tally_switchTo (k : Kernel) (n : TaskId) :
    (switchTo k n).tally = { k.tally with
      runTimes := fun t => (chargeCurrent k t).runTimeTicks
      lastSwitchTick := k.systemTick } := by
  have hrun : ∀ x, ((switchTo k n).tcb x).runTimeTicks = (chargeCurrent k x).runTimeTicks := by
    intro x
    show (Function.update (chargeCurrent k) n _ x).runTimeTicks = _
    rw [Function.update_apply]
    split
    · next hx => rw [hx]
    · rfl
  unfold Kernel.tally
  rw [funext hrun]
  rfl

/-- A switch from a RUNNING task charges it. -/
theorem tally_switchTo_running {c n : TaskId} (hc : k.current = some c)
    (hr : (k.tcb c).state = .running) : (switchTo k n).tally = k.tally.charge c := by
  have hrun : (fun t => (chargeCurrent k t).runTimeTicks) = (k.tally.charge c).runTimes := by
    funext x
    unfold Tally.charge
    simp only [chargeCurrent, hc, hr, if_true]
    rw [Function.update_apply, Function.update_apply]
    split <;> rfl
  rw [tally_switchTo, hrun]
  rfl

/-- A switch from any other task forgets the ticks. -/
theorem tally_switchTo_of_not_running {n : TaskId} (h : ∀ c ∈ k.current, (k.tcb c).state ≠ .running) :
    (switchTo k n).tally = k.tally.forget := by
  rw [tally_switchTo]
  have hcharge : chargeCurrent k = k.tcb := by
    unfold chargeCurrent
    split
    · rfl
    · next c hc => rw [if_neg (h c hc)]
  rw [hcharge]
  rfl

/-- **A selection** charges the ticks since the last one to a current task that is RUNNING and gives
way to another one. A current task that goes to the tail of its list has become READY before the
charge, and the ticks are forgotten. -/
theorem tally_osSchedSelectNext (k : Kernel) :
    (osSchedSelectNext k).tally = k.tally ∨
      (∃ c, k.current = some c ∧ k.Charges ∧ (osSchedSelectNext k).tally = k.tally.charge c) ∨
      ¬ k.Charges ∧ (osSchedSelectNext k).tally = k.tally.forget := by
  unfold osSchedSelectNext
  cases hfind : osTaskFindHighestReady k with
  | none => exact Or.inl rfl
  | some n =>
      dsimp only
      -- The current task comes first again: it is re-queued at the tail, and then whoever heads the
      -- list runs.
      by_cases hc : k.current = some n
      · rw [if_pos hc]
        have hnot : ¬ k.Charges := by
          rintro ⟨c, hc', -, hne⟩
          rw [Option.mem_def, hc] at hc'
          rw [hfind] at hne
          exact hne hc'
        -- re-queueing has made it ready, so the switch does not charge it: its ticks are forgotten
        have hready : ∀ c ∈ (osTaskAddToReady (osTaskRemoveFromReady k n) n).current,
            ((osTaskAddToReady (osTaskRemoveFromReady k n) n).tcb c).state ≠ .running := by
          intro c hc'
          have hcn : k.current = some c := hc'
          rw [hc] at hcn
          obtain rfl := Option.some.inj hcn
          show ((Function.update k.tcb n { k.tcb n with state := .ready }) n).state ≠ .running
          rw [Function.update_self]
          simp
        split
        · exact Or.inl (tally_of_kept (by simp))
        · refine Or.inr (Or.inr ⟨hnot, ?_⟩)
          rw [tally_switchTo_of_not_running hready, tally_of_kept (kept_osTaskAddToReady ..),
            tally_of_kept (kept_osTaskRemoveFromReady ..)]
      · rw [if_neg hc]
        -- another task comes first: the outgoing one is charged if it was running
        by_cases hrun : ∃ c ∈ k.current, (k.tcb c).state = .running
        · obtain ⟨c, hcur, hrun⟩ := hrun
          have hne : osTaskFindHighestReady k ≠ some c := by
            rw [hfind]
            rintro ⟨rfl⟩
            exact hc hcur
          exact Or.inr (Or.inl ⟨c, hcur, ⟨c, hcur, hrun, hne⟩, tally_switchTo_running hcur hrun⟩)
        · refine Or.inr (Or.inr ⟨fun ⟨c, hcur, hr, _⟩ => hrun ⟨c, hcur, hr⟩, ?_⟩)
          exact tally_switchTo_of_not_running fun c hcur hr => hrun ⟨c, hcur, hr⟩

/-! ## Creating a task -/

/-- The tally with a new task. -/
def Tally.addTask (l : Tally) (t : TaskId) : Tally :=
  { l with
    table := l.table ++ [t], live := l.live ++ [t], runTimes := Function.update l.runTimes t 0 }

/-- **A creation** enters the task at the end of the table, or fails and changes nothing. -/
theorem tally_osTaskCreate (k : Kernel) (a : CreateArgs) :
    (∃ t, (osTaskCreate k a).1 = .ok ∧ a.tcbBlock = some t ∧ k.taskTable.length < maxTasks ∧
        (osTaskCreate k a).2.2.tally = k.tally.addTask t) ∨
      (osTaskCreate k a).1 ≠ .ok ∧ (osTaskCreate k a).2.2.tally = k.tally ∧
        ((osTaskCreate k a).1 = .errFull → maxTasks ≤ k.taskTable.length) := by
  rcases osTaskCreate_cases k a with
    ⟨func, p, stack, t, -, -, hroom, -, -, ht, h⟩ | ⟨r, k', hr, hfull, hk', h⟩
  · rw [h]
    refine Or.inl ⟨t, rfl, ht, hroom, ?_⟩
    unfold initTask Tally.addTask
    rw [tally_of_kept (kept_osTaskAddToReady ..)]
    unfold Kernel.tally
    congr 1
    funext x
    show (Function.update k.tcb t _ x).runTimeTicks
      = Function.update (fun x => (k.tcb x).runTimeTicks) t 0 x
    rw [Function.update_apply, Function.update_apply]
    split <;> rfl
  · rw [h]
    refine Or.inr ⟨hr, ?_, hfull⟩
    rcases hk' with rfl | ⟨stack, -, rfl⟩ <;> rfl

/-- `os_task_create_suspended` does the same. -/
theorem tally_osTaskCreateSuspended (k : Kernel) (a : CreateArgs) :
    (osTaskCreateSuspended k a).1 = (osTaskCreate k a).1 ∧
      (osTaskCreateSuspended k a).2.2.tally = (osTaskCreate k a).2.2.tally := by
  unfold osTaskCreateSuspended
  split
  · next t k₁ heq =>
      rw [heq]
      exact ⟨rfl, tally_of_kept (kept_osTaskSuspend k₁ t)⟩
  · exact ⟨rfl, rfl⟩

/-! ## Steps -/

/-- The steps that write the tally: creations, deletions, ticks, selections, and foreign writes to
memory that holds no live control block. -/
def Op.booked : Op → Bool
  | .create _ | .createSuspended _ | .deleteSelf | .tick | .selectNext | .scribble .. => true
  | _ => false

/-- **Every other step leaves them alone.** -/
theorem step_kept (hop : op.booked = false) (h : step s op = some s') :
    s'.kernel.kept = s.kernel.kept := by
  cases op with
  | create a => cases hop
  | createSuspended a => cases hop
  | deleteSelf => cases hop
  | tick => cases hop
  | selectNext => cases hop
  | scribble t v nx pv => cases hop
  | suspend t =>
      obtain rfl := Option.some.inj h
      exact kept_osTaskSuspend s.kernel t
  | resume t =>
      obtain rfl := Option.some.inj h
      exact kept_osTaskResume s.kernel t
  | delay n =>
      obtain ⟨k, hk, rfl⟩ := Option.map_eq_some_iff.mp h
      exact kept_osTaskDelay hk
  | delayUntil a b =>
      obtain ⟨r, hr, rfl⟩ := Option.map_eq_some_iff.mp h
      exact kept_osTaskDelayUntil hr
  | notify t v =>
      obtain ⟨r, hr, rfl⟩ := Option.map_eq_some_iff.mp h
      exact kept_osTaskNotify hr
  | notifyFromIsr t v =>
      obtain rfl := Option.some.inj h
      exact kept_osTaskNotifyFromIsr s.kernel t v
  | notifyWait n =>
      obtain ⟨c, k, r, -, hr, rfl⟩ := Sys.blockingCall_inv h
      rw [Sys.kernel_outcome _ _ _ _ fun _ => rfl]
      exact kept_osTaskNotifyWait hr
  | semCreateCounting a m n =>
      obtain rfl := Option.some.inj h
      exact kept_osSemCreateCounting s.kernel a m n
  | semTake a n =>
      obtain ⟨c, k, r, -, hr, rfl⟩ := Sys.blockingCall_inv h
      rw [Sys.kernel_outcome _ _ _ _ fun _ => rfl]
      exact kept_osSemTake hr
  | semTakeFromIsr a =>
      obtain rfl := Option.some.inj h
      exact kept_osSemTakeFromIsr s.kernel a
  | semGive a =>
      obtain ⟨r, hr, rfl⟩ := Option.map_eq_some_iff.mp h
      exact kept_osSemGive hr
  | semGiveFromIsr a =>
      obtain rfl := Option.some.inj h
      exact kept_osSemGiveFromIsr s.kernel a
  | queueCreate q sz n b =>
      obtain rfl := Option.some.inj h
      exact kept_osQueueCreate s.kernel q sz n b
  | queueSend q item n =>
      obtain ⟨c, k, r, -, hr, rfl⟩ := Sys.blockingCall_inv h
      rw [Sys.kernel_outcome _ _ _ _ fun _ => rfl]
      exact kept_osQueueSend hr
  | queueSendFromIsr q item =>
      obtain rfl := Option.some.inj h
      exact kept_osQueueSendFromIsr s.kernel q item
  | queueReceive q n =>
      obtain ⟨c, k, r, -, hr, rfl⟩ := Sys.blockingCall_inv h
      rw [Sys.kernel_outcome _ _ _ _ fun _ => rfl]
      exact kept_osQueueReceive hr
  | queueReceiveFromIsr q =>
      obtain rfl := Option.some.inj h
      exact kept_osQueueReceiveFromIsr s.kernel q
  | mutexCreate m =>
      obtain rfl := Option.some.inj h
      rfl
  | mutexLock m n =>
      obtain ⟨c, k, r, -, hr, rfl⟩ := Sys.blockingCall_inv h
      rw [Sys.kernel_outcome _ _ _ _ fun _ => rfl]
      exact kept_osMutexLock hr
  -- the two events an unlock may emit leave the kernel alone
  | mutexUnlock m =>
      obtain ⟨c, -, h⟩ := Option.bind_eq_some_iff.mp h
      obtain ⟨⟨k, r, woken⟩, hr, h⟩ := Option.bind_eq_some_iff.mp h
      obtain rfl := Option.some.inj h
      have hl := kept_osMutexUnlock hr
      cases woken <;> exact hl
  | eventCreate e =>
      obtain rfl := Option.some.inj h
      rfl
  | eventWait e bits options n =>
      obtain ⟨c, k, r, -, hr, rfl⟩ := Sys.blockingCall_inv h
      rw [Sys.kernel_outcome _ _ _ _ fun _ => rfl]
      exact kept_osEventgroupWaitBits hr
  | eventSet e bits =>
      obtain ⟨r, hr, rfl⟩ := Option.map_eq_some_iff.mp h
      exact kept_osEventgroupSetBits hr
  | eventSetFromIsr e bits =>
      obtain ⟨r, hr, rfl⟩ := Option.map_eq_some_iff.mp h
      exact kept_osEventgroupSetBitsFromIsr hr
  | eventClear e bits =>
      obtain rfl := Option.some.inj h
      rfl
  | returnFromCall =>
      obtain ⟨c, -, h⟩ := Option.bind_eq_some_iff.mp h
      cases hcall : s.call c with
      | idle =>
          rw [hcall] at h
          cases h
      | notifyWait =>
          rw [hcall] at h
          obtain rfl := Option.some.inj h
          exact kept_osTaskNotifyWaitResume s.kernel c
      | _ =>
          rw [hcall] at h
          obtain rfl := Option.some.inj h
          rfl
  | writeStack a v =>
      obtain rfl := Option.some.inj h
      rfl

/-- A step that is not booked keeps the tally. -/
theorem step_tally (hop : op.booked = false) (h : step s op = some s') :
    s'.kernel.tally = s.kernel.tally := tally_of_kept (step_kept hop h)

end MiniRTOS
