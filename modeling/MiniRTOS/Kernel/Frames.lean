import MiniRTOS.Kernel.ListOps
import MiniRTOS.Kernel.SchedCalls
import MiniRTOS.Kernel.Queue
import MiniRTOS.Kernel.Semaphore
import MiniRTOS.Kernel.Mutex
import MiniRTOS.Kernel.EventGroup

/-! # What the calls leave alone

`Kernel.view` is what the queue and mutex properties look at: the rings of the queues and the owner
fields of the mutexes, both without wait lists, the priorities and saved stack pointers of the tasks,
the current task, and which control blocks are live. Whatever the lists look like, only the ring writes
of `queue.c`, the owner writes of `mutex.c`, `os_task_set_priority`, the selection of a task, its
creation and the deferred deletion change it. -/

namespace MiniRTOS

open PtrList

variable {k k' : Kernel} {t : TaskId} {w : WaitList}

/-- Rings, owners, priorities, stack pointers, the current task and the live control blocks. -/
structure View where
  /-- Every queue, without its wait lists. -/
  rings : Addr → Queue
  /-- Every mutex, without its wait list. -/
  locks : Addr → Mutex
  /-- Every priority. -/
  prios : TaskId → Prio
  /-- Every saved stack pointer. -/
  sps : TaskId → Nat
  /-- The current task. -/
  current : Option TaskId
  /-- The live control blocks. -/
  live : List TaskId

/-- The view of a kernel state. -/
def Kernel.view (k : Kernel) : View where
  rings q := { k.queues q with sendWaitList := none, recvWaitList := none }
  locks m := { k.mutexes m with waitList := none }
  prios := k.prio
  sps t := (k.tcb t).stackPtr
  current := k.current
  live := k.liveTcbs

/-- States that agree outside the lists have the same view. -/
theorem view_of_data (h : k'.data = k.data) : k'.view = k.view := by
  have hv := congrArg Kernel.view h
  exact hv

/-- A view in which every control block has the same priority and stack pointer. -/
theorem view_congr_tcb {n : Nat} (hp : k'.prio = k.prio)
    (hsp : ∀ x, (k'.tcb x).stackPtr = (k.tcb x).stackPtr)
    (hd : k'.data = { k with tcb := k'.tcb, current := k'.current, lastSwitchTick := n }.data) :
    k'.view = { k.view with current := k'.current } := by
  have hv := congrArg Kernel.view hd
  refine Eq.trans hv ?_
  unfold Kernel.view
  congr 1
  funext x
  exact hsp x

/-- Writing a control block without its priority and stack pointer. -/
@[simp] theorem view_setTcb {v : Tcb} (hp : v.priority = (k.tcb t).priority)
    (hsp : v.stackPtr = (k.tcb t).stackPtr) : (k.setTcb t v).view = k.view := by
  have hstack : ∀ x, ((k.setTcb t v).tcb x).stackPtr = (k.tcb x).stackPtr := by
    intro x
    show (Function.update k.tcb t v x).stackPtr = _
    rw [Function.update_apply]
    split
    · next hx => rw [hx, hsp]
    · rfl
  exact view_congr_tcb (prio_setTcb hp) hstack rfl

/-- Entering a critical section leaves rings, mutexes and priorities alone. -/
@[simp] theorem view_osSchedEnterCritical (k : Kernel) : (osSchedEnterCritical k).view = k.view := rfl

/-- So does leaving one. -/
@[simp] theorem view_osSchedExitCritical (k : Kernel) : (osSchedExitCritical k).view = k.view := rfl

/-- So does asking for a switch. -/
@[simp] theorem view_osSchedYield (k : Kernel) : (osSchedYield k).view = k.view := rfl

/-- So does asking for one from an interrupt. -/
@[simp] theorem view_osSchedRequestSwitchFromIsr (k : Kernel) :
    (osSchedRequestSwitchFromIsr k).view = k.view := rfl

/-- So does taking a task out of its ready list. -/
@[simp] theorem view_osTaskRemoveFromReady (k : Kernel) (t : TaskId) :
    (osTaskRemoveFromReady k t).view = k.view := rfl

/-- So does taking a task out of `blocked_list`. -/
@[simp] theorem view_osTaskRemoveFromBlocked (k : Kernel) (t : TaskId) :
    (osTaskRemoveFromBlocked k t).view = k.view := rfl

/-- So does making a task ready. -/
@[simp] theorem view_osTaskAddToReady (k : Kernel) (t : TaskId) :
    (osTaskAddToReady k t).view = k.view :=
  (view_of_data (data_osTaskAddToReady k t)).trans (view_setTcb rfl rfl)

/-- So does blocking a task. -/
@[simp] theorem view_osTaskAddToBlocked (k : Kernel) (t : TaskId) (n : Nat) :
    (osTaskAddToBlocked k t n).view = k.view :=
  (view_of_data (data_osTaskAddToBlocked k t n)).trans (view_setTcb rfl rfl)

/-! ## Wait lists -/

/-- So does taking a task out of a wait list. -/
@[simp] theorem view_unblockTask (k : Kernel) (w : WaitList) (t : TaskId) :
    (unblockTask k w t).view = k.view :=
  (view_of_data (data_unblockTask k w t)).trans (view_setTcb rfl rfl)

/-- Blocking, wherever the walk ends. -/
theorem view_blockTask {timeout : Nat} {reason : BlockedReason} {owner : Obj}
    (h : blockTask k w t timeout reason owner = some k') : k'.view = k.view := by
  unfold blockTask at h
  obtain ⟨⟨prev, iter⟩, -, hk⟩ := Option.bind_eq_some_iff.mp h
  obtain rfl := Option.some.inj hk
  rw [view_of_data (data_linkWaiter _ w t prev iter)]
  simp

/-- Waking the first waiter leaves the view alone. -/
@[simp] theorem view_wakeTask (k : Kernel) (w : WaitList) : (wakeTask k w).2.view = k.view := by
  unfold wakeTask
  split
  · rfl
  · simp

/-! ## Scheduling and the tick -/

/-- The view in which another task is current. -/
def View.setCurrent (v : View) (c : Option TaskId) : View := { v with current := c }

/-- Switching sets the current task, and nothing else of the view. -/
theorem view_switchTo (k : Kernel) (n : TaskId) : (switchTo k n).view = k.view.setCurrent (some n) := by
  have hs := switchTo_switched k n
  have hprio : (switchTo k n).prio = k.prio := by
    funext x
    rw [Kernel.prio, hs.same x]
    rfl
  exact view_congr_tcb hprio (fun x => by rw [hs.same x]) hs.data

/-- `os_sched_select_next` changes the current task only. -/
theorem view_osSchedSelectNext (k : Kernel) :
    (osSchedSelectNext k).view = k.view.setCurrent (osSchedSelectNext k).current := by
  have hself : ∀ k' : Kernel, k'.view = k.view → k'.view = k.view.setCurrent k'.current := by
    intro k' hv
    have hc : k'.current = k.current := congrArg View.current hv
    rw [hv, hc]
    rfl
  unfold osSchedSelectNext
  split
  · rfl
  · split
    · dsimp only
      split
      · exact hself _ (by rw [view_osTaskAddToReady, view_osTaskRemoveFromReady])
      · rw [view_switchTo, view_osTaskAddToReady, view_osTaskRemoveFromReady]
        rfl
    · rw [view_switchTo]
      rfl

/-- Ticking one task leaves the view alone. -/
@[simp] theorem view_tickTask (k : Kernel) (t : TaskId) : (tickTask k t).view = k.view := by
  unfold tickTask
  split
  · dsimp only
    split
    · rw [view_osTaskAddToReady]
      split <;> simp
    · simp
  · rfl

/-- So does the walk over `blocked_list`. -/
theorem view_tickWalk {fuel : Nat} {i : Option TaskId} (h : tickWalk fuel k i = some k') :
    k'.view = k.view := by
  induction fuel generalizing k i with
  | zero =>
      cases i with
      | none => exact congrArg Kernel.view (Option.some.inj h).symm
      | some t => cases h
  | succ fuel ih =>
      cases i with
      | none => exact congrArg Kernel.view (Option.some.inj h).symm
      | some t => exact (ih h).trans (view_tickTask k t)

/-- The view in which other control blocks are live. -/
def View.setLive (v : View) (l : List TaskId) : View := { v with live := l }

/-- Deferred deletion only frees control blocks. -/
theorem view_freeDeferred {fuel : Nat} {i : Option TaskId} (h : freeDeferred fuel k i = some k') :
    ∃ l, l ⊆ k.liveTcbs ∧ k'.view = k.view.setLive l := by
  induction fuel generalizing k i with
  | zero =>
      cases i with
      | none =>
          obtain rfl := Option.some.inj h
          exact ⟨_, List.Subset.refl _, rfl⟩
      | some t => cases h
  | succ fuel ih =>
      cases i with
      | none =>
          obtain rfl := Option.some.inj h
          exact ⟨_, List.Subset.refl _, rfl⟩
      | some t =>
          rw [freeDeferred] at h
          obtain ⟨l, hl, hv⟩ := ih h
          split at hl
          all_goals exact ⟨l, fun x hx => List.mem_of_mem_erase (hl hx), by rw [hv]; split <;> rfl⟩

/-- The stack check halts or changes nothing. -/
theorem osTaskCheckStackOverflow_eq (h : osTaskCheckStackOverflow k = some k') : k' = k := by
  unfold osTaskCheckStackOverflow at h
  split at h
  · exact (Option.some.inj h).symm
  · split at h
    · exact (Option.some.inj h).symm
    · cases h

/-- **The three stages of a tick**: the walk over the blocked list, the high-water mark of the
current task, and the deferred deletions. -/
theorem osTaskTick_stages (h : osTaskTick k = some k') :
    ∃ k₁ k₂, tickWalk maxTasks k k.blockedList = some k₁ ∧
      (k₂ = k₁ ∨ ∃ c n, k₂ = k₁.setTcb c { k₁.tcb c with stackHighWater := n }) ∧
      osTaskProcessDeferredDelete k₂ = some k' := by
  unfold osTaskTick at h
  obtain ⟨k₁, h₁, h⟩ := Option.bind_eq_some_iff.mp h
  obtain ⟨k₂, h₂, h⟩ := Option.bind_eq_some_iff.mp h
  obtain rfl := osTaskCheckStackOverflow_eq h₂
  exact ⟨k₁, _, h₁, updateHighWater_cases k₁, h⟩

/-- A tick of the tasks frees control blocks, and changes nothing else of the view. -/
theorem view_osTaskTick (h : osTaskTick k = some k') :
    ∃ l, l ⊆ k.liveTcbs ∧ k'.view = k.view.setLive l := by
  obtain ⟨k₁, k₂, h₁, hmark, h⟩ := osTaskTick_stages h
  have hview : k₂.view = k.view := by
    rw [← view_tickWalk h₁]
    rcases hmark with rfl | ⟨c, n, rfl⟩
    · rfl
    · exact view_setTcb rfl rfl
  have hlive : k₂.liveTcbs = k.liveTcbs := congrArg View.live hview
  obtain ⟨l, hl, hv⟩ := view_freeDeferred h
  refine ⟨l, fun x hx => hlive ▸ hl hx, hv.trans ?_⟩
  show k₂.view.setLive l = k.view.setLive l
  rw [hview]

/-! ## Calls -/

/-- A conditional yield changes no view. -/
@[simp] theorem view_yieldIf (k : Kernel) (b : Prop) [Decidable b] :
    (if b then osSchedYield k else k).view = k.view := by
  split <;> rfl

/-- A conditional switch request changes no view. -/
@[simp] theorem view_requestSwitchIf (k : Kernel) (b : Prop) [Decidable b] :
    (if b then osSchedRequestSwitchFromIsr k else k).view = k.view := by
  split <;> rfl

/-- Suspending a task leaves the view alone. -/
@[simp] theorem view_osTaskSuspend (k : Kernel) (t : TaskId) : (osTaskSuspend k t).view = k.view := by
  unfold osTaskSuspend
  by_cases hs : ((osSchedEnterCritical k).tcb t).state = .ready ∨
      ((osSchedEnterCritical k).tcb t).state = .running
  · simp only [if_pos hs, view_yieldIf, view_osSchedExitCritical]
    simp
  · simp only [if_neg hs, view_yieldIf, view_osSchedExitCritical, view_osSchedEnterCritical]

/-- So does resuming it. -/
@[simp] theorem view_osTaskResume (k : Kernel) (t : TaskId) : (osTaskResume k t).view = k.view := by
  unfold osTaskResume
  dsimp only
  split
  · rw [view_osSchedExitCritical, view_osTaskAddToReady, view_osSchedEnterCritical]
  · rfl

/-- So does a delay. -/
theorem view_osTaskDelay {n : Nat} (h : osTaskDelay k n = some k') : k'.view = k.view := by
  unfold osTaskDelay at h
  split at h
  · rw [← Option.some.inj h, view_osSchedYield]
  · obtain ⟨c, -, h⟩ := Option.bind_eq_some_iff.mp h
    rw [← Option.some.inj h, view_osSchedYield, view_osSchedExitCritical, view_osTaskAddToBlocked,
      view_osSchedEnterCritical]

/-- So does a periodic delay. -/
theorem view_osTaskDelayUntil {a b : Nat} {r : Status × Nat × Kernel}
    (h : osTaskDelayUntil k a b = some r) : r.2.2.view = k.view := by
  unfold osTaskDelayUntil at h
  split at h
  · rw [← Option.some.inj h]
  · dsimp only at h
    split at h
    · obtain ⟨k₁, h₁, h⟩ := Option.bind_eq_some_iff.mp h
      rw [← Option.some.inj h]
      exact view_osTaskDelay h₁
    · rw [← Option.some.inj h]

/-- So does a task that deletes itself: its control block is freed later. -/
theorem view_osTaskDeleteSelf (h : osTaskDeleteSelf k = some k') : k'.view = k.view := by
  unfold osTaskDeleteSelf at h
  obtain ⟨c, -, h⟩ := Option.bind_eq_some_iff.mp h
  obtain rfl := Option.some.inj h
  have hview := view_setTcb (k := osTaskRemoveFromReady (osSchedEnterCritical k) c) (t := c)
    (v := { (osTaskRemoveFromReady (osSchedEnterCritical k) c).tcb c with
      state := .deleted, pendingDelete := true }) rfl rfl
  exact hview

/-- So does giving a notification. -/
@[simp] theorem view_notifyTask (k : Kernel) (t : TaskId) (v : BitVec 32) :
    (notifyTask k t v).2.view = k.view := by
  unfold notifyTask
  dsimp only
  split
  · simp
  · simp

/-- So does notifying a task. -/
theorem view_osTaskNotify {v : BitVec 32} {r : Kernel × Status}
    (h : osTaskNotify k t v = some r) : r.1.view = k.view := by
  unfold osTaskNotify at h
  dsimp only at h
  split at h
  · obtain ⟨c, -, h⟩ := Option.bind_eq_some_iff.mp h
    rw [← Option.some.inj h]
    dsimp only
    split <;> simp
  · rw [← Option.some.inj h]
    simp

/-- So does notifying one from an interrupt. -/
@[simp] theorem view_osTaskNotifyFromIsr (k : Kernel) (t : TaskId) (v : BitVec 32) :
    (osTaskNotifyFromIsr k t v).1.view = k.view := by
  unfold osTaskNotifyFromIsr
  dsimp only
  split <;> simp

/-- So does waiting for a notification. -/
theorem view_osTaskNotifyWait {n : Nat} {r : Kernel × Outcome (Status × Option (BitVec 32))}
    (h : osTaskNotifyWait k n = some r) : r.1.view = k.view := by
  unfold osTaskNotifyWait at h
  obtain ⟨c, -, h⟩ := Option.bind_eq_some_iff.mp h
  dsimp only at h
  split at h
  · rw [← Option.some.inj h]
    simp [takeNotification]
  · split at h
    · rw [← Option.some.inj h]
      rfl
    · rw [← Option.some.inj h]
      simp

/-- So does returning from that wait. -/
@[simp] theorem view_osTaskNotifyWaitResume (k : Kernel) (c : TaskId) :
    (osTaskNotifyWaitResume k c).1.view = k.view := by
  unfold osTaskNotifyWaitResume
  split
  · simp [takeNotification]
  · rfl

/-! ## Semaphores and event groups -/

/-- Event groups are no part of the view. -/
@[simp] theorem view_setEventGroup (k : Kernel) (e : Addr) (v : EventGroup) :
    (k.setEventGroup e v).view = k.view := rfl

/-- Semaphores are no part of it, either. -/
@[simp] theorem view_osSemCreateCounting (k : Kernel) (a : Addr) (m n : Nat) :
    (osSemCreateCounting k a m n).2.view = k.view := by
  unfold osSemCreateCounting
  split
  · rfl
  · split <;> rfl

/-- Taking a semaphore leaves the view alone. -/
theorem view_osSemTake {a : Addr} {n : Nat} {r : Kernel × Outcome Status}
    (h : osSemTake k a n = some r) : r.1.view = k.view := by
  unfold osSemTake at h
  dsimp only at h
  split at h
  · rw [← Option.some.inj h]
    rfl
  · split at h
    · rw [← Option.some.inj h]
      rfl
    · obtain ⟨c, k₂, -, h₂, rfl⟩ := sleep_inv h
      simp [view_blockTask h₂]

/-- So does taking one from an interrupt. -/
@[simp] theorem view_osSemTakeFromIsr (k : Kernel) (a : Addr) :
    (osSemTakeFromIsr k a).1.view = k.view := by
  unfold osSemTakeFromIsr
  dsimp only
  split <;> rfl

/-- So does giving one. -/
theorem view_osSemGive {a : Addr} {r : Kernel × Status} (h : osSemGive k a = some r) :
    r.1.view = k.view := by
  have hw := view_wakeTask (osSchedEnterCritical k) (.sem a)
  unfold osSemGive Sem.prvWakeTask at h
  dsimp only at h
  split at h
  · next x k₂ heq =>
      rw [heq] at hw
      obtain ⟨c, -, h⟩ := Option.bind_eq_some_iff.mp h
      rw [← Option.some.inj h]
      simpa using hw
  · split at h
    · rw [← Option.some.inj h]
      rfl
    · rw [← Option.some.inj h]
      rfl

/-- So does giving one from an interrupt. -/
@[simp] theorem view_osSemGiveFromIsr (k : Kernel) (a : Addr) :
    (osSemGiveFromIsr k a).1.view = k.view := by
  have hw := view_wakeTask (osSchedEnterCritical k) (.sem a)
  unfold osSemGiveFromIsr Sem.prvWakeTask
  dsimp only
  split
  · next x k₂ heq =>
      rw [heq] at hw
      simpa using hw
  · split <;> rfl

/-- So does waking one waiter of an event group. -/
@[simp] theorem view_wakeWaiter (k : Kernel) (e : Addr) (t : TaskId) :
    (EventGroup.wakeWaiter k e t).view = k.view := by
  unfold EventGroup.wakeWaiter
  dsimp only
  rw [view_osTaskAddToReady]
  split <;> simp

/-- So does the walk over the waiters of an event group. -/
theorem view_wakeWalk {e : Addr} {fuel : Nat} {woken : List TaskId} {i : Option TaskId}
    {r : Kernel × List TaskId} (h : EventGroup.wakeWalk e fuel k woken i = some r) :
    r.1.view = k.view := by
  induction fuel generalizing k woken i with
  | zero =>
      cases i with
      | none => exact congrArg (fun r => r.1.view) (Option.some.inj h).symm
      | some t => cases h
  | succ fuel ih =>
      cases i with
      | none => exact congrArg (fun r => r.1.view) (Option.some.inj h).symm
      | some t =>
          rw [EventGroup.wakeWalk] at h
          split at h
          · exact (ih h).trans (view_wakeWaiter k e t)
          · exact ih h

/-- So does setting bits with that walk. -/
theorem view_setAndWake {e : Addr} {bits : BitVec 32} {r : Kernel × List TaskId}
    (h : EventGroup.setAndWake k e bits = some r) : r.1.view = k.view :=
  (view_wakeWalk h).trans (view_setEventGroup ..)

/-- So does `os_eventgroup_set_bits`. -/
theorem view_osEventgroupSetBits {e : Addr} {bits : BitVec 32} {r : Kernel × Status}
    (h : osEventgroupSetBits k e bits = some r) : r.1.view = k.view := by
  unfold osEventgroupSetBits at h
  obtain ⟨⟨k₁, woken⟩, h₁, h⟩ := Option.bind_eq_some_iff.mp h
  have hv := view_setAndWake h₁
  dsimp only at h hv
  split at h
  · rw [← Option.some.inj h]
    exact hv
  · obtain ⟨c, -, h⟩ := Option.bind_eq_some_iff.mp h
    rw [← Option.some.inj h]
    simpa using hv

/-- So does `os_eventgroup_set_bits_from_isr`. -/
theorem view_osEventgroupSetBitsFromIsr {e : Addr} {bits : BitVec 32} {r : Kernel × Status}
    (h : osEventgroupSetBitsFromIsr k e bits = some r) : r.1.view = k.view := by
  unfold osEventgroupSetBitsFromIsr at h
  obtain ⟨⟨k₁, woken⟩, h₁, h⟩ := Option.bind_eq_some_iff.mp h
  have hv := view_setAndWake h₁
  rw [← Option.some.inj h]
  dsimp only at hv ⊢
  split <;> exact hv

/-- So does waiting for bits. -/
theorem view_osEventgroupWaitBits {e : Addr} {bits options : BitVec 32} {n : Nat}
    {r : Kernel × Outcome (BitVec 32)} (h : osEventgroupWaitBits k e bits options n = some r) :
    r.1.view = k.view := by
  unfold osEventgroupWaitBits at h
  dsimp only at h
  split at h
  · rw [← Option.some.inj h]
    dsimp only
    rw [view_osSchedExitCritical]
    split <;> rfl
  · split at h
    · rw [← Option.some.inj h]
      rfl
    · obtain ⟨c, k₂, -, h₂, rfl⟩ := sleep_inv h
      unfold EventGroup.prvBlockTask at h₂
      simp [view_blockTask h₂]

/-! ## Creating a task -/

/-- The view with a new task. -/
def View.addTask (v : View) (t : TaskId) (p : Prio) (sp : Nat) : View :=
  { v with
    prios := Function.update v.prios t p, sps := Function.update v.sps t sp, live := v.live ++ [t] }

/-- `os_task_create` sets the priority and the stack pointer of the new task. -/
theorem view_osTaskCreate (k : Kernel) (a : CreateArgs) :
    (∃ t p sp, (osTaskCreate k a).1 = .ok ∧ a.tcbBlock = some t ∧ p.val = a.priority ∧
        (osTaskCreate k a).2.2.view = k.view.addTask t p sp ∧
        (∀ x ∈ (osTaskCreate k a).2.1, x = t)) ∨
      (osTaskCreate k a).1 ≠ .ok ∧ (osTaskCreate k a).2.2.view = k.view := by
  rcases osTaskCreate_cases k a with
    ⟨func, p, stack, t, -, hp, -, -, -, ht, h⟩ | ⟨r, k', hr, -, hk', h⟩
  · rw [h]
    refine Or.inl ⟨t, p, (osPortStackInit (prvFillStack k.stackMem stack a.stackSize) func a.param
      stack a.stackSize).1, rfl, ht, hp, ?_, fun x hx => CreateArgs.handle_eq hx⟩
    unfold initTask View.addTask
    rw [view_osTaskAddToReady]
    unfold Kernel.view
    congr 1
    · funext x
      show (Function.update k.tcb t _ x).priority = Function.update k.prio t _ x
      rw [Function.update_apply, Function.update_apply]
      split <;> rfl
    · funext x
      show (Function.update k.tcb t _ x).stackPtr
        = Function.update (fun x => (k.tcb x).stackPtr) t _ x
      rw [Function.update_apply, Function.update_apply]
      split <;> rfl
  · rw [h]
    refine Or.inr ⟨hr, ?_⟩
    rcases hk' with rfl | ⟨stack, -, rfl⟩ <;> rfl

/-- `os_task_create_suspended` sets it in the same way. -/
theorem view_osTaskCreateSuspended (k : Kernel) (a : CreateArgs) :
    (osTaskCreateSuspended k a).1 = (osTaskCreate k a).1 ∧
      (osTaskCreateSuspended k a).2.2.view = (osTaskCreate k a).2.2.view := by
  unfold osTaskCreateSuspended
  split
  · next t k₁ heq =>
      rw [heq]
      exact ⟨rfl, view_osTaskSuspend k₁ t⟩
  · exact ⟨rfl, rfl⟩

/-! ## Queues -/

/-- Writing a queue. -/
theorem view_setQueue (k : Kernel) (q : Addr) (v : Queue) :
    (k.setQueue q v).view
      = { k.view with
          rings := Function.update k.view.rings q
            { v with sendWaitList := none, recvWaitList := none } } := by
  unfold Kernel.view
  congr 1
  funext x
  show ({ Function.update k.queues q v x with sendWaitList := none, recvWaitList := none } : Queue) = _
  rw [Function.update_apply, Function.update_apply]
  split <;> rfl

/-- The view after a ring write. -/
def View.setRing (v : View) (q : Addr) (qu : Queue) : View :=
  { v with rings := Function.update v.rings q qu }

/-- The request to switch to a task that a queue call woke leaves the view alone. -/
theorem view_preempt {woken : Option TaskId} (h : Queue.preempt k woken = some k') :
    k'.view = k.view := by
  unfold Queue.preempt at h
  split at h
  · exact congrArg Kernel.view (Option.some.inj h).symm
  · obtain ⟨c, -, h⟩ := Option.bind_eq_some_iff.mp h
    rw [← Option.some.inj h]
    simp

/-- The calls of both directions: one that is served rewrites the ring, another changes no view. -/
theorem view_exchange {α : Type} {q : Addr} {p : Prop} [Decidable p] {qu : Queue} {w w' : WaitList}
    {a b : α} {n : Nat} {r : Kernel × Outcome α}
    (h : Queue.exchange k q p qu w w' a b n = some r) :
    (p ∧ r.2 = .done a ∧
        r.1.view = k.view.setRing q { qu with sendWaitList := none, recvWaitList := none }) ∨
      ((r.2 = .done b ∨ r.2 = .blocked) ∧ r.1.view = k.view) := by
  rcases Queue.exchange_cases h with ⟨hp, k', hk', rfl⟩ | ⟨-, rfl⟩ | ⟨-, c, k', -, hk', rfl⟩
  · refine Or.inl ⟨hp, rfl, ?_⟩
    dsimp only
    rw [view_preempt hk', view_osSchedExitCritical, view_wakeTask, view_setQueue]
    rfl
  · exact Or.inr ⟨Or.inl rfl, rfl⟩
  · have hv : k'.view = (osSchedEnterCritical k).view := view_blockTask hk'
    exact Or.inr ⟨Or.inr rfl, hv⟩

/-- **`os_queue_send`** either puts the item and returns OK, or leaves the ring alone. -/
theorem view_osQueueSend {q : Addr} {item : ByteMemory.Mem} {n : Nat} {r : Kernel × Outcome Status}
    (h : osQueueSend k q item n = some r) :
    ((k.view.rings q).count < (k.view.rings q).maxItems ∧ r.2 = .done .ok ∧
        r.1.view = k.view.setRing q ((k.view.rings q).put item)) ∨
      (r.2 ≠ .done .ok ∧ r.1.view = k.view) := by
  rw [osQueueSend_eq_exchange] at h
  rcases view_exchange h with ⟨hroom, hr, hv⟩ | ⟨hr, hv⟩
  · exact Or.inl ⟨hroom, hr, hv⟩
  · exact Or.inr ⟨by rcases hr with hr | hr <;> simp [hr], hv⟩

/-- `os_queue_send_from_isr` likewise. -/
theorem view_osQueueSendFromIsr (k : Kernel) (q : Addr) (item : ByteMemory.Mem) :
    ((k.view.rings q).count < (k.view.rings q).maxItems ∧ (osQueueSendFromIsr k q item).2 = .ok ∧
        (osQueueSendFromIsr k q item).1.view = k.view.setRing q ((k.view.rings q).put item)) ∨
      ((osQueueSendFromIsr k q item).2 ≠ .ok ∧ (osQueueSendFromIsr k q item).1.view = k.view) := by
  unfold osQueueSendFromIsr
  dsimp only
  split
  · next hroom =>
      refine Or.inl ⟨hroom, rfl, ?_⟩
      rw [view_requestSwitchIf, view_osSchedExitCritical, Queue.prvWakeTask, view_wakeTask,
        view_setQueue]
      rfl
  · exact Or.inr ⟨by simp, rfl⟩

/-- **`os_queue_receive`** either takes the first item and returns it, or leaves the ring alone. -/
theorem view_osQueueReceive {q : Addr} {n : Nat}
    {r : Kernel × Outcome (Status × Option (List UInt8))} (h : osQueueReceive k q n = some r) :
    (0 < (k.view.rings q).count ∧ r.2 = .done (.ok, some (k.view.rings q).front) ∧
        r.1.view = k.view.setRing q (k.view.rings q).pop) ∨
      ((∀ o, r.2 ≠ .done (.ok, o)) ∧ r.1.view = k.view) := by
  rw [osQueueReceive_eq_exchange] at h
  rcases view_exchange h with ⟨hitem, hr, hv⟩ | ⟨hr, hv⟩
  · exact Or.inl ⟨hitem, hr, hv⟩
  · exact Or.inr ⟨by rcases hr with hr | hr <;> simp [hr], hv⟩

/-- `os_queue_receive_from_isr` likewise. -/
theorem view_osQueueReceiveFromIsr (k : Kernel) (q : Addr) :
    (0 < (k.view.rings q).count ∧
        (osQueueReceiveFromIsr k q).2 = (.ok, some (k.view.rings q).front) ∧
        (osQueueReceiveFromIsr k q).1.view = k.view.setRing q (k.view.rings q).pop) ∨
      ((osQueueReceiveFromIsr k q).2.1 ≠ .ok ∧ (osQueueReceiveFromIsr k q).1.view = k.view) := by
  unfold osQueueReceiveFromIsr
  dsimp only
  split
  · next hitem =>
      refine Or.inl ⟨hitem, rfl, ?_⟩
      rw [view_requestSwitchIf, view_osSchedExitCritical, Queue.prvWakeTask, view_wakeTask,
        view_setQueue]
      rfl
  · exact Or.inr ⟨by simp, rfl⟩

/-! ## Mutexes -/

/-- The view after a priority change. -/
def View.setPrio (v : View) (t : TaskId) (p : Prio) : View :=
  { v with prios := Function.update v.prios t p }

/-- The view after an owner write. -/
def View.setLock (v : View) (m : Addr) (mu : Mutex) : View :=
  { v with locks := Function.update v.locks m mu }

/-- The mutexes after one has been written. -/
theorem View.locks_setLock (v : View) (m x : Addr) (mu : Mutex) :
    (v.setLock m mu).locks x = if x = m then mu else v.locks x := Function.update_apply ..

/-- The priorities after one has been written. -/
theorem View.prios_setPrio (v : View) (t x : TaskId) (p : Prio) :
    (v.setPrio t p).prios x = if x = t then p else v.prios x := Function.update_apply ..

/-- Writing a mutex. -/
theorem view_setMutex (k : Kernel) (m : Addr) (v : Mutex) :
    (k.setMutex m v).view = k.view.setLock m { v with waitList := none } := by
  unfold Kernel.view View.setLock
  congr 1
  funext x
  show ({ Function.update k.mutexes m v x with waitList := none } : Mutex) = _
  rw [Function.update_apply, Function.update_apply]
  split <;> rfl

/-- Writing the priority of a control block. -/
theorem view_setTcb_prio (k : Kernel) (t : TaskId) (p : Prio) :
    (k.setTcb t { k.tcb t with priority := p }).view = k.view.setPrio t p := by
  unfold Kernel.view View.setPrio
  congr 1
  · funext x
    show (Function.update k.tcb t _ x).priority = Function.update k.prio t p x
    rw [Function.update_apply, Function.update_apply]
    split <;> rfl
  · funext x
    show (Function.update k.tcb t _ x).stackPtr = _
    rw [Function.update_apply]
    split
    · next hx => rw [hx]
    · rfl

/-- `os_task_set_priority` sets one priority, in either of its branches. -/
theorem view_osTaskSetPriority (k : Kernel) (t : TaskId) (p : Prio) :
    (osTaskSetPriority k t p).view = k.view.setPrio t p := by
  unfold osTaskSetPriority
  dsimp only
  split
  · rw [view_osSchedExitCritical, view_osTaskAddToReady, view_setTcb_prio,
      view_osTaskRemoveFromReady, view_osSchedEnterCritical]
  · rw [view_osSchedExitCritical, view_setTcb_prio, view_osSchedEnterCritical]

/-- `prv_boost_priority` raises the owner to a more urgent priority. -/
theorem view_prvBoostPriority (k : Kernel) (m : Addr) (p : Prio) :
    (Mutex.prvBoostPriority k m p).view
      = match (k.view.locks m).owner with
        | none => k.view
        | some o => if p < k.view.prios o then k.view.setPrio o p else k.view := by
  have howner : (k.mutexes m).owner = (k.view.locks m).owner := rfl
  unfold Mutex.prvBoostPriority
  rw [howner]
  cases (k.view.locks m).owner with
  | none => rfl
  | some o =>
      dsimp only
      have hprio : k.prio o = k.view.prios o := rfl
      rw [hprio]
      split
      · exact view_osTaskSetPriority k o p
      · rfl

/-- **`os_mutex_lock`** takes a free mutex, counts a recursive lock, or boosts the owner and then
blocks or gives up. -/
theorem view_osMutexLock {m : Addr} {n : Nat} {r : Kernel × Outcome Status} {c : TaskId}
    (hc : k.current = some c) (h : osMutexLock k m n = some r) :
    ((k.view.locks m).owner = none ∧ r.2 = .done .ok ∧
        r.1.view = k.view.setLock m
          { k.view.locks m with owner := some c, lockCount := 1, originalPrio := k.view.prios c }) ∨
      ((k.view.locks m).owner = some c ∧ r.2 = .done .ok ∧
        r.1.view = k.view.setLock m
          { k.view.locks m with lockCount := ((k.view.locks m).lockCount + 1) % 2 ^ 32 }) ∨
      (∃ o, (k.view.locks m).owner = some o ∧ o ≠ c ∧ r.2 ≠ .done .ok ∧
        r.1.view = if k.view.prios c < k.view.prios o then k.view.setPrio o (k.view.prios c)
          else k.view) := by
  unfold osMutexLock at h
  dsimp only at h
  have hcur : (osSchedEnterCritical k).current = some c := hc
  rw [hcur] at h
  dsimp only [Option.bind_eq_bind, Option.bind_some] at h
  split at h
  · next ho =>
      have ho' : (k.view.locks m).owner = none := ho
      rw [← Option.some.inj h]
      refine Or.inl ⟨ho', rfl, ?_⟩
      rw [view_osSchedExitCritical, view_setMutex]
      rfl
  · next o ho =>
      have ho' : (k.view.locks m).owner = some o := ho
      right
      split at h
      · next heq =>
          subst heq
          rw [← Option.some.inj h]
          refine Or.inl ⟨ho', rfl, ?_⟩
          rw [view_osSchedExitCritical, view_setMutex]
          rfl
      · next hne =>
          right
          have hboost := view_prvBoostPriority (osSchedEnterCritical k) m
            ((osSchedEnterCritical k).prio c)
          have hview : (osSchedEnterCritical k).view = k.view := rfl
          have hprio : (osSchedEnterCritical k).prio c = k.view.prios c := rfl
          rw [hview, ho', hprio] at hboost
          refine ⟨o, ho', hne, ?_⟩
          split at h
          · rw [← Option.some.inj h]
            exact ⟨by simp, hboost⟩
          · obtain ⟨k₃, h₃, h⟩ := Option.bind_eq_some_iff.mp h
            rw [← Option.some.inj h]
            refine ⟨by simp, ?_⟩
            have hv : k₃.view = _ := view_blockTask h₃
            exact hv.trans hboost

/-- Whom the release of a mutex wakes. -/
theorem wakeTask_fst (k : Kernel) (w : WaitList) : (wakeTask k w).1 = k.waitHead w := by
  unfold wakeTask
  split
  · next h => exact h.symm
  · next t h => exact h.symm

/-- Changing a priority changes no wait list head. -/
theorem waitHead_osTaskSetPriority (k : Kernel) (t : TaskId) (p : Prio) (w : WaitList) :
    (osTaskSetPriority k t p).waitHead w = k.waitHead w := by
  unfold osTaskSetPriority
  dsimp only
  split <;> cases w <;> rfl

/-- The view after `prv_wake_and_transfer`. -/
theorem view_prvWakeAndTransfer (k : Kernel) (m : Addr) :
    (Mutex.prvWakeAndTransfer k m).1 = k.waitHead (.mutex m) ∧
      (Mutex.prvWakeAndTransfer k m).2.view
        = match k.waitHead (.mutex m) with
          | none => k.view
          | some w => k.view.setLock m
              { k.view.locks m with owner := some w, lockCount := 1, originalPrio := k.view.prios w } := by
  have hfst := wakeTask_fst k (.mutex m)
  have hview := view_wakeTask k (.mutex m)
  unfold Mutex.prvWakeAndTransfer
  split
  · next k₁ heq =>
      rw [heq] at hfst hview
      rw [← hfst]
      exact ⟨rfl, hview⟩
  · next t k₁ heq =>
      rw [heq] at hfst hview
      rw [← hfst]
      refine ⟨rfl, ?_⟩
      have hlock : ({ k₁.mutexes m with waitList := none } : Mutex) = k.view.locks m :=
        congrArg (fun v => v.locks m) hview
      have hprio : k₁.prio t = k.view.prios t := congrArg (fun v => v.prios t) hview
      dsimp only at hview ⊢
      rw [view_setMutex, hview, hprio, ← hlock]

/-- **`os_mutex_unlock`** refuses a caller that is not the owner, counts down a recursive lock, or
restores the owner's priority and hands the mutex to the first waiter. -/
theorem view_osMutexUnlock {m : Addr} {r : Kernel × Status × Option TaskId} {c : TaskId}
    (hc : k.current = some c) (h : osMutexUnlock k m = some r) :
    ((k.view.locks m).owner ≠ some c ∧ r.2 = (.errState, none) ∧ r.1.view = k.view) ∨
      ((k.view.locks m).owner = some c ∧
        0 < ((k.view.locks m).lockCount + (2 ^ 32 - 1)) % 2 ^ 32 ∧ r.2 = (.ok, none) ∧
        r.1.view = k.view.setLock m
          { k.view.locks m with
            lockCount := ((k.view.locks m).lockCount + (2 ^ 32 - 1)) % 2 ^ 32 }) ∨
      ((k.view.locks m).owner = some c ∧
        ((k.view.locks m).lockCount + (2 ^ 32 - 1)) % 2 ^ 32 = 0 ∧
        r.2 = (.ok, k.waitHead (.mutex m)) ∧
        r.1.view = (k.view.setPrio c (k.view.locks m).originalPrio).setLock m
          (match k.waitHead (.mutex m) with
          | none => { k.view.locks m with owner := none, lockCount := 0 }
          | some w =>
              { k.view.locks m with
                owner := some w, lockCount := 1
                originalPrio := (k.view.setPrio c (k.view.locks m).originalPrio).prios w })) := by
  rw [osMutexUnlock_eq hc] at h
  split at h
  · next hne =>
      rw [← Option.some.inj h]
      exact Or.inl ⟨hne, rfl, rfl⟩
  · next heq =>
      have ho : (k.view.locks m).owner = some c := not_not.mp heq
      right
      set k₂ := Mutex.dropLock k m with hk₂
      have hm₂ := Mutex.mutexes_dropLock k m
      have hview₂ : k₂.view = k.view.setLock m
          { k.view.locks m with
            lockCount := ((k.view.locks m).lockCount + (2 ^ 32 - 1)) % 2 ^ 32 } := by
        rw [hk₂, Mutex.dropLock, view_setMutex]
        rfl
      split at h
      · next hmore =>
          rw [← Option.some.inj h]
          refine Or.inl ⟨ho, Nat.pos_iff_ne_zero.mpr hmore, rfl, ?_⟩
          rw [view_osSchedExitCritical, hview₂]
      · next hlast =>
          right
          have hz : ((k.view.locks m).lockCount + (2 ^ 32 - 1)) % 2 ^ 32 = 0 := not_not.mp hlast
          -- the three writes of a full release
          set k₃ := osTaskSetPriority k₂ c (k₂.mutexes m).originalPrio with hk₃
          set k₄ := k₃.setMutex m { k₃.mutexes m with owner := none } with hk₄
          have hrestore : Mutex.prvRestorePriority k₂ m = k₃ := by
            have ho₂ : (k₂.mutexes m).owner = some c := by
              rw [hm₂]
              exact ho
            rw [Mutex.prvRestorePriority, ho₂]
          have hrelease : Mutex.release k₂ m = Mutex.prvWakeAndTransfer k₄ m := by
            rw [Mutex.release, hrestore]
          have hview₃ : k₃.view = k₂.view.setPrio c (k.view.locks m).originalPrio := by
            rw [hk₃, view_osTaskSetPriority, hm₂]
            rfl
          have hlock₃ : ({ k₃.mutexes m with waitList := none } : Mutex)
              = { k.view.locks m with lockCount := 0 } := by
            have hl := congrArg (fun v => v.locks m) (hview₃.trans
              (congrArg (fun v => v.setPrio c (k.view.locks m).originalPrio) hview₂))
            rw [hz] at hl
            refine Eq.trans hl ?_
            exact Function.update_self ..
          have hview₄ : k₄.view = (k.view.setPrio c (k.view.locks m).originalPrio).setLock m
              { k.view.locks m with owner := none, lockCount := 0 } := by
            rw [hk₄, view_setMutex, hview₃, hview₂]
            have hl : ({ k₃.mutexes m with owner := none, waitList := none } : Mutex)
                = { k.view.locks m with owner := none, lockCount := 0 } :=
              congrArg (fun mu : Mutex => { mu with owner := none }) hlock₃
            rw [hl]
            simp only [View.setLock, View.setPrio, Function.update_idem]
          have hhead : k₄.waitHead (.mutex m) = k.waitHead (.mutex m) := by
            show (Function.update k₃.mutexes m _ m).waitList = _
            rw [Function.update_self]
            have h₃ := waitHead_osTaskSetPriority k₂ c (k₂.mutexes m).originalPrio (.mutex m)
            exact Eq.trans h₃ (Mutex.waitHead_dropLock k m)
          obtain ⟨hw, hv⟩ := view_prvWakeAndTransfer k₄ m
          rw [hhead] at hw hv
          rw [hrelease] at h
          refine ⟨ho, hz, ?_⟩
          rw [hw] at h
          cases hwait : k.waitHead (.mutex m) with
          | none =>
              rw [hwait] at h hv
              rw [← Option.some.inj h]
              refine ⟨rfl, ?_⟩
              rw [view_osSchedExitCritical, hv, hview₄]
          | some w =>
              rw [hwait] at h hv
              rw [← Option.some.inj h]
              refine ⟨rfl, ?_⟩
              rw [view_yieldIf, view_osSchedExitCritical, hv, hview₄]
              simp only [View.setLock, View.setPrio, Function.update_idem, Function.update_self]

end MiniRTOS
