import MiniRTOS.Kernel.CriticalSections
import MiniRTOS.Kernel.Frames
import MiniRTOS.Kernel.SystemInv

/-! # The paths of the object calls

The calls of `queue.c`, `semaphore.c`, `eventgroup.c` and `notify.c` in the model, each with the path of
the source function that it takes. A blocking call is followed up to its `os_sched_yield()`.

* **`criticalNesting_of_run`** — between the calls of a run no section is open. The calls nest at most
  two, so the 32-bit counter of the kernel state never wraps. -/

namespace MiniRTOS

open BracketedCode MaskNesting ByteMemory Runs

variable {k k₁ k' : Kernel} {t : TaskId} {s q e : Addr} {f : KernelFn}

/-- The queues are no part of the lock. -/
@[simp] theorem sections_setQueue (v : Queue) : (k.setQueue q v).sections = k.sections := rfl

/-- Nor are the semaphores. -/
@[simp] theorem sections_setSem (v : Sem) : (k.setSem s v).sections = k.sections := rfl

/-- Nor are the event groups. -/
@[simp] theorem sections_setEventGroup (v : EventGroup) :
    (k.setEventGroup e v).sections = k.sections := rfl

/-- A request behind a section is not part of it. -/
@[simp] theorem sections_ite_osSchedRequestSwitchFromIsr (p : Prop) [Decidable p] :
    (if p then osSchedRequestSwitchFromIsr k else k).sections = k.sections := by
  split <;> rfl

/-- Requesting the switch to a woken task opens no section. -/
theorem sections_preempt {w : Option TaskId} (h : Queue.preempt k w = some k') :
    k'.sections = k.sections := by
  cases w with
  | none => rw [← Option.some.inj h]
  | some w =>
      obtain ⟨c, -, h⟩ := Option.bind_eq_some_iff.mp h
      rw [← Option.some.inj h, sections_ite_osSchedYield]

/-- The slot that `os_queue_overwrite` and its ISR form write. -/
theorem sections_overwriteSlot (item : Mem) :
    (Queue.overwriteSlot k q item).2.sections = k.sections := by
  rw [Queue.overwriteSlot]
  split
  · exact (sections_wakeTask (.queueRecv q)).trans (sections_setQueue _)
  · rfl

/-- The walk over the waiters of an event group. -/
theorem sections_wakeWalk {fuel : Nat} {woken : List TaskId} {h : Option TaskId}
    {r : Kernel × List TaskId} (hwalk : EventGroup.wakeWalk e fuel k woken h = some r) :
    r.1.sections = k.sections := by
  induction fuel generalizing k woken h with
  | zero =>
      cases h with
      | none => rw [← Option.some.inj hwalk]
      | some t => cases hwalk
  | succ fuel ih =>
      cases h with
      | none => rw [← Option.some.inj hwalk]
      | some t =>
          rw [EventGroup.wakeWalk] at hwalk
          split at hwalk
          · rw [ih hwalk, EventGroup.wakeWaiter, sections_osTaskAddToReady, sections_setTcb,
              sections_unblockTask]
            split <;> rfl
          · exact ih hwalk

/-- Waking the waiters of an event group opens no section. -/
theorem sections_setAndWake {bits : BitVec 32} {r : Kernel × List TaskId}
    (h : EventGroup.setAndWake k e bits = some r) : r.1.sections = k.sections :=
  (sections_wakeWalk h).trans (sections_setEventGroup _)

/-- Nor does putting a task into its wait list. -/
theorem sections_prvBlockTask {bits options : BitVec 32} {n : Nat}
    (h : EventGroup.prvBlockTask k e t bits options n = some k') : k'.sections = k.sections :=
  (sections_blockTask h).trans (sections_setTcb _)

/-- Nor does writing a notification. -/
theorem sections_notifyTask (v : BitVec 32) : (notifyTask k t v).2.sections = k.sections := by
  rw [notifyTask]
  split <;> rfl

section

variable (hlt : k.criticalNesting + 1 < 2 ^ 32)

include hlt

/-- A call that is one section, with what may follow it. -/
theorem takesPath_of_section (bs : List Bool)
    (hrun : follow criticalPath 20 bs (.call f) = some ([.enter, .exit], .normal, []))
    (h : k₁.sections = (osSchedEnterCritical k).sections)
    (hafter : k'.sections = (osSchedExitCritical k₁).sections) : TakesPath f k k' :=
  takesPath_of_follow bs hrun (hafter.trans (sections_exit_of_enter hlt h))

/-! ## Semaphores -/

/-- `os_sem_take` takes a path of its source. -/
theorem takesPath_osSemTake {n : Nat} {o : Outcome Status} (h : osSemTake k s n = some (k', o)) :
    TakesPath (.sem .osSemTake) k k' := by
  unfold osSemTake at h
  dsimp only at h
  split at h
  · cases h
    exact takesPath_of_section hlt [false, true, true] (by decide) (sections_setSem _) rfl
  · split at h
    · cases h
      exact takesPath_of_section hlt [false, false, true] (by decide) rfl rfl
    · obtain ⟨c, k₂, -, hblock, heq⟩ := sleep_inv h
      cases heq
      exact takesPath_of_section hlt [false, false, false, false, false, true] (by decide)
        (sections_blockTask hblock) rfl

/-- So does `os_sem_take_from_isr`. -/
theorem takesPath_osSemTakeFromIsr :
    TakesPath (.sem .osSemTakeFromIsr) k (osSemTakeFromIsr k s).1 := by
  unfold osSemTakeFromIsr
  dsimp only
  split
  · exact takesPath_of_section hlt [false, true, true] (by decide) (sections_setSem _) rfl
  · exact takesPath_of_section hlt [] (by decide) rfl rfl

/-- So does `os_sem_give`. -/
theorem takesPath_osSemGive {st : Status} (h : osSemGive k s = some (k', st)) :
    TakesPath (.sem .osSemGive) k k' := by
  have hwake := sections_wakeTask (k := osSchedEnterCritical k) (.sem s)
  unfold osSemGive Sem.prvWakeTask at h
  dsimp only at h
  split at h
  · next hw =>
      obtain ⟨c, -, h⟩ := Option.bind_eq_some_iff.mp h
      rw [hw] at hwake
      refine takesPath_of_section hlt [false, true, true, true] (by decide) hwake ?_
      rw [← (Prod.mk.inj (Option.some.inj h)).1, sections_ite_osSchedYield]
  · split at h
    · cases h
      exact takesPath_of_section hlt [false, false, true, true] (by decide) (sections_setSem _) rfl
    · cases h
      exact takesPath_of_section hlt [] (by decide) rfl rfl

/-- So does `os_sem_give_from_isr`. -/
theorem takesPath_osSemGiveFromIsr :
    TakesPath (.sem .osSemGiveFromIsr) k (osSemGiveFromIsr k s).1 := by
  have hwake := sections_wakeTask (k := osSchedEnterCritical k) (.sem s)
  unfold osSemGiveFromIsr Sem.prvWakeTask
  dsimp only
  split
  · next hw =>
      rw [hw] at hwake
      exact takesPath_of_section hlt [false, true, true] (by decide) hwake rfl
  · split
    · exact takesPath_of_section hlt [false, false, true] (by decide) (sections_setSem _) rfl
    · exact takesPath_of_section hlt [] (by decide) rfl rfl

/-! ## Queues -/

/-- Sending and receiving have the same paths. -/
theorem takesPath_exchange {α : Type} {p : Prop} [Decidable p] {qu : Queue} {w w' : WaitList}
    {a b : α} {n : Nat} {o : Outcome α}
    (hserved : follow criticalPath 20 [false, true, true, true] (.call f)
      = some ([.enter, .exit], .normal, []))
    (hrefused : follow criticalPath 20 [false, false, true] (.call f)
      = some ([.enter, .exit], .normal, []))
    (hblocked : follow criticalPath 20 [false, false, false, false, false, true] (.call f)
      = some ([.enter, .exit], .normal, []))
    (h : Queue.exchange k q p qu w w' a b n = some (k', o)) : TakesPath f k k' := by
  obtain ⟨-, k₂, hpre, heq⟩ | ⟨-, heq⟩ | ⟨-, c, k₂, -, hblock, heq⟩ := Queue.exchange_cases h
  · cases heq
    refine takesPath_of_section hlt _ hserved ?_ (sections_preempt hpre)
    rw [sections_wakeTask, sections_setQueue]
  · cases heq
    exact takesPath_of_section hlt _ hrefused rfl rfl
  · cases heq
    exact takesPath_of_section hlt _ hblocked (sections_blockTask hblock) rfl

/-- `os_queue_send` takes a path of its source. -/
theorem takesPath_osQueueSend {item : Mem} {n : Nat} {o : Outcome Status}
    (h : osQueueSend k q item n = some (k', o)) : TakesPath (.queue .osQueueSend) k k' := by
  rw [osQueueSend_eq_exchange] at h
  exact takesPath_exchange hlt (by decide) (by decide) (by decide) h

/-- So does `os_queue_receive`. -/
theorem takesPath_osQueueReceive {n : Nat} {o : Outcome (Status × Option (List UInt8))}
    (h : osQueueReceive k q n = some (k', o)) : TakesPath (.queue .osQueueReceive) k k' := by
  rw [osQueueReceive_eq_exchange] at h
  exact takesPath_exchange hlt (by decide) (by decide) (by decide) h

/-- So does `os_queue_send_from_isr`. -/
theorem takesPath_osQueueSendFromIsr (item : Mem) :
    TakesPath (.queue .osQueueSendFromIsr) k (osQueueSendFromIsr k q item).1 := by
  have hwake := sections_wakeTask
    (k := (osSchedEnterCritical k).setQueue q ((k.queues q).put item)) (.queueRecv q)
  unfold osQueueSendFromIsr
  dsimp only
  split
  · refine takesPath_of_section hlt [false, true, true] (by decide) hwake ?_
    rw [sections_ite_osSchedRequestSwitchFromIsr]
    rfl
  · exact takesPath_of_section hlt [] (by decide) rfl rfl

/-- So does `os_queue_receive_from_isr`. -/
theorem takesPath_osQueueReceiveFromIsr :
    TakesPath (.queue .osQueueReceiveFromIsr) k (osQueueReceiveFromIsr k q).1 := by
  have hwake := sections_wakeTask
    (k := (osSchedEnterCritical k).setQueue q (k.queues q).pop) (.queueSend q)
  unfold osQueueReceiveFromIsr
  dsimp only
  split
  · refine takesPath_of_section hlt [false, true, true] (by decide) hwake ?_
    rw [sections_ite_osSchedRequestSwitchFromIsr]
    rfl
  · exact takesPath_of_section hlt [] (by decide) rfl rfl

/-- So does `os_queue_overwrite`. -/
theorem takesPath_osQueueOverwrite (item : Mem) :
    TakesPath (.queue .osQueueOverwrite) k (osQueueOverwrite k q item).1 := by
  have hslot := sections_overwriteSlot (k := osSchedEnterCritical k) (q := q) item
  unfold osQueueOverwrite
  dsimp only
  split
  · exact takesPath_of_section hlt [false, true] (by decide) rfl rfl
  · refine takesPath_of_section hlt [false, false, false, true] (by decide) hslot ?_
    split
    · rw [sections_ite_osSchedYield]
    · rfl

/-- So does `os_queue_overwrite_from_isr`. -/
theorem takesPath_osQueueOverwriteFromIsr (item : Mem) :
    TakesPath (.queue .osQueueOverwriteFromIsr) k (osQueueOverwriteFromIsr k q item).1 := by
  have hslot := sections_overwriteSlot (k := osSchedEnterCritical k) (q := q) item
  unfold osQueueOverwriteFromIsr
  dsimp only
  split
  · exact takesPath_of_section hlt [false, true] (by decide) rfl rfl
  · refine takesPath_of_section hlt [false, false, false, true] (by decide) hslot ?_
    rw [sections_ite_osSchedRequestSwitchFromIsr]

/-- So does `os_queue_peek`. -/
theorem takesPath_osQueuePeek : TakesPath (.queue .osQueuePeek) k (osQueuePeek k q).1 := by
  unfold osQueuePeek
  dsimp only
  split
  · exact takesPath_of_section hlt [false, true] (by decide) rfl rfl
  · exact takesPath_of_section hlt [] (by decide) rfl rfl

/-- So does `os_queue_reset`. -/
theorem takesPath_osQueueReset : TakesPath (.queue .osQueueReset) k (osQueueReset k q).1 := by
  unfold osQueueReset
  dsimp only
  split
  · exact takesPath_of_section hlt [false, true] (by decide) rfl rfl
  · exact takesPath_of_section hlt [] (by decide) (sections_setQueue _) rfl

/-! ## Event groups -/

/-- `os_eventgroup_set_bits` takes a path of its source. -/
theorem takesPath_osEventgroupSetBits {bits : BitVec 32} {st : Status}
    (h : osEventgroupSetBits k e bits = some (k', st)) :
    TakesPath (.eventGroup .osEventgroupSetBits) k k' := by
  obtain ⟨⟨k₁, woken⟩, hwalk, h⟩ := Option.bind_eq_some_iff.mp h
  refine takesPath_of_section hlt [] (by decide) (sections_setAndWake hwalk) ?_
  dsimp only at h
  split at h
  · rw [← (Prod.mk.inj (Option.some.inj h)).1]
  · obtain ⟨c, -, h⟩ := Option.bind_eq_some_iff.mp h
    rw [← (Prod.mk.inj (Option.some.inj h)).1, sections_ite_osSchedYield]

/-- So does `os_eventgroup_set_bits_from_isr`. -/
theorem takesPath_osEventgroupSetBitsFromIsr {bits : BitVec 32} {st : Status}
    (h : osEventgroupSetBitsFromIsr k e bits = some (k', st)) :
    TakesPath (.eventGroup .osEventgroupSetBitsFromIsr) k k' := by
  obtain ⟨⟨k₁, woken⟩, hwalk, h⟩ := Option.bind_eq_some_iff.mp h
  refine takesPath_of_section hlt [] (by decide) (sections_setAndWake hwalk) ?_
  rw [← (Prod.mk.inj (Option.some.inj h)).1]
  split <;> rfl

/-- So does `os_eventgroup_clear_bits`. -/
theorem takesPath_osEventgroupClearBits (bits : BitVec 32) :
    TakesPath (.eventGroup .osEventgroupClearBits) k (osEventgroupClearBits k e bits).1 :=
  takesPath_of_section hlt [] (by decide) (sections_setEventGroup _) rfl

/-- So does `os_eventgroup_clear_bits_from_isr`. -/
theorem takesPath_osEventgroupClearBitsFromIsr (bits : BitVec 32) :
    TakesPath (.eventGroup .osEventgroupClearBitsFromIsr) k
      (osEventgroupClearBitsFromIsr k e bits).1 :=
  takesPath_of_section hlt [] (by decide) (sections_setEventGroup _) rfl

/-- So does `os_eventgroup_wait_bits`. -/
theorem takesPath_osEventgroupWaitBits {bits options : BitVec 32} {n : Nat}
    {o : Outcome (BitVec 32)} (h : osEventgroupWaitBits k e bits options n = some (k', o)) :
    TakesPath (.eventGroup .osEventgroupWaitBits) k k' := by
  unfold osEventgroupWaitBits at h
  dsimp only at h
  split at h
  · cases h
    refine takesPath_of_section hlt [false, true, true] (by decide) ?_ rfl
    split <;> rfl
  · split at h
    · cases h
      exact takesPath_of_section hlt [false, true, false, true] (by decide) rfl rfl
    · obtain ⟨c, k₂, -, hblock, heq⟩ := sleep_inv h
      cases heq
      exact takesPath_of_section hlt [false, true] (by decide) (sections_prvBlockTask hblock) rfl

/-! ## Notifications -/

/-- `os_task_notify` takes a path of its source. -/
theorem takesPath_osTaskNotify {v : BitVec 32} {st : Status}
    (h : osTaskNotify k t v = some (k', st)) : TakesPath (.notify .osTaskNotify) k k' := by
  refine takesPath_of_section hlt [] (by decide) (sections_notifyTask (t := t) v) ?_
  unfold osTaskNotify at h
  dsimp only at h
  split at h
  · obtain ⟨c, -, h⟩ := Option.bind_eq_some_iff.mp h
    rw [← (Prod.mk.inj (Option.some.inj h)).1, sections_ite_osSchedYield]
  · rw [← (Prod.mk.inj (Option.some.inj h)).1]

/-- So does `os_task_notify_from_isr`. -/
theorem takesPath_osTaskNotifyFromIsr (v : BitVec 32) :
    TakesPath (.notify .osTaskNotifyFromIsr) k (osTaskNotifyFromIsr k t v).1 := by
  have hnotify := sections_notifyTask (k := osSchedEnterCritical k) (t := t) v
  refine takesPath_of_section hlt [] (by decide) ?_ rfl
  rw [sections_ite_osSchedRequestSwitchFromIsr]
  exact hnotify

/-- So does `os_task_notify_wait`. -/
theorem takesPath_osTaskNotifyWait {n : Nat} {o : Outcome (Status × Option (BitVec 32))}
    (h : osTaskNotifyWait k n = some (k', o)) : TakesPath (.notify .osTaskNotifyWait) k k' := by
  obtain ⟨t, -, h⟩ := Option.bind_eq_some_iff.mp h
  dsimp only at h
  split at h
  · cases h
    exact takesPath_of_section hlt [false, true] (by decide) (sections_setTcb _) rfl
  · split at h
    · cases h
      exact takesPath_of_section hlt [false, false, true] (by decide) rfl rfl
    · rw [← (Prod.mk.inj (Option.some.inj h)).1]
      exact takesPath_of_section hlt [false, false, false, true] (by decide)
        ((sections_osTaskAddToBlocked _).trans (sections_setTcb _)) (sections_osSchedYield ..)

end

/-! ## Runs -/

/-- A call made with no section open leaves none open. -/
theorem TakesPath.closed (h : TakesPath f k k') (hk : k.criticalNesting = 0) :
    k'.criticalNesting = 0 := by
  have hlt : k.criticalNesting + 2 < 2 ^ 32 := by omega
  exact (h.restored (fun hpos => absurd hk hpos.ne') hlt).1.trans hk

/-- Calls with the same sections have the same nesting. -/
theorem criticalNesting_of_sections (h : k'.sections = k.sections) :
    k'.criticalNesting = k.criticalNesting :=
  congrArg Sections.nesting h

/-- Setting a task up, or refusing to, opens no section. -/
theorem sections_osTaskCreate (k : Kernel) (a : CreateArgs) :
    (osTaskCreate k a).2.2.sections = k.sections := by
  obtain ⟨func, prio, stack, t, -, -, -, -, -, -, h⟩ | ⟨r, k', -, -, hk', h⟩ := osTaskCreate_cases k a
  · rw [h]
    rfl
  · rw [h]
    obtain rfl | ⟨stack, -, rfl⟩ := hk'
    · rfl
    · exact sections_freeStack stack

/-- A suspended creation has the section of `os_task_suspend`, or none. -/
theorem criticalNesting_osTaskCreateSuspended (a : CreateArgs) (hk : k.criticalNesting = 0) :
    (osTaskCreateSuspended k a).2.2.criticalNesting = 0 := by
  have hcreate : (osTaskCreate k a).2.2.criticalNesting = 0 :=
    (criticalNesting_of_sections (sections_osTaskCreate k a)).trans hk
  unfold osTaskCreateSuspended
  split
  · next t k₁ h =>
      have hk₁ : k₁.criticalNesting = 0 := by rwa [h] at hcreate
      exact (takesPath_osTaskSuspend (by omega)).closed hk₁
  · exact hcreate

/-- A delay of no tick only yields. -/
theorem criticalNesting_osTaskDelay {n : Nat} (h : osTaskDelay k n = some k')
    (hk : k.criticalNesting = 0) : k'.criticalNesting = 0 := by
  by_cases hn : n = 0
  · rw [osTaskDelay, if_pos hn] at h
    rw [← Option.some.inj h]
    exact hk
  · exact (takesPath_osTaskDelay (by omega) h hn).closed hk

/-- `os_task_delay_until` delays, or does nothing. -/
theorem criticalNesting_osTaskDelayUntil {previous period : Nat} {r : Status × Nat × Kernel}
    (h : osTaskDelayUntil k previous period = some r) (hk : k.criticalNesting = 0) :
    r.2.2.criticalNesting = 0 := by
  unfold osTaskDelayUntil at h
  dsimp only at h
  split at h
  · rw [← Option.some.inj h]
    exact hk
  · split at h
    · obtain ⟨k', hdelay, h⟩ := Option.bind_eq_some_iff.mp h
      rw [← Option.some.inj h]
      exact criticalNesting_osTaskDelay hdelay hk
    · rw [← Option.some.inj h]
      exact hk

/-- The tick of one task opens no section. -/
theorem sections_tickTask : (tickTask k t).sections = k.sections := by
  unfold tickTask
  dsimp only
  split
  · split
    · split <;> rfl
    · rfl
  · rfl

/-- Nor does the walk over the blocked tasks. -/
theorem sections_tickWalk {fuel : Nat} {i : Option TaskId} (h : tickWalk fuel k i = some k') :
    k'.sections = k.sections := by
  induction fuel generalizing k i with
  | zero =>
      cases i with
      | none => rw [← Option.some.inj h]
      | some t => cases h
  | succ fuel ih =>
      cases i with
      | none => rw [← Option.some.inj h]
      | some t => exact (ih h).trans sections_tickTask

/-- Nor does freeing the deferred tasks. -/
theorem sections_freeDeferred {fuel : Nat} {i : Option TaskId}
    (h : freeDeferred fuel k i = some k') : k'.sections = k.sections := by
  induction fuel generalizing k i with
  | zero =>
      cases i with
      | none => rw [← Option.some.inj h]
      | some t => cases h
  | succ fuel ih =>
      cases i with
      | none => rw [← Option.some.inj h]
      | some t =>
          rw [ih h, sections_freeTcb]
          split <;> rfl

/-- A tick detaches the deferred tasks in a section of its own. -/
theorem criticalNesting_osTaskTick (h : osTaskTick k = some k') (hk : k.criticalNesting = 0) :
    k'.criticalNesting = 0 := by
  obtain ⟨k₁, k₂, hwalk, hmark, hfree⟩ := osTaskTick_stages h
  have hmarked : k₂.sections = k₁.sections := by
    obtain rfl | ⟨c, n, rfl⟩ := hmark <;> rfl
  have hnest : k₂.criticalNesting = 0 :=
    (criticalNesting_of_sections (hmarked.trans (sections_tickWalk hwalk))).trans hk
  rw [criticalNesting_of_sections (sections_freeDeferred hfree)]
  show k₂.criticalNesting + 1 - 1 = 0
  omega

/-- A selection opens no section. -/
theorem sections_osSchedSelectNext : (osSchedSelectNext k).sections = k.sections := by
  unfold osSchedSelectNext
  split
  · rfl
  · split
    · dsimp only
      split <;> rfl
    · rfl

/-- Nor does the return of a call that slept. -/
theorem criticalNesting_returnFrom {s s' : Sys} {c : TaskId} {call : Call}
    (h : s.returnFrom c call = some s') :
    s'.kernel.criticalNesting = s.kernel.criticalNesting := by
  cases call with
  | idle => cases h
  | notifyWait =>
      rw [← Option.some.inj h]
      show (osTaskNotifyWaitResume s.kernel c).1.criticalNesting = _
      unfold osTaskNotifyWaitResume
      split <;> rfl
  | _ => rw [← Option.some.inj h]; rfl

/-- **One step** leaves no section open. -/
theorem criticalNesting_step {s s' : Sys} {op : Op} (hs : step s op = some s')
    (h : s.kernel.criticalNesting = 0) : s'.kernel.criticalNesting = 0 := by
  have hone : s.kernel.criticalNesting + 1 < 2 ^ 32 := by omega
  have htwo : s.kernel.criticalNesting + 2 < 2 ^ 32 := by omega
  cases op with
  | create a =>
      obtain rfl := Option.some.inj hs
      rw [Sys.kernel_created]
      exact (criticalNesting_of_sections (sections_osTaskCreate s.kernel a)).trans h
  | createSuspended a =>
      obtain rfl := Option.some.inj hs
      rw [Sys.kernel_created]
      exact criticalNesting_osTaskCreateSuspended a h
  | suspend t =>
      obtain rfl := Option.some.inj hs
      exact (takesPath_osTaskSuspend htwo).closed h
  | resume t =>
      obtain rfl := Option.some.inj hs
      exact (takesPath_osTaskResume htwo).closed h
  | delay n =>
      obtain ⟨k', hk, rfl⟩ := Option.map_eq_some_iff.mp hs
      exact criticalNesting_osTaskDelay hk h
  | delayUntil previous period =>
      obtain ⟨r, hr, rfl⟩ := Option.map_eq_some_iff.mp hs
      exact criticalNesting_osTaskDelayUntil hr h
  | deleteSelf =>
      obtain ⟨k', hk, rfl⟩ := Option.map_eq_some_iff.mp hs
      exact (takesPath_osTaskDeleteSelf htwo hk).closed h
  | notify t v =>
      obtain ⟨r, hr, rfl⟩ := Option.map_eq_some_iff.mp hs
      exact (takesPath_osTaskNotify hone hr).closed h
  | notifyFromIsr t v =>
      obtain rfl := Option.some.inj hs
      exact (takesPath_osTaskNotifyFromIsr hone v).closed h
  | notifyWait n =>
      obtain ⟨c, k', r, -, hk, rfl⟩ := Sys.blockingCall_inv hs
      rw [Sys.kernel_outcome _ _ _ _ fun _ => rfl]
      exact (takesPath_osTaskNotifyWait hone hk).closed h
  | semCreateCounting a m n =>
      obtain rfl := Option.some.inj hs
      show (osSemCreateCounting s.kernel a m n).2.criticalNesting = 0
      unfold osSemCreateCounting
      split
      · exact h
      · split <;> exact h
  | semTake a n =>
      obtain ⟨c, k', r, -, hk, rfl⟩ := Sys.blockingCall_inv hs
      rw [Sys.kernel_outcome _ _ _ _ fun _ => rfl]
      exact (takesPath_osSemTake hone hk).closed h
  | semTakeFromIsr a =>
      obtain rfl := Option.some.inj hs
      exact (takesPath_osSemTakeFromIsr hone).closed h
  | semGive a =>
      obtain ⟨r, hr, rfl⟩ := Option.map_eq_some_iff.mp hs
      exact (takesPath_osSemGive hone hr).closed h
  | semGiveFromIsr a =>
      obtain rfl := Option.some.inj hs
      exact (takesPath_osSemGiveFromIsr hone).closed h
  | queueCreate q itemSize maxItems block =>
      obtain rfl := Option.some.inj hs
      show (osQueueCreate s.kernel q itemSize maxItems block).2.criticalNesting = 0
      unfold osQueueCreate
      split
      · exact h
      · split <;> exact h
  | queueSend q item n =>
      obtain ⟨c, k', r, -, hk, rfl⟩ := Sys.blockingCall_inv hs
      rw [Sys.kernel_outcome _ _ _ _ fun _ => rfl]
      exact (takesPath_osQueueSend hone hk).closed h
  | queueSendFromIsr q item =>
      obtain rfl := Option.some.inj hs
      exact (takesPath_osQueueSendFromIsr hone item).closed h
  | queueReceive q n =>
      obtain ⟨c, k', r, -, hk, rfl⟩ := Sys.blockingCall_inv hs
      rw [Sys.kernel_outcome _ _ _ _ fun _ => rfl]
      exact (takesPath_osQueueReceive hone hk).closed h
  | queueReceiveFromIsr q =>
      obtain rfl := Option.some.inj hs
      exact (takesPath_osQueueReceiveFromIsr hone).closed h
  | mutexCreate m =>
      obtain rfl := Option.some.inj hs
      exact h
  | mutexLock m n =>
      obtain ⟨c, k', r, -, hk, rfl⟩ := Sys.blockingCall_inv hs
      rw [Sys.kernel_outcome _ _ _ _ fun _ => rfl]
      exact (takesPath_osMutexLock htwo hk).closed h
  | mutexUnlock m =>
      obtain ⟨c, -, hs⟩ := Option.bind_eq_some_iff.mp hs
      obtain ⟨⟨k', r, w⟩, hk, hs⟩ := Option.bind_eq_some_iff.mp hs
      rw [← Option.some.inj hs]
      have hunlock := (takesPath_osMutexUnlock htwo hk).closed h
      cases w <;> exact hunlock
  | eventCreate e =>
      obtain rfl := Option.some.inj hs
      exact h
  | eventWait e bits options n =>
      obtain ⟨c, k', r, -, hk, rfl⟩ := Sys.blockingCall_inv hs
      rw [Sys.kernel_outcome _ _ _ _ fun _ => rfl]
      exact (takesPath_osEventgroupWaitBits hone hk).closed h
  | eventSet e bits =>
      obtain ⟨r, hr, rfl⟩ := Option.map_eq_some_iff.mp hs
      exact (takesPath_osEventgroupSetBits hone hr).closed h
  | eventSetFromIsr e bits =>
      obtain ⟨r, hr, rfl⟩ := Option.map_eq_some_iff.mp hs
      exact (takesPath_osEventgroupSetBitsFromIsr hone hr).closed h
  | eventClear e bits =>
      obtain rfl := Option.some.inj hs
      exact (takesPath_osEventgroupClearBits hone bits).closed h
  | tick =>
      obtain ⟨k', hk, rfl⟩ := Option.map_eq_some_iff.mp hs
      exact criticalNesting_osTaskTick hk h
  | selectNext =>
      obtain rfl := Option.some.inj hs
      exact (criticalNesting_of_sections sections_osSchedSelectNext).trans h
  | returnFromCall =>
      obtain ⟨c, -, hs⟩ := Option.bind_eq_some_iff.mp hs
      exact (criticalNesting_returnFrom hs).trans h
  | writeStack a v =>
      obtain rfl := Option.some.inj hs
      exact h
  | scribble t v nx pv =>
      obtain rfl := Option.some.inj hs
      exact h

/-- **Between the calls of a run no section is open**, whatever its callers promise. So each call finds
the counter at zero, and the paths that it takes need no bound on the nesting. -/
theorem criticalNesting_of_run {guard : Sys → Op → Prop} {s s' : Sys} {ops : List Op}
    (hr : Run guard step s ops s') (h : s.kernel.criticalNesting = 0) :
    s'.kernel.criticalNesting = 0 :=
  hr.invariant (fun s => s.kernel.criticalNesting = 0) (fun _ _ _ h _ hs => criticalNesting_step hs h) h

end MiniRTOS
