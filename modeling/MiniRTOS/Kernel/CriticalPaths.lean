import MiniRTOS.Lib.BracketedCode

/-! # The critical sections on the paths of the kernel calls

Every function of `task.c`, `queue.c`, `semaphore.c`, `mutex.c`, `eventgroup.c`, `notify.c`,
`watchdog.c` and `timer.c`, statement by statement, reduced to `os_sched_enter_critical` and
`os_sched_exit_critical`, calls, callbacks and control flow. A condition is a test that can go either
way, `return` and `break` stand where the source has them, and statements that only read or write
variables are left out. Trace records are on, as shipped.

Shapes that many functions share have a name: `osAssert`, a `refusal` that leaves a section, a
`reading` inside one. -/

namespace MiniRTOS

open BracketedCode

/-! ## Names -/

/-- What the eight files call in the others. -/
inductive SupportFn
  | osHeapAlloc | osHeapFree | osTraceRecord | osAssertFailed | osSchedYield
  | osSchedRequestSwitchFromIsr

/-- `task.c`. -/
inductive TaskFn
  | prvAllocateStack | prvFillStack | prvCalcHighWater | idleTaskFunc
  | osTaskCreateIdle | osTaskInitReadyList | osTaskAddToReady | osTaskRemoveFromReady
  | osTaskFindHighestReady | osTaskCreate | osTaskCreateSuspended | osTaskDelete | osTaskSuspend
  | osTaskResume | osTaskDelay | osTaskDelayUntil | osTaskSetPriority | osTaskGetName
  | osTaskAddToBlocked | osTaskRemoveFromBlocked | osTaskTick | osTaskGetStackHighWater
  | osTaskProcessDeferredDelete | osTaskCheckStackOverflow | osTaskGetState | osTaskGetPriority
  | osTaskGetCount | osTaskGetByIndex | osTaskRegisterIdleHook | osTaskUnregisterIdleHook
  | osTaskSetStackOverflowHook | osTaskSetDeleteHook

/-- `queue.c`. -/
inductive QueueFn
  | prvBlockTask | prvUnblockTask | prvWakeTask
  | osQueueCreate | osQueueDelete | osQueueReset | osQueueSend | osQueueSendFromIsr
  | osQueueOverwrite | osQueueOverwriteFromIsr | osQueueReceive | osQueueReceiveFromIsr
  | osQueuePeek | osQueueGetCount | osQueueGetCountFromIsr | osQueueGetSpaces | osQueueIsEmpty
  | osQueueIsFull | osQueueRemoveTask

/-- `semaphore.c`. -/
inductive SemFn
  | prvBlockTask | prvUnblockTask | prvWakeTask
  | osSemCreateBinary | osSemCreateCounting | osSemDelete | osSemTake | osSemTakeFromIsr | osSemGive
  | osSemGiveFromIsr | osSemGetCount | osSemGetCountFromIsr | osSemRemoveTask

/-- `mutex.c`. -/
inductive MutexFn
  | prvBlockTask | prvUnblockTask | prvWakeAndTransfer | prvBoostPriority | prvRestorePriority
  | osMutexCreate | osMutexDelete | osMutexLock | osMutexUnlock | osMutexGetOwner | osMutexIsLocked
  | osMutexGetLockCount | osMutexRemoveTask

/-- `eventgroup.c`. -/
inductive EventGroupFn
  | prvBlockTask | prvUnblockTask | prvCheckCondition
  | osEventgroupCreate | osEventgroupDelete | osEventgroupSetBits | osEventgroupSetBitsFromIsr
  | osEventgroupClearBits | osEventgroupClearBitsFromIsr | osEventgroupWaitBits
  | osEventgroupGetBits | osEventgroupGetBitsFromIsr | osEventgroupRemoveTask

/-- `notify.c`. -/
inductive NotifyFn
  | osTaskNotify | osTaskNotifyFromIsr | osTaskNotifyWait | osTaskNotifyIsPending
  | osTaskNotifyClear

/-- `watchdog.c`. -/
inductive WdtFn
  | prvFindEntry | prvDefaultTimeoutHandler
  | osWdtInit | osWdtRegister | osWdtUnregister | osWdtFeed | osWdtFeedTask | osWdtPause
  | osWdtResume | osWdtSetDeadline | osWdtGetRemaining | osWdtIsRegistered
  | osWdtSetDefaultCallback | osWdtTick

/-- `timer.c`. -/
inductive TimerFn
  | prvTimerInsertSorted | prvTimerRemoveFromActive | timerServiceTask
  | osTimerInit | osTimerCreate | osTimerDelete | osTimerStart | osTimerStop | osTimerReset
  | osTimerChangePeriod | osTimerIsActive | osTimerStartFromIsr | osTimerStopFromIsr
  | osTimerResetFromIsr | osTimerChangePeriodFromIsr | osTimerGetName | osTimerTick

/-- A function of the kernel. -/
inductive KernelFn
  /-- Functions that the modules share. -/
  | support (f : SupportFn)
  /-- `task.c`. -/
  | task (f : TaskFn)
  /-- `queue.c`. -/
  | queue (f : QueueFn)
  /-- `semaphore.c`. -/
  | sem (f : SemFn)
  /-- `mutex.c`. -/
  | mutex (f : MutexFn)
  /-- `eventgroup.c`. -/
  | eventGroup (f : EventGroupFn)
  /-- `notify.c`. -/
  | notify (f : NotifyFn)
  /-- `wdt.c`. -/
  | wdt (f : WdtFn)
  /-- `timer.c`. -/
  | timer (f : TimerFn)

namespace CriticalPath

/-! ## Shared shapes -/

/-- A call of a function outside the eight files. -/
abbrev support (f : SupportFn) : Code KernelFn := .call (.support f)

/-- A call into `task.c`. -/
abbrev task (f : TaskFn) : Code KernelFn := .call (.task f)

/-- `OS_ASSERT`. -/
def osAssert : Code KernelFn := .test (support .osAssertFailed)

/-- `if (...) return ...;` -/
def guard : Code KernelFn := .test .ret

/-- `if (...) { os_sched_exit_critical(); return ...; }` -/
def refusal : Code KernelFn := .test (.block [.exit, .ret])

/-- A null check and one section around plain statements. -/
def reading : Code KernelFn := .block [guard, .enter, .exit, .ret]

/-- A null check and plain statements. -/
def getter : Code KernelFn := .block [guard, .ret]

/-- `prv_block_task` of the four objects: the loop finds the place in the wait list. -/
def blockTask : Code KernelFn := .block [task .osTaskRemoveFromReady, .loop (.test .brk)]

/-! ## The functions that the eight files call -/

/-- `heap4.c`, `trace.c`, `kernel.c` and `scheduler.c`. -/
def supportBody : SupportFn → Code KernelFn
  | .osHeapAlloc => .block [guard, .loop (.test .brk), .test (.block [.test .callback, .ret]), .ret]
  | .osHeapFree => .block [guard, guard, .loop (.test .brk), .loop (.test .brk)]
  -- between `os_port_enter_critical` and `os_port_exit_critical` an entry is written
  | .osTraceRecord => .block [guard, .pulse]
  | .osAssertFailed => .block [.enter, .halt]
  | .osSchedYield => .skip
  | .osSchedRequestSwitchFromIsr => .skip

/-! ## `task.c` -/

/-- The functions of `task.c`. -/
def taskBody : TaskFn → Code KernelFn
  | .prvAllocateStack => .block [support .osHeapAlloc, .ret]
  | .prvFillStack => .loop .skip
  | .prvCalcHighWater => .block [.loop (.choice .skip .brk), .ret]
  | .idleTaskFunc => .loop (.test (.loop (.test .callback)))
  | .osTaskCreateIdle => task .osTaskCreate
  | .osTaskInitReadyList => .block [.loop .skip, .loop .skip]
  | .osTaskAddToReady => osAssert
  | .osTaskRemoveFromReady => osAssert
  | .osTaskFindHighestReady => .block [guard, osAssert, .ret]
  | .osTaskCreate =>
      .block [guard, guard, guard,
        .test (.block [task .prvAllocateStack, guard]),
        support .osHeapAlloc,
        .test (.block [.test (support .osHeapFree), .ret]),
        task .prvFillStack, task .osTaskAddToReady, support .osTraceRecord, .ret]
  | .osTaskCreateSuspended =>
      .block [task .osTaskCreate, guard, .test (task .osTaskSuspend), .ret]
  | .osTaskDelete =>
      .block [
        -- a null handle: the caller deletes itself
        .test (.block [guard, .enter, task .osTaskRemoveFromReady, .test .callback,
          support .osTraceRecord, .exit, support .osSchedYield, .ret]),
        .test (.block [task .osTaskDelete, .ret]),
        .enter, .test (task .osTaskRemoveFromReady), .test .callback, support .osTraceRecord,
        .test (support .osHeapFree), support .osHeapFree, .exit, .ret]
  | .osTaskSuspend =>
      .block [guard, .enter,
        .test (.block [task .osTaskRemoveFromReady, support .osTraceRecord]),
        .exit, .test (support .osSchedYield), .ret]
  | .osTaskResume =>
      .block [guard, .enter, .test (.block [task .osTaskAddToReady, support .osTraceRecord]),
        .exit, .ret]
  | .osTaskDelay =>
      .block [.test (.block [support .osSchedYield, .ret]),
        .enter, task .osTaskAddToBlocked, support .osTraceRecord, .exit,
        support .osSchedYield, .ret]
  | .osTaskDelayUntil => .block [guard, .test (.block [task .osTaskDelay, .ret]), .ret]
  | .osTaskSetPriority =>
      .block [guard, .enter,
        .test (.block [task .osTaskRemoveFromReady, task .osTaskAddToReady]), .exit, .ret]
  | .osTaskGetName => getter
  | .osTaskAddToBlocked => task .osTaskRemoveFromReady
  | .osTaskRemoveFromBlocked => .skip
  | .osTaskTick =>
      .block [.loop (.test (.test (task .osTaskAddToReady))), .test (task .prvCalcHighWater),
        task .osTaskCheckStackOverflow, task .osTaskProcessDeferredDelete]
  | .osTaskGetStackHighWater => getter
  | .osTaskProcessDeferredDelete =>
      .block [.enter, .exit,
        .loop (.block [.test (support .osHeapFree), support .osHeapFree])]
  | .osTaskCheckStackOverflow => .block [guard, .test (support .osAssertFailed)]
  | .osTaskGetState => getter
  | .osTaskGetPriority => getter
  | .osTaskGetCount => .ret
  | .osTaskGetByIndex => getter
  | .osTaskRegisterIdleHook => .block [guard, .enter, refusal, .loop refusal, .exit, .ret]
  | .osTaskUnregisterIdleHook =>
      .block [guard, .enter, .loop (.test (.block [.loop .skip, .exit, .ret])), .exit, .ret]
  | .osTaskSetStackOverflowHook => .skip
  | .osTaskSetDeleteHook => .skip

/-! ## `queue.c` -/

/-- A call inside `queue.c`. -/
abbrev queue (f : QueueFn) : Code KernelFn := .call (.queue f)

/-- The functions of `queue.c`. -/
def queueBody : QueueFn → Code KernelFn
  | .prvBlockTask => blockTask
  | .prvUnblockTask => .skip
  | .prvWakeTask => .block [guard, queue .prvUnblockTask, task .osTaskAddToReady, .ret]
  | .osQueueCreate => .block [guard, support .osHeapAlloc, guard, .ret]
  | .osQueueDelete =>
      .block [guard, .enter, .loop (queue .prvWakeTask), .loop (queue .prvWakeTask),
        .test (support .osHeapFree), .exit, .ret]
  | .osQueueReset => .block [guard, .enter, refusal, .exit, .ret]
  | .osQueueSend =>
      .block [guard, .enter,
        .test (.block [queue .prvWakeTask, support .osTraceRecord, .exit,
          .test (.test (support .osSchedYield)), .ret]),
        refusal, queue .prvBlockTask, .exit, support .osSchedYield, guard,
        support .osTraceRecord, .ret]
  | .osQueueSendFromIsr =>
      .block [guard, .enter,
        .test (.block [queue .prvWakeTask, .exit,
          .test (support .osSchedRequestSwitchFromIsr), .ret]),
        .exit, .ret]
  | .osQueueOverwrite =>
      .block [guard, .enter, refusal, .test (queue .prvWakeTask), support .osTraceRecord, .exit,
        .test (.test (support .osSchedYield)), .ret]
  | .osQueueOverwriteFromIsr =>
      .block [guard, .enter, refusal, .test (queue .prvWakeTask), support .osTraceRecord, .exit,
        .test (support .osSchedRequestSwitchFromIsr), .ret]
  | .osQueueReceive =>
      .block [guard, .enter,
        .test (.block [queue .prvWakeTask, support .osTraceRecord, .exit,
          .test (.test (support .osSchedYield)), .ret]),
        refusal, queue .prvBlockTask, .exit, support .osSchedYield, guard,
        support .osTraceRecord, .ret]
  | .osQueueReceiveFromIsr =>
      .block [guard, .enter,
        .test (.block [queue .prvWakeTask, .exit,
          .test (support .osSchedRequestSwitchFromIsr), .ret]),
        .exit, .ret]
  | .osQueuePeek => .block [guard, .enter, refusal, .exit, .ret]
  | .osQueueGetCount => getter
  | .osQueueGetCountFromIsr => reading
  | .osQueueGetSpaces => getter
  | .osQueueIsEmpty => getter
  | .osQueueIsFull => getter
  | .osQueueRemoveTask =>
      .block [guard, .enter,
        .choice (queue .prvUnblockTask) (.test (queue .prvUnblockTask)), .exit]

/-! ## `semaphore.c` -/

/-- A call inside `semaphore.c`. -/
abbrev sem (f : SemFn) : Code KernelFn := .call (.sem f)

/-- The functions of `semaphore.c`. -/
def semBody : SemFn → Code KernelFn
  | .prvBlockTask => blockTask
  | .prvUnblockTask => .skip
  | .prvWakeTask => .block [guard, sem .prvUnblockTask, task .osTaskAddToReady, .ret]
  | .osSemCreateBinary => getter
  | .osSemCreateCounting => .block [guard, guard, .ret]
  | .osSemDelete => .block [guard, .enter, .loop (sem .prvWakeTask), .exit, .ret]
  | .osSemTake =>
      .block [guard, .enter, .test (.block [support .osTraceRecord, .exit, .ret]), refusal,
        sem .prvBlockTask, .exit, support .osSchedYield, guard, support .osTraceRecord, .ret]
  | .osSemTakeFromIsr =>
      .block [guard, .enter, .test (.block [support .osTraceRecord, .exit, .ret]), .exit, .ret]
  | .osSemGive =>
      .block [guard, .enter,
        .test (.block [sem .prvWakeTask, support .osTraceRecord, .exit,
          .test (support .osSchedYield), .ret]),
        .test (.block [support .osTraceRecord, .exit, .ret]), .exit, .ret]
  | .osSemGiveFromIsr =>
      .block [guard, .enter,
        .test (.block [sem .prvWakeTask, .exit,
          .test (support .osSchedRequestSwitchFromIsr), .ret]),
        refusal, .exit, .ret]
  | .osSemGetCount => getter
  | .osSemGetCountFromIsr => reading
  | .osSemRemoveTask => .block [guard, .enter, sem .prvUnblockTask, .exit]

/-! ## `mutex.c` -/

/-- A call inside `mutex.c`. -/
abbrev mutex (f : MutexFn) : Code KernelFn := .call (.mutex f)

/-- The functions of `mutex.c`. -/
def mutexBody : MutexFn → Code KernelFn
  | .prvBlockTask => blockTask
  | .prvUnblockTask => .skip
  | .prvWakeAndTransfer => .block [guard, mutex .prvUnblockTask, task .osTaskAddToReady, .ret]
  | .prvBoostPriority => .block [guard, .test (task .osTaskSetPriority)]
  | .prvRestorePriority => .block [guard, task .osTaskSetPriority]
  | .osMutexCreate => getter
  | .osMutexDelete =>
      .block [guard, .enter, .test (mutex .prvRestorePriority),
        .loop (.block [mutex .prvUnblockTask, task .osTaskAddToReady]), .exit, .ret]
  | .osMutexLock =>
      .block [guard, .enter, .test (.block [support .osTraceRecord, .exit, .ret]), refusal,
        mutex .prvBoostPriority, refusal, mutex .prvBlockTask, .exit, support .osSchedYield,
        guard, support .osTraceRecord, .ret]
  | .osMutexUnlock =>
      .block [guard, .enter, refusal, refusal, mutex .prvRestorePriority,
        mutex .prvWakeAndTransfer, support .osTraceRecord, .exit,
        .test (support .osSchedYield), .ret]
  | .osMutexGetOwner => getter
  | .osMutexIsLocked => reading
  | .osMutexGetLockCount => reading
  | .osMutexRemoveTask => .block [guard, .enter, mutex .prvUnblockTask, .exit]

/-! ## `eventgroup.c` -/

/-- A call inside `eventgroup.c`. -/
abbrev eventGroup (f : EventGroupFn) : Code KernelFn := .call (.eventGroup f)

/-- The functions of `eventgroup.c`. -/
def eventGroupBody : EventGroupFn → Code KernelFn
  | .prvBlockTask => blockTask
  | .prvUnblockTask => .skip
  | .prvCheckCondition => .block [guard, .ret]
  | .osEventgroupCreate => getter
  | .osEventgroupDelete =>
      .block [guard, .enter,
        .loop (.block [eventGroup .prvUnblockTask, task .osTaskAddToReady]), .exit, .ret]
  | .osEventgroupSetBits =>
      .block [guard, .enter,
        .loop (.block [eventGroup .prvCheckCondition,
          .test (.block [eventGroup .prvUnblockTask, task .osTaskAddToReady])]),
        .exit, .test (support .osSchedYield), .ret]
  | .osEventgroupSetBitsFromIsr =>
      .block [guard, .enter,
        .loop (.block [eventGroup .prvCheckCondition,
          .test (.block [eventGroup .prvUnblockTask, task .osTaskAddToReady])]),
        .exit, .test (support .osSchedRequestSwitchFromIsr), .ret]
  | .osEventgroupClearBits => reading
  | .osEventgroupClearBitsFromIsr => reading
  | .osEventgroupWaitBits =>
      .block [guard, .enter, .choice refusal refusal, refusal, eventGroup .prvBlockTask, .exit,
        support .osSchedYield, .ret]
  | .osEventgroupGetBits => reading
  | .osEventgroupGetBitsFromIsr => reading
  | .osEventgroupRemoveTask => .block [guard, .enter, eventGroup .prvUnblockTask, .exit]

/-! ## `notify.c` -/

/-- The functions of `notify.c`. -/
def notifyBody : NotifyFn → Code KernelFn
  | .osTaskNotify =>
      .block [guard, .enter,
        .test (.block [task .osTaskRemoveFromBlocked, task .osTaskAddToReady, .exit,
          .test (support .osSchedYield), .ret]),
        .exit, .ret]
  | .osTaskNotifyFromIsr =>
      .block [guard, .enter,
        .test (.block [task .osTaskRemoveFromBlocked, task .osTaskAddToReady,
          support .osSchedRequestSwitchFromIsr]),
        .exit, .ret]
  | .osTaskNotifyWait =>
      .block [guard, .enter, refusal, refusal,
        .choice (task .osTaskAddToBlocked) (task .osTaskAddToBlocked), .exit,
        support .osSchedYield, guard, .ret]
  | .osTaskNotifyIsPending => reading
  | .osTaskNotifyClear => reading

/-! ## `watchdog.c` -/

/-- A call inside `watchdog.c`. -/
abbrev wdt (f : WdtFn) : Code KernelFn := .call (.wdt f)

/-- The functions of `watchdog.c`. -/
def wdtBody : WdtFn → Code KernelFn
  | .prvFindEntry => .block [.loop guard, .ret]
  | .prvDefaultTimeoutHandler => support .osAssertFailed
  | .osWdtInit => .loop .skip
  | .osWdtRegister => .block [guard, .enter, wdt .prvFindEntry, refusal, refusal, .exit, .ret]
  | .osWdtUnregister => .block [guard, .enter, .loop refusal, .exit, .ret]
  | .osWdtFeed => .block [wdt .osWdtFeedTask, .ret]
  | .osWdtFeedTask => .block [guard, wdt .prvFindEntry, guard, .ret]
  | .osWdtPause => .block [guard, wdt .prvFindEntry, guard, .ret]
  | .osWdtResume => .block [guard, wdt .prvFindEntry, guard, .ret]
  | .osWdtSetDeadline => .block [guard, wdt .prvFindEntry, guard, .enter, .exit, .ret]
  | .osWdtGetRemaining => .block [guard, wdt .prvFindEntry, guard, .ret]
  | .osWdtIsRegistered => .block [guard, wdt .prvFindEntry, .ret]
  | .osWdtSetDefaultCallback => .ret
  -- `continue`, or a callback that the application has registered, or the default handler
  | .osWdtTick =>
      .loop (.choice .skip (.test (.choice .callback (wdt .prvDefaultTimeoutHandler))))

/-! ## `timer.c` -/

/-- A call inside `timer.c`. -/
abbrev timer (f : TimerFn) : Code KernelFn := .call (.timer f)

/-- The calls from handlers: the list operations are between `os_port_enter_critical` and
`os_port_exit_critical`. -/
def timerFromIsr : Code KernelFn := .block [guard, .pulse, .ret]

/-- The functions of `timer.c`. -/
def timerBody : TimerFn → Code KernelFn
  | .prvTimerInsertSorted => .loop (.test .brk)
  | .prvTimerRemoveFromActive => .loop (.test .brk)
  | .timerServiceTask =>
      .loop (.block [sem .osSemTake, .enter, .exit, .loop (.test .callback)])
  | .osTimerInit => .block [guard, sem .osSemCreateBinary, task .osTaskCreate, guard, .ret]
  | .osTimerCreate => getter
  | .osTimerDelete =>
      .block [guard, .enter, .test (timer .prvTimerRemoveFromActive), .exit, .ret]
  | .osTimerStart =>
      .block [guard, .enter, .test (timer .prvTimerRemoveFromActive), timer .prvTimerInsertSorted,
        .exit, .ret]
  | .osTimerStop =>
      .block [guard, .enter, .test (timer .prvTimerRemoveFromActive), .exit, .ret]
  | .osTimerReset =>
      .block [guard, .enter,
        .test (.block [timer .prvTimerRemoveFromActive, timer .prvTimerInsertSorted]), .exit, .ret]
  | .osTimerChangePeriod =>
      .block [guard, .enter,
        .test (.block [timer .prvTimerRemoveFromActive, timer .prvTimerInsertSorted]), .exit, .ret]
  | .osTimerIsActive => getter
  | .osTimerStartFromIsr => timerFromIsr
  | .osTimerStopFromIsr => timerFromIsr
  | .osTimerResetFromIsr => timerFromIsr
  | .osTimerChangePeriodFromIsr => timerFromIsr
  | .osTimerGetName => getter
  | .osTimerTick =>
      .block [guard, .loop (.choice (timer .prvTimerInsertSorted) .skip),
        .test (sem .osSemGive)]

end CriticalPath

open CriticalPath in
/-- **The functions of the kernel**, by their critical sections. -/
def criticalPath : KernelFn → Code KernelFn
  | .support f => supportBody f
  | .task f => taskBody f
  | .queue f => queueBody f
  | .sem f => semBody f
  | .mutex f => mutexBody f
  | .eventGroup f => eventGroupBody f
  | .notify f => notifyBody f
  | .wdt f => wdtBody f
  | .timer f => timerBody f

/-- **No path of the kernel leaves a section open**, or exits one that it did not enter. -/
theorem criticalPath_closed (f : KernelFn) : Closed (criticalPath f) := by
  rcases f with f | f | f | f | f | f | f | f | f
  all_goals cases f <;> decide

end MiniRTOS
