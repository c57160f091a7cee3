import MiniRTOS.Kernel.Task

/-! # Task notifications

The functions of `notify.c`; the blocking call is cut at its `os_sched_yield()` as in `Queue`. -/

namespace MiniRTOS

/-- The common part of `os_task_notify` and its ISR form inside the critical section: store the
value, and wake a target that waits for it. Says whether the target was woken. -/
def notifyTask (k : Kernel) (t : TaskId) (value : BitVec 32) : Bool × Kernel :=
  let k₁ := k.setTcb t { k.tcb t with notifyValue := value, notifyPending := true }
  -- the value overwrites one that has not been read yet
  if (k₁.tcb t).state = .blocked ∧ (k₁.tcb t).blockedReason = .onNotify then
    let k₂ := osTaskRemoveFromBlocked k₁ t
    let k₃ := k₂.setTcb t
      { k₂.tcb t with blockedReason := .none, delayTicks := 0, timedOut := false }
    (true, osTaskAddToReady k₃ t)
  else (false, k₁)

/-- `os_task_notify` of a non-null handle. -/
def osTaskNotify (k : Kernel) (t : TaskId) (value : BitVec 32) : Option (Kernel × Status) :=
  let (woken, k₁) := notifyTask (osSchedEnterCritical k) t value
  let k₂ := osSchedExitCritical k₁
  if woken then do
    let cur ← k₂.current
    some (if k₂.prio t < k₂.prio cur then osSchedYield k₂ else k₂, .ok)
  else some (k₂, .ok)

/-- `os_task_notify_from_isr` of a non-null handle. -/
def osTaskNotifyFromIsr (k : Kernel) (t : TaskId) (value : BitVec 32) : Kernel × Status :=
  let (woken, k₁) := notifyTask (osSchedEnterCritical k) t value
  (osSchedExitCritical (if woken then osSchedRequestSwitchFromIsr k₁ else k₁), .ok)

/-- Take a pending notification of `t`: the value stored through `value_out`. -/
def takeNotification (k : Kernel) (t : TaskId) : Kernel × BitVec 32 :=
  (k.setTcb t { k.tcb t with notifyPending := false }, (k.tcb t).notifyValue)

/-- `os_task_notify_wait` up to the point where it returns or suspends its caller, with the value
stored through `value_out`. -/
def osTaskNotifyWait (k : Kernel) (timeout : Nat) :
    Option (Kernel × Outcome (Status × Option (BitVec 32))) := do
  let t ← k.current
  let k₁ := osSchedEnterCritical k
  if (k₁.tcb t).notifyPending then
    let (k₂, v) := takeNotification k₁ t
    some (osSchedExitCritical k₂, .done (.ok, some v))
  else if timeout = waitNone then some (osSchedExitCritical k₁, .done (.errTimeout, none))
  else
    let k₂ := k₁.setTcb t { k₁.tcb t with blockedReason := .onNotify, timedOut := false }
    -- a delay of zero is never counted down
    let k₃ := osTaskAddToBlocked k₂ t (if timeout = waitForever then 0 else timeout)
    some (osSchedYield (osSchedExitCritical k₃), .blocked)

/-- `os_task_notify_wait` after its `os_sched_yield()`. -/
def osTaskNotifyWaitResume (k : Kernel) (cur : TaskId) : Kernel × Status × Option (BitVec 32) :=
  if (k.tcb cur).notifyPending then
    let (k₁, v) := takeNotification k cur
    -- read and cleared without a critical section
    (k₁, .ok, some v)
  else (k, .errTimeout, none)

end MiniRTOS
