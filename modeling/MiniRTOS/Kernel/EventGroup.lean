import MiniRTOS.Kernel.WaitList

/-! # Event groups

The functions of `eventgroup.c`; a blocking call is cut at its `os_sched_yield()` as in `Queue`. -/

namespace MiniRTOS

/-- `OS_EVENT_WAIT_ALL`. -/
def eventWaitAll : BitVec 32 := 0x80000000

/-- `OS_EVENT_CLEAR_ON_EXIT`. -/
def eventClearOnExit : BitVec 32 := 0x40000000

/-- `prv_block_task` of `eventgroup.c`, which also records what the task waits for. -/
def EventGroup.prvBlockTask (k : Kernel) (e : Addr) (t : TaskId) (bits options : BitVec 32)
    (timeout : Nat) : Option Kernel :=
  blockTask
    (k.setTcb t
      { k.tcb t with eventWaitBits := bits, eventWaitOptions := options, eventReturnBits := 0 })
    (.eventGroup e) t timeout .onEventWait (.eventGroup e)

/-- Whether bits `bits` satisfy a wait for `wanted` under `options`. -/
def eventSatisfied (bits wanted options : BitVec 32) : Bool :=
  if options &&& eventWaitAll ≠ 0 then bits &&& wanted == wanted else bits &&& wanted != 0

/-- `prv_check_condition`. -/
def EventGroup.prvCheckCondition (k : Kernel) (e : Addr) (t : TaskId) : Bool :=
  eventSatisfied (k.eventGroups e).bits (k.tcb t).eventWaitBits (k.tcb t).eventWaitOptions

/-- `os_eventgroup_create`. -/
def osEventgroupCreate (k : Kernel) (e : Addr) : Status × Kernel := (.ok, k.setEventGroup e ⟨0, none⟩)

/-- What `os_eventgroup_set_bits` does with a waiter whose condition is met. -/
def EventGroup.wakeWaiter (k : Kernel) (e : Addr) (t : TaskId) : Kernel :=
  let eg := k.eventGroups e
  -- the returned bits are those before clearing
  let k₁ := k.setTcb t { k.tcb t with eventReturnBits := eg.bits }
  let k₂ :=
    if (k₁.tcb t).eventWaitOptions &&& eventClearOnExit ≠ 0 then
      k₁.setEventGroup e { eg with bits := eg.bits &&& ~~~(k₁.tcb t).eventWaitBits }
    else k₁
  -- cleared at once, so the waiters behind this one are tested against what is left
  let k₃ := unblockTask k₂ (.eventGroup e) t
  osTaskAddToReady (k₃.setTcb t { k₃.tcb t with delayTicks := 0, timedOut := false }) t

/-- The walk over the waiters in `os_eventgroup_set_bits`, with the tasks woken so far. -/
def EventGroup.wakeWalk (e : Addr) :
    Nat → Kernel → List TaskId → Option TaskId → Option (Kernel × List TaskId)
  | _, k, woken, none => some (k, woken)
  | 0, _, _, some _ => none
  | fuel + 1, k, woken, some t =>
      if EventGroup.prvCheckCondition k e t then
        -- the next pointer is the one from before the waiter was unlinked
        wakeWalk e fuel (EventGroup.wakeWaiter k e t) (woken ++ [t]) (k.links.next t)
      else wakeWalk e fuel k woken (k.links.next t)

/-- The critical section of `os_eventgroup_set_bits` and its ISR form. -/
def EventGroup.setAndWake (k : Kernel) (e : Addr) (bits : BitVec 32) :
    Option (Kernel × List TaskId) :=
  let k₁ := k.setEventGroup e { k.eventGroups e with bits := (k.eventGroups e).bits ||| bits }
  EventGroup.wakeWalk e maxTasks k₁ [] (k₁.eventGroups e).waitList

/-- `os_eventgroup_set_bits`. -/
def osEventgroupSetBits (k : Kernel) (e : Addr) (bits : BitVec 32) : Option (Kernel × Status) := do
  let (k₁, woken) ← EventGroup.setAndWake (osSchedEnterCritical k) e bits
  let k₂ := osSchedExitCritical k₁
  if woken.isEmpty then some (k₂, .ok)
  else do
    let cur ← k₂.current
    some (if woken.any fun w => decide (k₂.prio w < k₂.prio cur) then osSchedYield k₂ else k₂, .ok)

/-- `os_eventgroup_set_bits_from_isr`. -/
def osEventgroupSetBitsFromIsr (k : Kernel) (e : Addr) (bits : BitVec 32) :
    Option (Kernel × Status) := do
  let (k₁, woken) ← EventGroup.setAndWake (osSchedEnterCritical k) e bits
  let k₂ := osSchedExitCritical k₁
  some (if woken.isEmpty then k₂ else osSchedRequestSwitchFromIsr k₂, .ok)

/-- `os_eventgroup_clear_bits`. -/
def osEventgroupClearBits (k : Kernel) (e : Addr) (bits : BitVec 32) : Kernel × Status :=
  let k₁ := osSchedEnterCritical k
  (osSchedExitCritical
    (k₁.setEventGroup e { k₁.eventGroups e with bits := (k₁.eventGroups e).bits &&& ~~~bits }), .ok)

/-- `os_eventgroup_clear_bits_from_isr`, which has the same body. -/
def osEventgroupClearBitsFromIsr (k : Kernel) (e : Addr) (bits : BitVec 32) : Kernel × Status :=
  osEventgroupClearBits k e bits

/-- `os_eventgroup_wait_bits` up to the point where it returns or suspends its caller. -/
def osEventgroupWaitBits (k : Kernel) (e : Addr) (bitsToWait options : BitVec 32) (timeout : Nat) :
    Option (Kernel × Outcome (BitVec 32)) :=
  let k₁ := osSchedEnterCritical k
  let eg := k₁.eventGroups e
  if eventSatisfied eg.bits bitsToWait options then
    let k₂ :=
      if options &&& eventClearOnExit ≠ 0 then
        k₁.setEventGroup e { eg with bits := eg.bits &&& ~~~bitsToWait }
      else k₁
    some (osSchedExitCritical k₂, .done eg.bits)
  else if timeout = waitNone then some (osSchedExitCritical k₁, .done 0)
  else do
    let c ← k₁.current
    let k₂ ← EventGroup.prvBlockTask k₁ e c bitsToWait options timeout
    some (osSchedYield (osSchedExitCritical k₂), .blocked)

/-- `os_eventgroup_wait_bits` after its `os_sched_yield()`. -/
def osEventgroupWaitBitsResume (k : Kernel) (cur : TaskId) : BitVec 32 :=
  (k.tcb cur).eventReturnBits

end MiniRTOS
