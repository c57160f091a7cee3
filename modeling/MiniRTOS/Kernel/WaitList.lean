import MiniRTOS.Kernel.Task

/-! # Wait lists

Queues, semaphores, mutexes and event groups each carry their own copy of `prv_block_task` and
`prv_unblock_task`, differing only in the list head they work on and in the `blocked_on` and
`blocked_reason` they store. `WaitList` names the list heads; `blockTask`, `unblockTask` and
`wakeTask` are the common bodies, and the members below are those bodies at their own values. -/

namespace MiniRTOS

open PtrList

/-- The wait lists of the kernel objects. -/
inductive WaitList
  | queueSend (q : Addr) | queueRecv (q : Addr) | sem (s : Addr) | mutex (m : Addr)
  | eventGroup (e : Addr)
  deriving DecidableEq, Repr

/-- The object a wait list belongs to. -/
def WaitList.obj : WaitList → Obj
  | .queueSend q => .queue q
  | .queueRecv q => .queue q
  | .sem s => .sem s
  | .mutex m => .mutex m
  | .eventGroup e => .eventGroup e

/-- The reason stored in the tasks of a wait list. -/
def WaitList.reason : WaitList → BlockedReason
  | .queueSend _ => .onQueueSend
  | .queueRecv _ => .onQueueRecv
  | .sem _ => .onSemTake
  | .mutex _ => .onMutexLock
  | .eventGroup _ => .onEventWait

/-- The head pointer of a wait list. -/
def Kernel.waitHead (k : Kernel) : WaitList → Option TaskId
  | .queueSend q => (k.queues q).sendWaitList
  | .queueRecv q => (k.queues q).recvWaitList
  | .sem s => (k.sems s).waitList
  | .mutex m => (k.mutexes m).waitList
  | .eventGroup e => (k.eventGroups e).waitList

/-- Write the head pointer of a wait list. -/
def Kernel.setWaitHead (k : Kernel) (h : Option TaskId) : WaitList → Kernel
  | .queueSend q => k.setQueue q { k.queues q with sendWaitList := h }
  | .queueRecv q => k.setQueue q { k.queues q with recvWaitList := h }
  | .sem s => k.setSem s { k.sems s with waitList := h }
  | .mutex m => k.setMutex m { k.mutexes m with waitList := h }
  | .eventGroup e => k.setEventGroup e { k.eventGroups e with waitList := h }

/-- The insertion walk of `prv_block_task`: stop at the first waiter of larger priority number.
Returns the last waiter passed and the one stopped at. -/
def findSlot (k : Kernel) (prio : Prio) :
    Nat → Option TaskId → Option TaskId → Option (Option TaskId × Option TaskId)
  | _, prev, none => some (prev, none)
  | 0, _, some _ => none
  | fuel + 1, prev, some i =>
      -- equal priorities are passed, so that the first to come is the first to go
      if prio < k.prio i then some (prev, some i)
      else findSlot k prio fuel (some i) (k.links.next i)

/-- The pointer writes at the end of `prv_block_task`: link the task between the two waiters, or put
it at the head of the list. -/
def linkWaiter (k : Kernel) (w : WaitList) (t : TaskId) (prev iter : Option TaskId) : Kernel :=
  let k₁ := k.setLinks (k.links.splice t prev iter)
  if prev.isSome then k₁ else k₁.setWaitHead (some t) w

/-- The common body of `prv_block_task`. -/
def blockTask (k : Kernel) (w : WaitList) (t : TaskId) (timeout : Nat) (reason : BlockedReason)
    (owner : Obj) : Option Kernel := do
  let k₁ := k.setTcb t
    { k.tcb t with
      blockedOn := some owner, blockedReason := reason, timedOut := false, delayTicks := timeout }
  -- the delay is stored, but the task does not go into `blocked_list`
  let k₂ := osTaskRemoveFromReady k₁ t
  let k₃ := k₂.setTcb t { k₂.tcb t with state := .blocked }
  let (prev, iter) ← findSlot k₃ (k₃.prio t) maxTasks none (k₃.waitHead w)
  some (linkWaiter k₃ w t prev iter)

/-- **The end of a call that suspends its caller**: the current task is queued, and the call stops at
its `os_sched_yield()`. -/
theorem sleep_inv {α : Type} {k : Kernel} {f : TaskId → Option Kernel} {r : Kernel × Outcome α}
    (h : (do
      let c ← k.current
      let k₂ ← f c
      some (osSchedYield (osSchedExitCritical k₂), .blocked)) = some r) :
    ∃ c k₂, k.current = some c ∧ f c = some k₂ ∧
      r = (osSchedYield (osSchedExitCritical k₂), .blocked) := by
  obtain ⟨c, hc, h⟩ := Option.bind_eq_some_iff.mp h
  obtain ⟨k₂, hk₂, h⟩ := Option.bind_eq_some_iff.mp h
  exact ⟨c, k₂, hc, hk₂, (Option.some.inj h).symm⟩

/-- The common body of `prv_unblock_task`. -/
def unblockTask (k : Kernel) (w : WaitList) (t : TaskId) : Kernel :=
  let k₁ := if (k.links.prev t).isSome then k else k.setWaitHead (k.links.next t) w
  let k₂ := k₁.setLinks (k₁.links.unlink t)
  k₂.setTcb t { k₂.tcb t with blockedOn := none, blockedReason := .none }

/-- The common body of `prv_wake_task`: wake the first waiter, if any. -/
def wakeTask (k : Kernel) (w : WaitList) : Option TaskId × Kernel :=
  match k.waitHead w with
  | none => (none, k)
  | some t =>
      let k₁ := unblockTask k w t
      let k₂ := k₁.setTcb t { k₁.tcb t with delayTicks := 0, timedOut := false }
      (some t, osTaskAddToReady k₂ t)

end MiniRTOS
