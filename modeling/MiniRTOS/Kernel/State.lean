import Mathlib.Data.Fin.Basic
import MiniRTOS.Lib.Links

/-! # Kernel data model

The types of `os_types.h`, the control blocks of `task.h`, `queue.h`, `semaphore.h`, `mutex.h` and
`eventgroup.h`, and the file-scope variables of `task.c`, `scheduler.c`, `kernel.c` and `port.c`
gathered into one record `Kernel`.

A pointer is an `Option` of an address, `none` for `NULL`. Memory is kept field by field: the two
list pointers of all task control blocks are the `Links` of `Kernel.links`, their other fields are
`Kernel.tcb`. Names for debugging and trace records are left out. -/

namespace MiniRTOS

open PtrList

/-! ## Configuration (`os_config.h`) and constants (`os_types.h`) -/

/-- `OS_CONFIG_MAX_TASKS`. -/
def maxTasks : Nat := 16

/-- `OS_CONFIG_NUM_PRIORITIES` (0 is the highest priority). -/
abbrev numPriorities : Nat := 8

/-- There is a priority. -/
instance : NeZero numPriorities := ⟨by decide⟩

/-- `OS_WAIT_FOREVER`. -/
def waitForever : Nat := 0xFFFFFFFF

/-- `OS_WAIT_NONE`. -/
def waitNone : Nat := 0

/-- `OS_STACK_CANARY_VALUE`. -/
def stackCanaryValue : BitVec 32 := 0xCCCCCCCC

/-- The pattern `prv_fill_stack` writes for the high-water mark. -/
def stackFillValue : BitVec 32 := 0xA5A5A5A5

/-- `CRITICAL_NESTING_MAX`. -/
def criticalNestingMax : Nat := 4

/-- Addresses of control blocks and buffers. -/
abbrev Addr := Nat

/-- A non-null `os_tcb_t *`. -/
abbrev TaskId := Addr

/-- A priority below `OS_CONFIG_NUM_PRIORITIES`. `os_task_create` and `os_task_set_priority` check
the bound, so the `OS_ASSERT(prio < OS_CONFIG_NUM_PRIORITIES)` of the ready-list functions holds by
type. -/
abbrev Prio := Fin numPriorities

/-- Address of the static `idle_task_stack`. -/
def idleTaskStack : Addr := 0x20000100

/-- `os_status_t`. -/
inductive Status
  | ok | errNoMem | errParam | errState | errFull | errEmpty | errTimeout | errWouldBlock
  deriving DecidableEq, Repr

/-- `os_task_state_t`. -/
inductive TaskState
  | ready | running | suspended | blocked | deleted
  deriving DecidableEq, Repr

/-- `os_blocked_reason_t`. -/
inductive BlockedReason
  | none | onQueueSend | onQueueRecv | onSemTake | onMutexLock | onEventWait | onNotify
  deriving DecidableEq, Repr

/-- What the untyped pointer `blocked_on` can point to. -/
inductive Obj
  | queue (q : Addr) | sem (s : Addr) | mutex (m : Addr) | eventGroup (e : Addr)
  deriving DecidableEq, Repr

/-- What a call that may suspend its caller has done by the time the CPU leaves it: returned a
value, or left the caller at its `os_sched_yield()`, to be continued after a context switch. -/
inductive Outcome (α : Type)
  /-- The call returned. -/
  | done (result : α)
  /-- Its caller was put to sleep. -/
  | blocked
  deriving DecidableEq, Repr

/-! ## Control blocks -/

/-- `os_tcb_t`, without its list pointers (`Kernel.links`). -/
structure Tcb where
  /-- Saved stack pointer of a task that is switched out. -/
  stackPtr : Nat
  /-- Lowest address of the stack. -/
  stackBase : Addr
  /-- Size of the stack in bytes. -/
  stackSize : Nat
  /-- Current priority. -/
  priority : Prio
  /-- Task state. -/
  state : TaskState
  /-- Ticks remaining when blocked. -/
  delayTicks : Nat
  /-- Set by self-deletion. -/
  pendingDelete : Bool
  /-- Largest stack use seen at a tick. -/
  stackHighWater : Nat
  /-- The object the task waits for. -/
  blockedOn : Option Obj
  /-- Which primitive the task waits in. -/
  blockedReason : BlockedReason
  /-- Set when the wait timed out. -/
  timedOut : Bool
  /-- Event bits waited for. -/
  eventWaitBits : BitVec 32
  /-- Event wait options. -/
  eventWaitOptions : BitVec 32
  /-- Event bits at wake-up. -/
  eventReturnBits : BitVec 32
  /-- Notification value. -/
  notifyValue : BitVec 32
  /-- A notification is pending. -/
  notifyPending : Bool
  /-- Ticks spent running. -/
  runTimeTicks : Nat

/-- `os_ready_list_t`. -/
structure ReadyList where
  /-- First task. -/
  head : Option TaskId
  /-- Last task. -/
  tail : Option TaskId
  /-- Number of tasks. -/
  count : Nat

/-- `os_queue_t`. The ring storage is read and written by byte offset. -/
structure Queue where
  /-- The bytes at `buffer`, by offset. -/
  buffer : Nat → UInt8
  /-- Size of an item in bytes. -/
  itemSize : Nat
  /-- Capacity in items. -/
  maxItems : Nat
  /-- Items stored. -/
  count : Nat
  /-- Offset of the next item to read. -/
  head : Nat
  /-- Offset of the next slot to write. -/
  tail : Nat
  /-- Size of the storage in bytes. -/
  bufSize : Nat
  /-- Tasks waiting to send. -/
  sendWaitList : Option TaskId
  /-- Tasks waiting to receive. -/
  recvWaitList : Option TaskId

/-- `os_sem_t`. -/
structure Sem where
  /-- Tokens available. -/
  count : Nat
  /-- Most tokens the semaphore can hold. -/
  maxCount : Nat
  /-- Tasks waiting to take. -/
  waitList : Option TaskId

/-- `os_mutex_t`. -/
structure Mutex where
  /-- The task that holds the mutex. -/
  owner : Option TaskId
  /-- Lock depth. -/
  lockCount : Nat
  /-- The owner's priority when it acquired the mutex. -/
  originalPrio : Prio
  /-- Tasks waiting to lock. -/
  waitList : Option TaskId

/-- `os_eventgroup_t`. -/
structure EventGroup where
  /-- Current event bits. -/
  bits : BitVec 32
  /-- Tasks waiting for bits. -/
  waitList : Option TaskId

/-! ## The kernel state -/

/-- All kernel variables, together with the objects the application hands to the kernel. -/
structure Kernel where
  /-- `next` and `prev` of every task control block. -/
  links : Links TaskId
  /-- The other fields of every task control block. -/
  tcb : TaskId → Tcb
  /-- `ready_list`. -/
  readyList : Prio → ReadyList
  /-- `ready_bitmap`. -/
  readyBitmap : BitVec 32
  /-- `blocked_list`. -/
  blockedList : Option TaskId
  /-- `deferred_delete_list`. -/
  deferredDeleteList : Option TaskId
  /-- `task_table[0 .. task_count)`. -/
  taskTable : List TaskId
  /-- `current_task_ptr`. -/
  current : Option TaskId
  /-- The words of the task stacks, by address. -/
  stackMem : Addr → BitVec 32
  /-- The control blocks that the heap has handed out and not got back. -/
  liveTcbs : List TaskId
  /-- The pointers passed to `os_heap_free` so far. -/
  freed : List Addr
  /-- `system_tick`. -/
  systemTick : Nat
  /-- `last_switch_tick`. -/
  lastSwitchTick : Nat
  /-- `scheduler_running`. -/
  schedulerRunning : Bool
  /-- `yield_pending`. -/
  yieldPending : Bool
  /-- The PendSV pending bit that `os_port_yield` sets. -/
  pendSv : Bool
  /-- `critical_nesting`, a 32-bit counter. It is zero between the calls of a run
  (`criticalNesting_of_run`) and two at most inside one (`TakesPath`), so it is a number here; the
  wrapping counter is the one of `MaskNesting.Lock`. -/
  criticalNesting : Nat
  /-- `saved_mask`. -/
  savedMask : Nat → Nat
  /-- The PRIMASK register. -/
  primask : Nat
  /-- Every queue. -/
  queues : Addr → Queue
  /-- Every semaphore. -/
  sems : Addr → Sem
  /-- Every mutex. -/
  mutexes : Addr → Mutex
  /-- Every event group. -/
  eventGroups : Addr → EventGroup

/-- Write one task control block. -/
def Kernel.setTcb (k : Kernel) (t : TaskId) (v : Tcb) : Kernel :=
  { k with tcb := Function.update k.tcb t v }

/-- Replace the list pointers of the control blocks. -/
def Kernel.setLinks (k : Kernel) (s : Links TaskId) : Kernel := { k with links := s }

/-- Write one queue. -/
def Kernel.setQueue (k : Kernel) (q : Addr) (v : Queue) : Kernel :=
  { k with queues := Function.update k.queues q v }

/-- Write one semaphore. -/
def Kernel.setSem (k : Kernel) (s : Addr) (v : Sem) : Kernel :=
  { k with sems := Function.update k.sems s v }

/-- Write one mutex. -/
def Kernel.setMutex (k : Kernel) (m : Addr) (v : Mutex) : Kernel :=
  { k with mutexes := Function.update k.mutexes m v }

/-- Write one event group. -/
def Kernel.setEventGroup (k : Kernel) (e : Addr) (v : EventGroup) : Kernel :=
  { k with eventGroups := Function.update k.eventGroups e v }

/-- The priority of a task. -/
def Kernel.prio (k : Kernel) (t : TaskId) : Prio := (k.tcb t).priority

end MiniRTOS
