import MiniRTOS.Kernel.WaitList
import MiniRTOS.Lib.ByteMemory

/-! # Message queues

The functions of `queue.c`. A call that blocks its caller is cut at the `os_sched_yield()`: the part
before it answers `.blocked`, and the part after it, run when the caller is current again, is the
`...Resume` function. `item` is the memory behind the caller's pointer; null arguments, which every
call rejects with `OS_ERR_PARAM`, are left out. -/

namespace MiniRTOS

open ByteMemory

/-- `prv_block_task` of `queue.c`. -/
def Queue.prvBlockTask (k : Kernel) (list : WaitList) (t : TaskId) (timeout : Nat)
    (reason : BlockedReason) (owner : Obj) : Option Kernel :=
  blockTask k list t timeout reason owner

/-- `prv_unblock_task` of `queue.c`. -/
def Queue.prvUnblockTask (k : Kernel) (list : WaitList) (t : TaskId) : Kernel :=
  unblockTask k list t

/-- `prv_wake_task` of `queue.c`. -/
def Queue.prvWakeTask (k : Kernel) (list : WaitList) : Option TaskId × Kernel := wakeTask k list

/-- `os_queue_create`, with the heap's answer `block`. -/
def osQueueCreate (k : Kernel) (q : Addr) (itemSize maxItems : Nat) (block : Option Addr) :
    Status × Kernel :=
  if itemSize = 0 ∨ maxItems = 0 then (.errParam, k)
  else
    -- `buf_size` is written before the allocation is checked
    let k₁ := k.setQueue q { k.queues q with bufSize := itemSize * maxItems % 2 ^ 32 }
    match block with
    | none => (.errNoMem, k₁)
    | some _ =>
        (.ok, k₁.setQueue q
          { k₁.queues q with
            itemSize := itemSize, maxItems := maxItems, count := 0, head := 0, tail := 0
            sendWaitList := none, recvWaitList := none })

/-- The ring write shared by the sending calls: copy the item to the tail slot. -/
def Queue.put (qu : Queue) (item : Mem) : Queue :=
  { qu with
    buffer := writeBytes qu.buffer qu.tail (readBytes item 0 qu.itemSize)
    tail := (qu.tail + qu.itemSize) % 2 ^ 32 % qu.bufSize
    count := qu.count + 1 }

/-- The ring read shared by the receiving calls: the bytes copied out of the head slot. -/
def Queue.front (qu : Queue) : List UInt8 := readBytes qu.buffer qu.head qu.itemSize

/-- The index update shared by the receiving calls. -/
def Queue.pop (qu : Queue) : Queue :=
  { qu with head := (qu.head + qu.itemSize) % 2 ^ 32 % qu.bufSize, count := qu.count - 1 }

/-- The preemption test after a wake-up in `os_queue_send` and `os_queue_receive`. -/
def Queue.preempt (k : Kernel) (woken : Option TaskId) : Option Kernel :=
  match woken with
  | none => some k
  | some w => do
      let cur ← k.current
      some (if k.prio w < k.prio cur ∧ (k.tcb cur).state = .running then osSchedYield k else k)

/-- `os_queue_send` up to the point where it returns or suspends its caller. -/
def osQueueSend (k : Kernel) (q : Addr) (item : Mem) (timeout : Nat) :
    Option (Kernel × Outcome Status) :=
  let k₁ := osSchedEnterCritical k
  let qu := k₁.queues q
  -- a waiting receiver is only made READY: the item lies in the ring until somebody takes it
  if qu.count < qu.maxItems then do
    let (woken, k₂) := Queue.prvWakeTask (k₁.setQueue q (qu.put item)) (.queueRecv q)
    let k₃ ← Queue.preempt (osSchedExitCritical k₂) woken
    some (k₃, .done .ok)
  else if timeout = waitNone then some (osSchedExitCritical k₁, .done .errFull)
  -- the item is not kept for a sender that goes to sleep
  else do
    let c ← k₁.current
    let k₂ ← Queue.prvBlockTask k₁ (.queueSend q) c timeout .onQueueSend (.queue q)
    some (osSchedYield (osSchedExitCritical k₂), .blocked)

/-- `os_queue_send` after its `os_sched_yield()`: only the `timed_out` flag is looked at. -/
def osQueueSendResume (k : Kernel) (cur : TaskId) : Status :=
  if (k.tcb cur).timedOut then .errTimeout else .ok

/-- `os_queue_send_from_isr`. -/
def osQueueSendFromIsr (k : Kernel) (q : Addr) (item : Mem) : Kernel × Status :=
  let k₁ := osSchedEnterCritical k
  let qu := k₁.queues q
  if qu.count < qu.maxItems then
    let (woken, k₂) := Queue.prvWakeTask (k₁.setQueue q (qu.put item)) (.queueRecv q)
    let k₃ := osSchedExitCritical k₂
    (if woken.isSome then osSchedRequestSwitchFromIsr k₃ else k₃, .ok)
  else (osSchedExitCritical k₁, .errFull)

/-- `os_queue_receive` up to the point where it returns or suspends its caller, with the bytes it
has copied into the caller's buffer. -/
def osQueueReceive (k : Kernel) (q : Addr) (timeout : Nat) :
    Option (Kernel × Outcome (Status × Option (List UInt8))) :=
  let k₁ := osSchedEnterCritical k
  let qu := k₁.queues q
  if qu.count > 0 then do
    let (woken, k₂) := Queue.prvWakeTask (k₁.setQueue q qu.pop) (.queueSend q)
    let k₃ ← Queue.preempt (osSchedExitCritical k₂) woken
    some (k₃, .done (.ok, some qu.front))
  else if timeout = waitNone then some (osSchedExitCritical k₁, .done (.errEmpty, none))
  else do
    let c ← k₁.current
    let k₂ ← Queue.prvBlockTask k₁ (.queueRecv q) c timeout .onQueueRecv (.queue q)
    some (osSchedYield (osSchedExitCritical k₂), .blocked)

/-- `os_queue_receive` after its `os_sched_yield()`: nothing is copied on this path. -/
def osQueueReceiveResume (k : Kernel) (cur : TaskId) : Status × Option (List UInt8) :=
  if (k.tcb cur).timedOut then (.errTimeout, none) else (.ok, none)

/-- `os_queue_receive_from_isr`. -/
def osQueueReceiveFromIsr (k : Kernel) (q : Addr) : Kernel × Status × Option (List UInt8) :=
  let k₁ := osSchedEnterCritical k
  let qu := k₁.queues q
  if qu.count > 0 then
    let (woken, k₂) := Queue.prvWakeTask (k₁.setQueue q qu.pop) (.queueSend q)
    let k₃ := osSchedExitCritical k₂
    (if woken.isSome then osSchedRequestSwitchFromIsr k₃ else k₃, .ok, some qu.front)
  else (osSchedExitCritical k₁, .errEmpty, none)

/-- The common shape of `os_queue_send` and `os_queue_receive`: under the condition `p` the queue becomes
`qu`, the first waiter of `w` is woken and `a` returned; otherwise `b` is returned, or the caller goes
to sleep in `w'`. -/
def Queue.exchange {α : Type} (k : Kernel) (q : Addr) (p : Prop) [Decidable p] (qu : Queue)
    (w w' : WaitList) (a b : α) (timeout : Nat) : Option (Kernel × Outcome α) :=
  let k₁ := osSchedEnterCritical k
  if p then do
    let (woken, k₂) := wakeTask (k₁.setQueue q qu) w
    let k₃ ← Queue.preempt (osSchedExitCritical k₂) woken
    some (k₃, .done a)
  else if timeout = waitNone then some (osSchedExitCritical k₁, .done b)
  else do
    let c ← k₁.current
    let k₂ ← blockTask k₁ w' c timeout w'.reason w'.obj
    some (osSchedYield (osSchedExitCritical k₂), .blocked)

/-- Sending is the exchange whose turn is a free slot. -/
theorem osQueueSend_eq_exchange (k : Kernel) (q : Addr) (item : Mem) (timeout : Nat) :
    osQueueSend k q item timeout
      = Queue.exchange k q ((k.queues q).count < (k.queues q).maxItems) ((k.queues q).put item)
          (.queueRecv q) (.queueSend q) .ok .errFull timeout := rfl

/-- Receiving is the exchange whose turn is a filled slot. -/
theorem osQueueReceive_eq_exchange (k : Kernel) (q : Addr) (timeout : Nat) :
    osQueueReceive k q timeout
      = Queue.exchange k q (0 < (k.queues q).count) (k.queues q).pop (.queueSend q) (.queueRecv q)
          (.ok, some (k.queues q).front) (.errEmpty, none) timeout := rfl

section Exchange

variable {α : Type} {k : Kernel} {q : Addr} {p : Prop} [Decidable p] {qu : Queue} {w w' : WaitList}
  {a b : α} {timeout : Nat} {c : TaskId}

/-- The call is served. -/
theorem Queue.exchange_served (hp : p) :
    Queue.exchange k q p qu w w' a b timeout
      = (Queue.preempt (osSchedExitCritical (wakeTask ((osSchedEnterCritical k).setQueue q qu) w).2)
          (wakeTask ((osSchedEnterCritical k).setQueue q qu) w).1).map fun k' => (k', .done a) := by
  rw [Queue.exchange, if_pos hp, Option.map_eq_bind]
  rfl

/-- The call is not served. -/
theorem Queue.exchange_unserved (hc : k.current = some c) (hp : ¬ p) :
    Queue.exchange k q p qu w w' a b timeout
      = if timeout = waitNone then some (osSchedExitCritical (osSchedEnterCritical k), .done b)
        else
          (blockTask (osSchedEnterCritical k) w' c timeout w'.reason w'.obj).map
            fun k' => (osSchedYield (osSchedExitCritical k'), .blocked) := by
  have hcur : (osSchedEnterCritical k).current = some c := hc
  rw [Queue.exchange, if_neg hp, hcur, Option.map_eq_bind]
  rfl

/-- **What such a call does**: it is served, refused, or puts its caller to sleep. -/
theorem Queue.exchange_cases {r : Kernel × Outcome α}
    (h : Queue.exchange k q p qu w w' a b timeout = some r) :
    (p ∧ ∃ k', Queue.preempt
        (osSchedExitCritical (wakeTask ((osSchedEnterCritical k).setQueue q qu) w).2)
        (wakeTask ((osSchedEnterCritical k).setQueue q qu) w).1 = some k' ∧ r = (k', .done a)) ∨
      (¬ p ∧ r = (osSchedExitCritical (osSchedEnterCritical k), .done b)) ∨
      (¬ p ∧ ∃ c k', k.current = some c ∧
        blockTask (osSchedEnterCritical k) w' c timeout w'.reason w'.obj = some k' ∧
        r = (osSchedYield (osSchedExitCritical k'), .blocked)) := by
  by_cases hp : p
  · rw [Queue.exchange_served hp] at h
    obtain ⟨k', hk', hr⟩ := Option.map_eq_some_iff.mp h
    exact Or.inl ⟨hp, k', hk', hr.symm⟩
  · rw [Queue.exchange, if_neg hp] at h
    split at h
    · exact Or.inr (Or.inl ⟨hp, (Option.some.inj h).symm⟩)
    · exact Or.inr (Or.inr ⟨hp, sleep_inv h⟩)

end Exchange

/-- `os_queue_reset`, which refuses to touch a queue with waiting tasks. -/
def osQueueReset (k : Kernel) (q : Addr) : Kernel × Status :=
  let k₁ := osSchedEnterCritical k
  let qu := k₁.queues q
  if qu.sendWaitList.isSome ∨ qu.recvWaitList.isSome then (osSchedExitCritical k₁, .errState)
  else (osSchedExitCritical (k₁.setQueue q { qu with count := 0, head := 0, tail := 0 }), .ok)

/-- `os_queue_peek`, with the bytes it has copied into the caller's buffer. -/
def osQueuePeek (k : Kernel) (q : Addr) : Kernel × Status × Option (List UInt8) :=
  let k₁ := osSchedEnterCritical k
  let qu := k₁.queues q
  if qu.count = 0 then (osSchedExitCritical k₁, .errEmpty, none)
  else (osSchedExitCritical k₁, .ok, some qu.front)

/-- The ring write of the overwriting calls: into the empty slot, which wakes a receiver, or over the
item that is there. -/
def Queue.overwriteSlot (k : Kernel) (q : Addr) (item : Mem) : Option TaskId × Kernel :=
  let qu := k.queues q
  if qu.count = 0 then Queue.prvWakeTask (k.setQueue q { qu.put item with count := 1 }) (.queueRecv q)
  else
    (none, k.setQueue q
      { qu with buffer := writeBytes qu.buffer qu.head (readBytes item 0 qu.itemSize) })

/-- `os_queue_overwrite`, for queues of one item. -/
def osQueueOverwrite (k : Kernel) (q : Addr) (item : Mem) : Kernel × Status :=
  let k₁ := osSchedEnterCritical k
  if (k₁.queues q).maxItems ≠ 1 then (osSchedExitCritical k₁, .errState)
  else
    let (woken, k₂) := Queue.overwriteSlot k₁ q item
    let k₃ := osSchedExitCritical k₂
    -- unlike the other queue calls, a null current task is checked for
    match woken, k₃.current with
    | some w, some cur =>
        (if k₃.prio w < k₃.prio cur ∧ (k₃.tcb cur).state = .running then osSchedYield k₃ else k₃, .ok)
    | _, _ => (k₃, .ok)

/-- `os_queue_overwrite_from_isr`. -/
def osQueueOverwriteFromIsr (k : Kernel) (q : Addr) (item : Mem) : Kernel × Status :=
  let k₁ := osSchedEnterCritical k
  if (k₁.queues q).maxItems ≠ 1 then (osSchedExitCritical k₁, .errState)
  else
    let (woken, k₂) := Queue.overwriteSlot k₁ q item
    let k₃ := osSchedExitCritical k₂
    (if woken.isSome then osSchedRequestSwitchFromIsr k₃ else k₃, .ok)

/-- `os_queue_get_count` (its ISR form reads the same field inside a critical section). -/
def osQueueGetCount (k : Kernel) (q : Addr) : Nat := (k.queues q).count

/-- `os_queue_get_spaces`. -/
def osQueueGetSpaces (k : Kernel) (q : Addr) : Nat :=
  ((k.queues q).maxItems + 2 ^ 32 - (k.queues q).count) % 2 ^ 32

/-- `os_queue_is_empty`. -/
def osQueueIsEmpty (k : Kernel) (q : Addr) : Bool := (k.queues q).count == 0

/-- `os_queue_is_full`. -/
def osQueueIsFull (k : Kernel) (q : Addr) : Bool := decide ((k.queues q).count ≥ (k.queues q).maxItems)

end MiniRTOS
