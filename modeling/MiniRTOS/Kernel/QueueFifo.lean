import MiniRTOS.Lib.BoundedFifo
import MiniRTOS.Kernel.Heap
import MiniRTOS.Kernel.QueueDelivery

/-! # Queues refine bounded lists

The calls that never block, on a queue nobody waits for. The ring of bytes with its two offsets behaves
as a list of at most `max_items` items: `Queue.Valid` ties the offsets to the slots, `Queue.items`
reads the list off the ring, and each call answers what the operation on the list answers.

* **`QueueCall.run`** — a call on the kernel, with what it returns to its caller.
* **`queueCall_simulates`** — one call, one operation of `BoundedFifo`.
* **`queue_refines_fifo`** — every sequence of calls on a new queue, with every copy inside the
  ring. -/

namespace MiniRTOS

open ByteMemory ByteRing Runs

variable {k k' : Kernel} {q : Addr} {sz n : Nat} {l : List (List UInt8)}

/-! ## The calls -/

/-- The calls on a queue that never put their caller to sleep; `item` is the memory behind the
pointer they get. -/
inductive QueueCall
  /-- `os_queue_send`. -/
  | send (item : Mem)
  /-- `os_queue_send_from_isr`. -/
  | sendFromIsr (item : Mem)
  /-- `os_queue_receive`. -/
  | receive
  /-- `os_queue_receive_from_isr`. -/
  | receiveFromIsr
  /-- `os_queue_peek`. -/
  | peek
  /-- `os_queue_overwrite`. -/
  | overwrite (item : Mem)
  /-- `os_queue_overwrite_from_isr`. -/
  | overwriteFromIsr (item : Mem)
  /-- `os_queue_reset`. -/
  | reset

/-- What a call returns: its status, and the bytes it has copied to its caller. -/
abbrev QueueResult := Status × Option (List UInt8)

/-- A blocking call that was told not to wait has returned. -/
def Outcome.result? {α : Type} : Outcome α → Option α
  | .done r => some r
  | .blocked => none

/-- Make a call, with `OS_WAIT_NONE` as the time-out. -/
def QueueCall.run (q : Addr) (k : Kernel) : QueueCall → Option (Kernel × QueueResult)
  | .send item => do
      let (k', r) ← osQueueSend k q item waitNone
      let r ← r.result?
      some (k', r, none)
  | .sendFromIsr item =>
      let (k', r) := osQueueSendFromIsr k q item
      some (k', r, none)
  | .receive => do
      let (k', r) ← osQueueReceive k q waitNone
      let r ← r.result?
      some (k', r)
  | .receiveFromIsr => some (osQueueReceiveFromIsr k q)
  | .peek => some (osQueuePeek k q)
  | .overwrite item =>
      let (k', r) := osQueueOverwrite k q item
      some (k', r, none)
  | .overwriteFromIsr item =>
      let (k', r) := osQueueOverwriteFromIsr k q item
      some (k', r, none)
  | .reset =>
      let (k', r) := osQueueReset k q
      some (k', r, none)

/-- The range of the ring, as offset and length, that the `memcpy` of a call reads or writes. -/
def QueueCall.copy (qu : Queue) : QueueCall → Option (Nat × Nat)
  | .send _ | .sendFromIsr _ =>
      if qu.count < qu.maxItems then some (qu.tail, qu.itemSize) else none
  | .receive | .receiveFromIsr | .peek =>
      if qu.count > 0 then some (qu.head, qu.itemSize) else none
  | .overwrite _ | .overwriteFromIsr _ =>
      if qu.maxItems ≠ 1 then none
      else if qu.count = 0 then some (qu.tail, qu.itemSize)
      else some (qu.head, qu.itemSize)
  | .reset => none

/-! ## The operations on lists -/

/-- The operation that a call stands for, on items of `sz` bytes. -/
def QueueCall.op (sz : Nat) : QueueCall → BoundedFifo.Op (List UInt8)
  | .send item | .sendFromIsr item => .send (readBytes item 0 sz)
  | .receive | .receiveFromIsr => .receive
  | .peek => .peek
  | .overwrite item | .overwriteFromIsr item => .overwrite (readBytes item 0 sz)
  | .reset => .reset

/-- How an answer is returned. -/
def answerResult : BoundedFifo.Answer (List UInt8) → QueueResult
  | .accepted => (.ok, none)
  | .item x => (.ok, some x)
  | .full => (.errFull, none)
  | .empty => (.errEmpty, none)
  | .refused => (.errState, none)

/-- One call on the list. -/
def fifoCall (sz n : Nat) (l : List (List UInt8)) (call : QueueCall) :
    List (List UInt8) × QueueResult :=
  ((BoundedFifo.step n l (call.op sz)).1, answerResult (BoundedFifo.step n l (call.op sz)).2)

/-! ## The abstraction -/

/-- **The queue holds the list `l`**, and nobody waits for it. -/
structure Queue.Holds (qu : Queue) (sz n : Nat) (l : List (List UInt8)) : Prop where
  /-- The offsets fit the slots. -/
  valid : qu.Valid
  /-- The items in the ring. -/
  items : qu.items = l
  /-- The size of an item. -/
  itemSize : qu.itemSize = sz
  /-- The capacity. -/
  maxItems : qu.maxItems = n
  /-- No task waits to send. -/
  noSender : qu.sendWaitList = none
  /-- No task waits to receive. -/
  noReceiver : qu.recvWaitList = none

namespace Queue.Holds

variable {qu : Queue}

/-- The count is the length of the list. -/
theorem count_eq (h : qu.Holds sz n l) : qu.count = l.length := by
  rw [← h.items]
  simp [Queue.items, slots]

/-- The size of the ring. -/
theorem bufSize_eq (h : qu.Holds sz n l) : qu.bufSize = sz * n := by
  rw [h.valid.bufSize, h.itemSize, h.maxItems]

/-- The read offset is the start of a slot. -/
theorem head_le (h : qu.Holds sz n l) : qu.head + qu.itemSize ≤ qu.bufSize := by
  obtain ⟨a, ha, hhead⟩ := h.valid.head
  have hmul := Nat.mul_le_mul_right qu.itemSize (Nat.succ_le_of_lt ha)
  rw [hhead, h.valid.bufSize, Nat.mul_comm qu.itemSize, ← Nat.succ_mul]
  exact hmul

/-- The write offset is the start of a slot. -/
theorem tail_le (h : qu.Holds sz n l) : qu.tail + qu.itemSize ≤ qu.bufSize := by
  obtain ⟨a, ha, -⟩ := h.valid.head
  have hpos : 0 < qu.maxItems := by omega
  have hlt := Nat.mod_lt (qu.head / qu.itemSize + qu.count) hpos
  have hmul := Nat.mul_le_mul_right qu.itemSize (Nat.succ_le_of_lt hlt)
  rw [h.valid.tail, h.valid.bufSize, Nat.mul_comm qu.itemSize, ← Nat.succ_mul]
  exact hmul

/-- **Every copy stays inside the ring.** -/
theorem copy_le (h : qu.Holds sz n l) (call : QueueCall) :
    ∀ r ∈ call.copy qu, r.1 + r.2 ≤ qu.bufSize := by
  intro r hr
  have hcases : r = (qu.head, qu.itemSize) ∨ r = (qu.tail, qu.itemSize) := by
    cases call <;> simp only [QueueCall.copy] at hr
    case reset => cases hr
    all_goals
      repeat' split at hr
      all_goals first
        | exact Or.inl (Option.some.inj hr).symm
        | exact Or.inr (Option.some.inj hr).symm
        | cases hr
  rcases hcases with rfl | rfl
  · exact h.head_le
  · exact h.tail_le

end Queue.Holds

/-! ## Calls on a queue without waiting tasks -/

/-- What a call does to the ring when no task waits for the queue, and what it returns. -/
def QueueCall.onRing (qu : Queue) : QueueCall → Queue × QueueResult
  | .send item | .sendFromIsr item =>
      if qu.count < qu.maxItems then (qu.put item, .ok, none) else (qu, .errFull, none)
  | .receive | .receiveFromIsr =>
      if 0 < qu.count then (qu.pop, .ok, some qu.front) else (qu, .errEmpty, none)
  | .peek => if qu.count = 0 then (qu, .errEmpty, none) else (qu, .ok, some qu.front)
  | .overwrite item | .overwriteFromIsr item =>
      if qu.maxItems ≠ 1 then (qu, .errState, none)
      else if qu.count = 0 then ({ qu.put item with count := 1 }, .ok, none)
      else
        ({ qu with buffer := writeBytes qu.buffer qu.head (readBytes item 0 qu.itemSize) }, .ok, none)
  | .reset => ({ qu with count := 0, head := 0, tail := 0 }, .ok, none)

/-- The call returns, and it does to the queue what it does to the ring alone. -/
def QueueCall.RunsOnRing (q : Addr) (k : Kernel) (call : QueueCall) : Prop :=
  ∃ k', call.run q k = some (k', (call.onRing (k.queues q)).2) ∧
    k'.queues q = (call.onRing (k.queues q)).1

/-- Waking the first waiter of an empty list. -/
theorem wakeTask_of_none {w : WaitList} (h : k.waitHead w = none) : wakeTask k w = (none, k) := by
  rw [wakeTask, h]

/-- The queue after a write. -/
theorem queues_setQueue_self (k : Kernel) (q : Addr) (qu : Queue) : (k.setQueue q qu).queues q = qu :=
  Function.update_self ..

/-- Waking a receiver after a write that keeps the empty list of receivers. -/
theorem wakeRecv_of_none {qu : Queue} (h : qu.recvWaitList = none) :
    Queue.prvWakeTask (k.setQueue q qu) (.queueRecv q) = (none, k.setQueue q qu) := by
  apply wakeTask_of_none
  show ((k.setQueue q qu).queues q).recvWaitList = none
  rw [queues_setQueue_self, h]

/-- Waking a sender after a write that keeps the empty list of senders. -/
theorem wakeSend_of_none {qu : Queue} (h : qu.sendWaitList = none) :
    Queue.prvWakeTask (k.setQueue q qu) (.queueSend q) = (none, k.setQueue q qu) := by
  apply wakeTask_of_none
  show ((k.setQueue q qu).queues q).sendWaitList = none
  rw [queues_setQueue_self, h]

/-- The overwriting calls on a queue without receivers. -/
theorem overwriteSlot_of_none (item : Mem) (h : (k.queues q).recvWaitList = none) :
    Queue.overwriteSlot k q item
      = (none, k.setQueue q
          (if (k.queues q).count = 0 then { (k.queues q).put item with count := 1 }
          else { k.queues q with
            buffer := writeBytes (k.queues q).buffer (k.queues q).head
              (readBytes item 0 (k.queues q).itemSize) })) := by
  rw [Queue.overwriteSlot]
  split
  · apply wakeRecv_of_none
    exact h
  · rfl

/-- The sending calls. -/
theorem run_send (hr : (k.queues q).recvWaitList = none) (item : Mem) :
    (QueueCall.send item).RunsOnRing q k ∧ (QueueCall.sendFromIsr item).RunsOnRing q k := by
  have hwake : Queue.prvWakeTask
      ((osSchedEnterCritical k).setQueue q ((k.queues q).put item)) (.queueRecv q)
        = (none, (osSchedEnterCritical k).setQueue q ((k.queues q).put item)) :=
    wakeRecv_of_none hr
  have hq : ((osSchedEnterCritical k).setQueue q ((k.queues q).put item)).queues q
      = (k.queues q).put item := queues_setQueue_self ..
  by_cases hroom : (k.queues q).count < (k.queues q).maxItems
  · have hroom' : ((osSchedEnterCritical k).queues q).count
        < ((osSchedEnterCritical k).queues q).maxItems := hroom
    simp only [QueueCall.RunsOnRing, QueueCall.run, QueueCall.onRing, osQueueSend,
      osQueueSendFromIsr, if_pos hroom, if_pos hroom']
    rw [show (osSchedEnterCritical k).queues q = k.queues q from rfl, hwake]
    exact ⟨⟨_, rfl, hq⟩, _, rfl, hq⟩
  · have hroom' : ¬ ((osSchedEnterCritical k).queues q).count
        < ((osSchedEnterCritical k).queues q).maxItems := hroom
    simp only [QueueCall.RunsOnRing, QueueCall.run, QueueCall.onRing, osQueueSend,
      osQueueSendFromIsr, if_neg hroom, if_neg hroom', if_true]
    exact ⟨⟨_, rfl, rfl⟩, _, rfl, rfl⟩

/-- The receiving calls. -/
theorem run_receive (hs : (k.queues q).sendWaitList = none) :
    QueueCall.receive.RunsOnRing q k ∧ QueueCall.receiveFromIsr.RunsOnRing q k := by
  have hwake : Queue.prvWakeTask
      ((osSchedEnterCritical k).setQueue q (k.queues q).pop) (.queueSend q)
        = (none, (osSchedEnterCritical k).setQueue q (k.queues q).pop) :=
    wakeSend_of_none hs
  have hq : ((osSchedEnterCritical k).setQueue q (k.queues q).pop).queues q = (k.queues q).pop :=
    queues_setQueue_self ..
  by_cases hitem : 0 < (k.queues q).count
  · have hitem' : ((osSchedEnterCritical k).queues q).count > 0 := hitem
    simp only [QueueCall.RunsOnRing, QueueCall.run, QueueCall.onRing, osQueueReceive,
      osQueueReceiveFromIsr, if_pos hitem, if_pos hitem']
    rw [show (osSchedEnterCritical k).queues q = k.queues q from rfl, hwake]
    exact ⟨⟨_, rfl, hq⟩, _, rfl, hq⟩
  · have hitem' : ¬ ((osSchedEnterCritical k).queues q).count > 0 := hitem
    simp only [QueueCall.RunsOnRing, QueueCall.run, QueueCall.onRing, osQueueReceive,
      osQueueReceiveFromIsr, if_neg hitem, if_neg hitem', if_true]
    exact ⟨⟨_, rfl, rfl⟩, _, rfl, rfl⟩

/-- The overwriting calls. -/
theorem run_overwrite (hr : (k.queues q).recvWaitList = none) (item : Mem) :
    (QueueCall.overwrite item).RunsOnRing q k ∧ (QueueCall.overwriteFromIsr item).RunsOnRing q k := by
  have hslot := overwriteSlot_of_none (k := osSchedEnterCritical k) (q := q) item hr
  by_cases h1 : (k.queues q).maxItems ≠ 1
  · have h1' : ((osSchedEnterCritical k).queues q).maxItems ≠ 1 := h1
    simp only [QueueCall.RunsOnRing, QueueCall.run, QueueCall.onRing, osQueueOverwrite,
      osQueueOverwriteFromIsr, if_pos h1, if_pos h1']
    exact ⟨⟨_, rfl, rfl⟩, _, rfl, rfl⟩
  · have h1' : ¬ ((osSchedEnterCritical k).queues q).maxItems ≠ 1 := h1
    have hq := queues_setQueue_self (osSchedEnterCritical k) q
    by_cases h0 : (k.queues q).count = 0
    · have h0' : ((osSchedEnterCritical k).queues q).count = 0 := h0
      rw [if_pos h0'] at hslot
      simp only [QueueCall.RunsOnRing, QueueCall.run, QueueCall.onRing, osQueueOverwrite,
        osQueueOverwriteFromIsr, if_neg h1, if_neg h1', hslot, if_pos h0]
      exact ⟨⟨_, rfl, hq _⟩, _, rfl, hq _⟩
    · have h0' : ¬ ((osSchedEnterCritical k).queues q).count = 0 := h0
      rw [if_neg h0'] at hslot
      simp only [QueueCall.RunsOnRing, QueueCall.run, QueueCall.onRing, osQueueOverwrite,
        osQueueOverwriteFromIsr, if_neg h1, if_neg h1', hslot, if_neg h0]
      exact ⟨⟨_, rfl, hq _⟩, _, rfl, hq _⟩

/-- **A call on a queue nobody waits for** returns, without waking anybody. -/
theorem run_onRing (hs : (k.queues q).sendWaitList = none) (hr : (k.queues q).recvWaitList = none)
    (call : QueueCall) : call.RunsOnRing q k := by
  cases call with
  | send item => exact (run_send hr item).1
  | sendFromIsr item => exact (run_send hr item).2
  | receive => exact (run_receive hs).1
  | receiveFromIsr => exact (run_receive hs).2
  | overwrite item => exact (run_overwrite hr item).1
  | overwriteFromIsr item => exact (run_overwrite hr item).2
  | peek =>
      by_cases h0 : (k.queues q).count = 0
      · have h0' : ((osSchedEnterCritical k).queues q).count = 0 := h0
        simp only [QueueCall.RunsOnRing, QueueCall.run, QueueCall.onRing, osQueuePeek, if_pos h0, if_pos h0']
        exact ⟨_, rfl, rfl⟩
      · have h0' : ¬ ((osSchedEnterCritical k).queues q).count = 0 := h0
        simp only [QueueCall.RunsOnRing, QueueCall.run, QueueCall.onRing, osQueuePeek, if_neg h0, if_neg h0']
        exact ⟨_, rfl, rfl⟩
  | reset =>
      have hnone : ¬ (((osSchedEnterCritical k).queues q).sendWaitList.isSome = true ∨
          ((osSchedEnterCritical k).queues q).recvWaitList.isSome = true) := by
        show ¬ ((k.queues q).sendWaitList.isSome = true ∨ (k.queues q).recvWaitList.isSome = true)
        simp [hs, hr]
      simp only [QueueCall.RunsOnRing, QueueCall.run, QueueCall.onRing, osQueueReset, if_neg hnone]
      exact ⟨_, rfl, queues_setQueue_self ..⟩

/-! ## The simulation -/

namespace Queue.Holds

variable {qu : Queue}

/-- A new queue holds the empty list. -/
theorem empty (h : qu.Holds sz n l) :
    ({ qu with count := 0, head := 0, tail := 0 } : Queue).Holds sz n [] := by
  obtain ⟨a, ha, -⟩ := h.valid.head
  have hpos : 0 < qu.maxItems := by omega
  refine ⟨⟨h.valid.itemPos, h.valid.bufSize, h.valid.small, ⟨0, hpos, (Nat.zero_mul _).symm⟩, ?_, ?_⟩,
    rfl, h.itemSize, h.maxItems, h.noSender, h.noReceiver⟩
  · show 0 = (0 / qu.itemSize + 0) % qu.maxItems * qu.itemSize
    rw [Nat.zero_div, Nat.zero_mod, Nat.zero_mul]
  · exact Nat.zero_le _

/-- The ring write. -/
theorem put (h : qu.Holds sz n l) (hroom : qu.count < qu.maxItems) (item : Mem) :
    (qu.put item).Holds sz n (l ++ [readBytes item 0 sz]) := by
  obtain ⟨hv, hi⟩ := h.valid.put hroom item
  refine ⟨hv, ?_, h.itemSize, h.maxItems, h.noSender, h.noReceiver⟩
  rw [hi, h.items, h.itemSize]

/-- The ring read. -/
theorem pop {x : List UInt8} (h : qu.Holds sz n (x :: l)) :
    qu.front = x ∧ qu.pop.Holds sz n l := by
  have hcount := h.count_eq
  rw [List.length_cons] at hcount
  obtain ⟨hv, hi⟩ := h.valid.pop (by omega)
  rw [h.items] at hi
  obtain ⟨hx, hl⟩ := List.cons.inj hi
  exact ⟨hx.symm, hv, hl.symm, h.itemSize, h.maxItems, h.noSender, h.noReceiver⟩

/-- Writing over the only item. -/
theorem overwrite (h : qu.Holds sz n l) (h1 : qu.maxItems = 1) (h0 : qu.count ≠ 0) (item : Mem) :
    ({ qu with buffer := writeBytes qu.buffer qu.head (readBytes item 0 qu.itemSize) } : Queue).Holds
      sz n [readBytes item 0 sz] := by
  have hcount : qu.count = 1 := by
    have := h.valid.count
    omega
  obtain ⟨a, ha, hhead⟩ := h.valid.head
  obtain rfl : a = 0 := by omega
  rw [Nat.zero_mul] at hhead
  refine ⟨⟨h.valid.itemPos, h.valid.bufSize, h.valid.small, h.valid.head, h.valid.tail, h.valid.count⟩,
    ?_, h.itemSize, h.maxItems, h.noSender, h.noReceiver⟩
  -- With one slot, the ring is that slot, at offset zero.
  show slots (writeBytes qu.buffer qu.head (readBytes item 0 qu.itemSize)) qu.itemSize qu.maxItems
    (qu.head / qu.itemSize) qu.count = _
  rw [hhead, hcount, h1, Nat.zero_div, h.itemSize]
  have hpush : slots (writeBytes qu.buffer ((0 + 0) % 1 * sz) (readBytes item 0 sz)) sz 1 0 (0 + 1)
      = slots qu.buffer sz 1 0 0 ++ [readBytes item 0 sz] :=
    slots_push Nat.one_pos (length_readBytes item 0 sz)
  simpa using hpush

/-- The call answers and changes the ring as the operation does to the list. -/
def Refines (qu : Queue) (sz n : Nat) (l : List (List UInt8)) (call : QueueCall) : Prop :=
  (call.onRing qu).2 = (fifoCall sz n l call).2 ∧
    (call.onRing qu).1.Holds sz n (fifoCall sz n l call).1

/-- The sending calls. -/
theorem refines_send (h : qu.Holds sz n l) (item : Mem) : Refines qu sz n l (.send item) := by
  have hcount := h.count_eq
  obtain rfl := h.maxItems
  simp only [Refines, QueueCall.onRing, fifoCall, QueueCall.op, BoundedFifo.step, hcount]
  split
  · next hroom => exact ⟨rfl, h.put (by omega) item⟩
  · exact ⟨rfl, h⟩

/-- The receiving calls. -/
theorem refines_receive (h : qu.Holds sz n l) : Refines qu sz n l .receive := by
  have hcount := h.count_eq
  cases l with
  | nil =>
      have hempty : ¬ 0 < qu.count := by simp [hcount]
      simp only [Refines, QueueCall.onRing, if_neg hempty]
      exact ⟨rfl, h⟩
  | cons x r =>
      have hitem : 0 < qu.count := by simp [hcount]
      obtain ⟨hx, hr⟩ := h.pop
      simp only [Refines, QueueCall.onRing, if_pos hitem, hx]
      exact ⟨rfl, hr⟩

/-- Looking at the oldest item. -/
theorem refines_peek (h : qu.Holds sz n l) : Refines qu sz n l .peek := by
  have hcount := h.count_eq
  cases l with
  | nil =>
      have hempty : qu.count = 0 := by simp [hcount]
      simp only [Refines, QueueCall.onRing, if_pos hempty]
      exact ⟨rfl, h⟩
  | cons x r =>
      have hitem : ¬ qu.count = 0 := by simp [hcount]
      simp only [Refines, QueueCall.onRing, if_neg hitem, h.pop.1]
      exact ⟨rfl, h⟩

/-- The overwriting calls. -/
theorem refines_overwrite (h : qu.Holds sz n l) (item : Mem) :
    Refines qu sz n l (.overwrite item) := by
  have hcount := h.count_eq
  obtain rfl := h.maxItems
  simp only [Refines, QueueCall.onRing, fifoCall, QueueCall.op, BoundedFifo.step]
  by_cases h1 : qu.maxItems = 1
  · rw [if_neg (not_not_intro h1), if_pos h1]
    split
    · next h0 =>
        have hput := h.put (by omega) item
        obtain rfl : l = [] := List.eq_nil_of_length_eq_zero (by omega)
        have hset : ({ qu.put item with count := 1 } : Queue) = qu.put item := by
          simp only [Queue.put, h0]
        rw [hset]
        exact ⟨rfl, hput⟩
    · next h0 => exact ⟨rfl, h.overwrite h1 h0 item⟩
  · rw [if_pos h1, if_neg h1]
    exact ⟨rfl, h⟩

/-- **One call on the ring.** -/
theorem refines (h : qu.Holds sz n l) (call : QueueCall) : Refines qu sz n l call := by
  cases call with
  | send item => exact h.refines_send item
  | sendFromIsr item => exact h.refines_send item
  | receive => exact h.refines_receive
  | receiveFromIsr => exact h.refines_receive
  | peek => exact h.refines_peek
  | overwrite item => exact h.refines_overwrite item
  | overwriteFromIsr item => exact h.refines_overwrite item
  | reset => exact ⟨rfl, h.empty⟩

end Queue.Holds

/-- A call writes at most the range of its `memcpy`. -/
theorem buffer_onRing (qu : Queue) (call : QueueCall) {x : Nat}
    (hx : ∀ r ∈ call.copy qu, r.1 + r.2 ≤ x) : (call.onRing qu).1.buffer x = qu.buffer x := by
  have hwrite : ∀ (a : Nat) (item : Mem), a + qu.itemSize ≤ x →
      writeBytes qu.buffer a (readBytes item 0 qu.itemSize) x = qu.buffer x := by
    intro a item ha
    apply writeBytes_of_not_mem
    rw [length_readBytes]
    exact Or.inr ha
  have hsend : ∀ item, (∀ r ∈ (QueueCall.send item).copy qu, r.1 + r.2 ≤ x) →
      ((QueueCall.send item).onRing qu).1.buffer x = qu.buffer x := by
    intro item hx
    simp only [QueueCall.onRing, QueueCall.copy] at hx ⊢
    split
    · next hroom =>
        rw [if_pos hroom] at hx
        exact hwrite _ item (hx _ rfl)
    · rfl
  have hoverwrite : ∀ item, (∀ r ∈ (QueueCall.overwrite item).copy qu, r.1 + r.2 ≤ x) →
      ((QueueCall.overwrite item).onRing qu).1.buffer x = qu.buffer x := by
    intro item hx
    simp only [QueueCall.onRing, QueueCall.copy] at hx ⊢
    split
    · rfl
    · next h1 =>
        rw [if_neg h1] at hx
        split
        · next h0 =>
            rw [if_pos h0] at hx
            exact hwrite _ item (hx _ rfl)
        · next h0 =>
            rw [if_neg h0] at hx
            exact hwrite _ item (hx _ rfl)
  cases call with
  | send item => exact hsend item hx
  | sendFromIsr item => exact hsend item hx
  | overwrite item => exact hoverwrite item hx
  | overwriteFromIsr item => exact hoverwrite item hx
  | receive | receiveFromIsr | peek =>
      simp only [QueueCall.onRing]
      split <;> rfl
  | reset => rfl

/-- **One call, one operation**, and no byte beyond the ring is written. -/
theorem queueCall_simulates (h : (k.queues q).Holds sz n l) (call : QueueCall) :
    ∃ k', call.run q k = some (k', (fifoCall sz n l call).2) ∧
      (k'.queues q).Holds sz n (fifoCall sz n l call).1 ∧
      ∀ x, sz * n ≤ x → (k'.queues q).buffer x = (k.queues q).buffer x := by
  obtain ⟨k', hrun, hq⟩ := run_onRing h.noSender h.noReceiver call
  obtain ⟨hres, hholds⟩ := h.refines call
  rw [hres] at hrun
  rw [← hq] at hholds
  refine ⟨k', hrun, hholds, fun x hx => ?_⟩
  rw [hq]
  apply buffer_onRing
  intro r hr
  have hle := h.copy_le call r hr
  rw [h.bufSize_eq] at hle
  omega

/-- A new queue is empty, if the product of the sizes does not overflow. -/
theorem osQueueCreate_holds {block : Option Addr} (hsmall : sz * n < 2 ^ 32)
    (h : osQueueCreate k q sz n block = (.ok, k')) : (k'.queues q).Holds sz n [] := by
  rw [osQueueCreate] at h
  split at h
  · cases h
  · next hpos =>
      cases block with
      | none => cases h
      | some b =>
          obtain rfl := (Prod.mk.inj h).2
          simp only [queues_setQueue_self, Nat.mod_eq_of_lt hsmall]
          refine ⟨⟨?_, rfl, hsmall, ⟨0, ?_, (Nat.zero_mul _).symm⟩, ?_, Nat.zero_le _⟩, rfl, rfl, rfl,
            rfl, rfl⟩
          · show 0 < sz
            omega
          · show 0 < n
            omega
          · show 0 = (0 / sz + 0) % n * sz
            rw [Nat.zero_div, Nat.zero_mod, Nat.zero_mul]

/-- What the queries of the code say about a queue that holds a list. -/
theorem Queue.Holds.queries (h : (k.queues q).Holds sz n l) :
    l.length ≤ n ∧ osQueueGetCount k q = l.length ∧ osQueueGetSpaces k q = n - l.length ∧
      osQueueIsEmpty k q = l.isEmpty ∧ osQueueIsFull k q = decide (l.length = n) := by
  have hcount := h.count_eq
  have hmax := h.maxItems
  have hle : l.length ≤ n := by
    have := h.valid.count
    omega
  have hn : n < 2 ^ 32 := by
    have hbuf := h.valid.small
    rw [h.bufSize_eq] at hbuf
    have hpos : 0 < sz := h.itemSize ▸ h.valid.itemPos
    exact lt_of_le_of_lt (Nat.le_mul_of_pos_left n hpos) hbuf
  refine ⟨hle, hcount, ?_, ?_, ?_⟩
  · show ((k.queues q).maxItems + 2 ^ 32 - (k.queues q).count) % 2 ^ 32 = n - l.length
    rw [hcount, hmax, show n + 2 ^ 32 - l.length = n - l.length + 2 ^ 32 by omega, Nat.add_mod_right]
    exact Nat.mod_eq_of_lt (by omega)
  · rw [osQueueIsEmpty, hcount]
    cases l <;> rfl
  · rw [osQueueIsFull, hcount, hmax]
    exact decide_eq_decide.mpr (by omega)

/-- **Queues refine bounded lists.** Every sequence of non-blocking calls on a new queue returns what
the operations on a list of at most `max_items` items return, the queries answer for the list they
have left, no byte beyond the ring has been written, and the copy of whichever call comes next stays
inside the ring. -/
theorem queue_refines_fifo {block : Option Addr} (hsize : sz * n ≤ heapSize)
    (hcreate : osQueueCreate k q sz n block = (.ok, k')) (calls : List QueueCall) :
    let list := (answers (fifoCall sz n) [] calls).1
    ∃ k'', outputs (QueueCall.run q) k' calls = some (k'', (answers (fifoCall sz n) [] calls).2) ∧
      list.length ≤ n ∧ osQueueGetCount k'' q = list.length ∧
      osQueueGetSpaces k'' q = n - list.length ∧ osQueueIsEmpty k'' q = list.isEmpty ∧
      osQueueIsFull k'' q = decide (list.length = n) ∧ (k''.queues q).bufSize = sz * n ∧
      (∀ x, sz * n ≤ x → (k''.queues q).buffer x = (k'.queues q).buffer x) ∧
      ∀ call : QueueCall, ∀ r ∈ call.copy (k''.queues q), r.1 + r.2 ≤ (k''.queues q).bufSize := by
  intro list
  let R : Kernel → List (List UInt8) → Prop := fun k₁ l =>
    (k₁.queues q).Holds sz n l ∧ ∀ x, sz * n ≤ x → (k₁.queues q).buffer x = (k'.queues q).buffer x
  have hstep : ∀ k₁ l call, R k₁ l →
      ∃ k₂, QueueCall.run q k₁ call = some (k₂, (fifoCall sz n l call).2) ∧
        R k₂ (fifoCall sz n l call).1 := by
    rintro k₁ l call ⟨hholds, hbuf⟩
    obtain ⟨k₂, hrun, hholds₂, hbuf₂⟩ := queueCall_simulates hholds call
    exact ⟨k₂, hrun, hholds₂, fun x hx => (hbuf₂ x hx).trans (hbuf x hx)⟩
  -- a product that is at most the size of the heap does not overflow
  have hsmall : sz * n < 2 ^ 32 := lt_of_le_of_lt hsize (by decide)
  have hinit : R k' [] := ⟨osQueueCreate_holds hsmall hcreate, fun x _ => rfl⟩
  obtain ⟨k'', hout, hholds, hbuf⟩ := outputs_of_simulates R hstep hinit calls
  obtain ⟨hle, hcount, hspaces, hempty, hfull⟩ := hholds.queries
  exact ⟨k'', hout, hle, hcount, hspaces, hempty, hfull, hholds.bufSize_eq, hbuf, hholds.copy_le⟩

/-- Fill a queue of two items, overrun it, take one, wrap around and look at what is left. -/
def wrapCalls : List QueueCall :=
  [.peek, .send fun _ => 1, .sendFromIsr fun _ => 2, .send fun _ => 3, .receive, .overwrite fun _ => 4,
    .send fun _ => 5, .receiveFromIsr, .peek]

/-- A queue of two items of three bytes, filled, overrun and read across the end of the ring. -/
theorem queue_refines_fifo_wrapCalls :
    ∃ k k' k'', 3 * 2 ≤ heapSize ∧ osQueueCreate k 0x10 3 2 (some 0x400) = (.ok, k') ∧
      outputs (QueueCall.run 0x10) k' wrapCalls
        = some (k'', [(.errEmpty, none), (.ok, none), (.ok, none), (.errFull, none),
            (.ok, some [1, 1, 1]), (.errState, none), (.ok, none), (.ok, some [2, 2, 2]),
            (.ok, some [5, 5, 5])]) ∧
      osQueueGetCount k'' 0x10 = 1 ∧ osQueueGetSpaces k'' 0x10 = 1 := by
  obtain ⟨k'', hout, -, hcount, hspaces, -⟩ :=
    queue_refines_fifo (by decide)
      (rfl : osQueueCreate Sys.boot.kernel 0x10 3 2 (some 0x400) = (.ok, _)) wrapCalls
  exact ⟨Sys.boot.kernel, _, k'', by decide, rfl, hout, hcount, hspaces⟩

end MiniRTOS
