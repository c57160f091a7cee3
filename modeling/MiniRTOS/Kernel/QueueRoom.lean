import MiniRTOS.Kernel.HeapRequests
import MiniRTOS.Kernel.QueueFifo

/-! # The room of a new queue

`os_queue_create` multiplies the two sizes in 32 bits and hands the product to `os_heap_alloc`, which
rounds it up in 32 bits again. When the mathematical product is larger than what is left of it, the queue
gets a buffer that is too small and a ring that is shorter than `max_items` slots, and the sends run over
items that nobody has read.

* **`Roomy`** — what a caller of `os_queue_create` relies on.
* **`Roomy.of_room`** — a buffer of the right size gives it for `max_items` sends.
* **`queue_create_roomy`** — which requests are answered with such a queue. -/

namespace MiniRTOS

open ByteMemory ByteRing Runs

variable {k k' : Kernel} {q : Addr} {sz n : Nat} {l : List (List UInt8)}

/-! ## Creating on a heap -/

/-- What `os_queue_create` leaves behind: its status, the kernel, the heap and `queue->buffer`, which is
written by a call that gets as far as the allocation. -/
structure QueueCreated where
  /-- What `os_queue_create` returned. -/
  status : Status
  /-- The kernel state behind it. -/
  kernel : Kernel
  /-- The heap behind it. -/
  heap : Heap
  /-- The buffer, if there is one. -/
  buffer : Option Addr

/-- `os_queue_create`, with the heap that it takes its buffer from. -/
def queueCreate (c : HeapConfig) (h : Heap) (k : Kernel) (q : Addr) (itemSize maxItems : Nat) :
    Option QueueCreated :=
  if itemSize = 0 ∨ maxItems = 0 then
    some ⟨.errParam, k, h, none⟩
  else
    (osHeapAlloc c h (itemSize * maxItems % 2 ^ 32)).map fun (h, block) =>
      { status := (osQueueCreate k q itemSize maxItems block).1
        kernel := (osQueueCreate k q itemSize maxItems block).2
        heap := h
        buffer := block }

/-- `os_mailbox_create`; a mailbox is a queue of one item. -/
def mailboxCreate (c : HeapConfig) (h : Heap) (k : Kernel) (mb : Addr) (itemSize : Nat) :
    Option QueueCreated :=
  if itemSize = 0 then some ⟨.errParam, k, h, none⟩ else queueCreate c h k mb itemSize 1

/-! ## Sending -/

/-- The calls that append an item. -/
inductive SendCall
  /-- `os_queue_send`. -/
  | send (item : Mem) (timeout : Nat)
  /-- `os_queue_send_from_isr`. -/
  | sendFromIsr (item : Mem)

/-- Make the call. -/
def SendCall.run (q : Addr) (k : Kernel) : SendCall → Option (Kernel × Outcome Status)
  | .send item timeout => osQueueSend k q item timeout
  | .sendFromIsr item =>
      let (k', status) := osQueueSendFromIsr k q item
      some (k', .done status)

/-- The item that is sent. -/
def SendCall.item : SendCall → Mem
  | .send item _ => item
  | .sendFromIsr item => item

/-- The offset of the unread item `i`, counted from the oldest one. -/
def Queue.unreadAt (qu : Queue) (i : Nat) : Nat := (qu.head + i * qu.itemSize) % qu.bufSize

/-- **The next send stays in its place**: the `item_size` bytes that it writes at `tail` are inside the
buffer and in no unread item. -/
def Queue.SendFits (qu : Queue) (room : Nat) : Prop :=
  qu.tail + qu.itemSize ≤ room ∧
    ∀ i < qu.count, qu.tail + qu.itemSize ≤ qu.unreadAt i ∨ qu.unreadAt i + qu.itemSize ≤ qu.tail

/-- Whether the next send stays in its place can be decided. -/
instance Queue.decidableSendFits (qu : Queue) (room : Nat) : Decidable (qu.SendFits room) := by
  unfold Queue.SendFits
  infer_instance

/-- **A queue with the promised room**: a buffer for `n` items of `sz` bytes, `buf_size` with their
product, and `n` successive sends that all return `OS_OK` and stay in their places. -/
structure Roomy (c : HeapConfig) (q : Addr) (sz n : Nat) (r : QueueCreated) : Prop where
  /-- The buffer has room for all items. -/
  buffer : ∃ p ∈ r.buffer, sz * n ≤ r.heap.usableSize c p
  /-- The queue knows its size. -/
  bufSize : (r.kernel.queues q).bufSize = sz * n
  /-- As many sends as items stay inside. -/
  sends : ∀ calls : List SendCall, calls.length ≤ n →
    ∃ k', outputs (SendCall.run q) r.kernel calls
        = some (k', List.replicate calls.length (.done .ok)) ∧
      (calls.length < n → ∀ p ∈ r.buffer, (k'.queues q).SendFits (r.heap.usableSize c p))

/-- **A call that keeps its promise**: it returns, and a queue that it returns `OS_OK` for has the room. -/
def KeepsPromise (c : HeapConfig) (q : Addr) (sz n : Nat) (r : Option QueueCreated) : Prop :=
  ∃ r', r = some r' ∧ (r'.status = .ok → Roomy c q sz n r')

/-! ## The sends on a new queue -/

/-- **A send with room** returns `OS_OK`, whatever the time-out, and writes the ring. -/
theorem SendCall.run_of_room (hr : (k.queues q).recvWaitList = none)
    (hroom : (k.queues q).count < (k.queues q).maxItems) (call : SendCall) :
    ∃ k', call.run q k = some (k', .done .ok) ∧ k'.queues q = (k.queues q).put call.item := by
  have hroom' : ((osSchedEnterCritical k).queues q).count
      < ((osSchedEnterCritical k).queues q).maxItems := hroom
  have hwake : Queue.prvWakeTask ((osSchedEnterCritical k).setQueue q ((k.queues q).put call.item))
      (.queueRecv q) = (none, (osSchedEnterCritical k).setQueue q ((k.queues q).put call.item)) :=
    wakeRecv_of_none hr
  have hq : ((osSchedEnterCritical k).setQueue q ((k.queues q).put call.item)).queues q
      = (k.queues q).put call.item := queues_setQueue_self ..
  have hsame : (osSchedEnterCritical k).queues q = k.queues q := rfl
  cases call with
  | send item timeout =>
      rw [SendCall.item] at hwake hq
      simp only [SendCall.run, osQueueSend, if_pos hroom']
      rw [hsame, hwake]
      exact ⟨_, rfl, hq⟩
  | sendFromIsr item =>
      rw [SendCall.item] at hwake hq
      simp only [SendCall.run, osQueueSendFromIsr, if_pos hroom']
      rw [hsame, hwake]
      exact ⟨_, rfl, hq⟩

/-- **Step**: a send into a queue that starts at offset 0 and has room. -/
theorem SendCall.run_holds (h : (k.queues q).Holds sz n l) (h0 : (k.queues q).head = 0)
    (hroom : l.length < n) (call : SendCall) :
    ∃ k', call.run q k = some (k', .done .ok) ∧
      (k'.queues q).Holds sz n (l ++ [readBytes call.item 0 sz]) ∧ (k'.queues q).head = 0 := by
  have hcount : (k.queues q).count < (k.queues q).maxItems := by
    rw [h.count_eq, h.maxItems]
    exact hroom
  obtain ⟨k', hrun, hq⟩ := call.run_of_room h.noReceiver hcount
  refine ⟨k', hrun, ?_, ?_⟩
  · rw [hq]
    exact h.put hcount call.item
  · rw [hq]
    exact h0

/-- **Run**: the sends of a list, into a queue that has room for all of them. -/
theorem SendCall.outputs_holds (h : (k.queues q).Holds sz n l) (h0 : (k.queues q).head = 0)
    (calls : List SendCall) (hroom : l.length + calls.length ≤ n) :
    ∃ k' l', outputs (SendCall.run q) k calls
        = some (k', List.replicate calls.length (.done .ok)) ∧
      (k'.queues q).Holds sz n l' ∧ (k'.queues q).head = 0 ∧ l'.length = l.length + calls.length := by
  induction calls generalizing k l with
  | nil => exact ⟨k, l, rfl, h, h0, rfl⟩
  | cons call calls ih =>
      rw [List.length_cons] at hroom
      obtain ⟨k₁, hrun, h₁, h0₁⟩ := call.run_holds h h0 (by omega)
      obtain ⟨k', l', hout, h', h0', hlen⟩ := ih h₁ h0₁ (by
        rw [List.length_append, List.length_singleton]
        omega)
      refine ⟨k', l', ?_, h', h0', ?_⟩
      · rw [outputs, hrun, Option.bind_some, hout, Option.map_some]
        rfl
      · rw [hlen, List.length_append, List.length_singleton, List.length_cons]
        omega

/-- **In place**: the next send of a queue that starts at offset 0. -/
theorem Queue.Holds.sendFits {qu : Queue} (h : qu.Holds sz n l) (h0 : qu.head = 0)
    (hroom : l.length < n) {room : Nat} (hle : sz * n ≤ room) : qu.SendFits room := by
  have hcount := h.count_eq
  have hsz : qu.itemSize = sz := h.itemSize
  -- item `i` starts at `i * sz`, and so does the free slot behind the last one
  have hslot : ∀ i, i < n → (i * sz) % (sz * n) = i * sz := by
    intro i hi
    apply Nat.mod_eq_of_lt
    rw [Nat.mul_comm i]
    exact Nat.mul_lt_mul_of_pos_left hi (hsz ▸ h.valid.itemPos)
  have htail : qu.tail = l.length * sz := by
    rw [h.valid.tail, h0, Nat.zero_div, Nat.zero_add, hcount, h.maxItems, hsz,
      Nat.mod_eq_of_lt hroom]
  constructor
  · have hin := h.tail_le
    rw [h.bufSize_eq] at hin
    exact Nat.le_trans hin hle
  · intro i hi
    rw [hcount] at hi
    rw [Queue.unreadAt, h0, Nat.zero_add, h.bufSize_eq, hsz, hslot i (by omega), htail]
    exact slot_disjoint (by omega)

/-- **A buffer of the right size** makes a new queue roomy. -/
theorem Roomy.of_room {c : HeapConfig} {h : Heap} {p : Addr} (hsmall : sz * n < 2 ^ 32)
    (hcreate : osQueueCreate k q sz n (some p) = (.ok, k')) (hroom : sz * n ≤ h.usableSize c p) :
    Roomy c q sz n ⟨.ok, k', h, some p⟩ := by
  have hholds := osQueueCreate_holds hsmall hcreate
  have h0 : (k'.queues q).head = 0 := by
    rw [osQueueCreate] at hcreate
    split at hcreate
    · cases hcreate
    · obtain rfl := (Prod.mk.inj hcreate).2
      rw [queues_setQueue_self]
  refine ⟨⟨p, rfl, hroom⟩, hholds.bufSize_eq, fun calls hcalls => ?_⟩
  obtain ⟨k'', l, hout, hl, hhead, hlen⟩ := SendCall.outputs_holds hholds h0 calls (by simpa using hcalls)
  refine ⟨k'', hout, fun hlt p' hp' => ?_⟩
  obtain rfl := Option.some.inj hp'
  rw [List.length_nil, Nat.zero_add] at hlen
  exact hl.sendFits hhead (hlen ▸ hlt) hroom

/-! ## Which requests are met -/

variable {c : HeapConfig} {s : HeapSys} {bs : List Tiling.Block}

/-- **`os_queue_create`** on a heap in use. -/
theorem HeapInv.queueCreate_iff (hI : HeapInv c s bs) (k : Kernel) (q : Addr) (sz n : Nat) :
    KeepsPromise c q sz n (queueCreate c s.heap k q sz n) ↔
      sz * n ≤ 2 ^ 32 - 8 ∨ sz * n % 2 ^ 32 = 0 ∨
        ¬ s.heap.HasRoom c (alignUp 4 (sz * n % 2 ^ 32)) := by
  rw [queueCreate]
  by_cases hpos : sz = 0 ∨ n = 0
  · rw [if_pos hpos]
    refine iff_of_true ⟨_, rfl, fun hok => by cases hok⟩ (Or.inl ?_)
    rcases hpos with rfl | rfl
    · rw [Nat.zero_mul]
      exact Nat.zero_le _
    · exact Nat.zero_le _
  rw [if_neg hpos]
  obtain ⟨h', p, bs', heq, hI', hfail, hnew⟩ := hI.alloc_size (sz * n % 2 ^ 32)
  rw [heq, Option.map_some]
  cases p with
  | none =>
      refine iff_of_true ⟨_, rfl, fun hok => ?_⟩ (Or.inr (hfail.mp rfl))
      have hnone : (osQueueCreate k q sz n none).1 = .errNoMem := by rw [osQueueCreate, if_neg hpos]
      cases hnone.symm.trans hok
  | some p =>
      have hgot := mt hfail.mpr (by simp)
      obtain ⟨hsize, -⟩ := hnew p rfl
      have hle : h'.usableSize c p ≤ heapSize := hI'.usableSize_le (by simp)
      have hok : (osQueueCreate k q sz n (some p)).1 = .ok := by rw [osQueueCreate, if_neg hpos]
      have hcreate : osQueueCreate k q sz n (some p)
          = (.ok, (osQueueCreate k q sz n (some p)).2) := Prod.ext hok rfl
      simp only [hok]
      by_cases hsmall : sz * n ≤ 2 ^ 32 - 8
      · -- nothing is lost in the product or in the round-up
        have hmod : sz * n % 2 ^ 32 = sz * n := Nat.mod_eq_of_lt (by omega)
        rw [hmod] at hsize
        refine iff_of_true ⟨_, rfl, fun _ => ?_⟩ (Or.inl hsmall)
        exact .of_room (by omega) hcreate (Nat.le_trans (le_alignUp hsmall) hsize)
      · refine iff_of_false ?_ (not_or.mpr ⟨hsmall, hgot⟩)
        rintro ⟨r, hr, hroomy⟩
        obtain rfl := Option.some.inj hr
        obtain ⟨p', hp', hfit⟩ := (hroomy rfl).buffer
        obtain rfl := Option.some.inj hp'
        simp only [heapSize] at hle
        have hover := Nat.le_trans hfit hle
        omega

/-- **`os_mailbox_create`** on a heap in use. -/
theorem HeapInv.mailboxCreate_iff (hI : HeapInv c s bs) (k : Kernel) (mb : Addr) (hsz : sz < 2 ^ 32) :
    KeepsPromise c mb sz 1 (mailboxCreate c s.heap k mb sz) ↔
      sz ≤ 2 ^ 32 - 8 ∨ ¬ s.heap.HasRoom c 0 := by
  rw [mailboxCreate]
  by_cases h0 : sz = 0
  · rw [if_pos h0]
    exact iff_of_true ⟨_, rfl, fun hok => by cases hok⟩ (Or.inl (by omega))
  · rw [if_neg h0, hI.queueCreate_iff, Nat.mul_one, Nat.mod_eq_of_lt hsz]
    by_cases hsmall : sz ≤ 2 ^ 32 - 8
    · exact iff_of_true (Or.inl hsmall) (Or.inl hsmall)
    · rw [alignUp_of_gt (by omega) hsz]
      simp [h0]

/-- **Which queues and mailboxes have the promised room.** After any sequence of permitted calls and
writes on the heap: `os_queue_create` keeps its promise unless the product or the round-up wraps and what
is left of it finds a block, and `os_mailbox_create` unless the round-up wraps and some block is free. -/
theorem queue_create_roomy {h : Heap} {rs : List HeapRequest}
    (hr : Run (fun s r => HeapRequest.Allowed c s r) (requestStep c) (HeapSys.init c h) rs s) :
    (∀ (k : Kernel) (q : Addr) (itemSize maxItems : Nat),
      KeepsPromise c q itemSize maxItems (queueCreate c s.heap k q itemSize maxItems) ↔
        itemSize * maxItems ≤ 2 ^ 32 - 8 ∨ itemSize * maxItems % 2 ^ 32 = 0 ∨
          ¬ s.heap.HasRoom c (alignUp 4 (itemSize * maxItems % 2 ^ 32))) ∧
    ∀ (k : Kernel) (mb : Addr), ∀ itemSize < 2 ^ 32,
      KeepsPromise c mb itemSize 1 (mailboxCreate c s.heap k mb itemSize) ↔
        itemSize ≤ 2 ^ 32 - 8 ∨ ¬ s.heap.HasRoom c 0 := by
  obtain ⟨bs, hI⟩ := heapInv_of_requests hr
  exact ⟨hI.queueCreate_iff, fun k mb itemSize hsz => hI.mailboxCreate_iff k mb hsz⟩

/-- A queue of 5 items of 12 bytes, behind an allocation. -/
theorem queue_create_roomy_small : ∃ s,
    Run (fun s r => HeapRequest.Allowed HeapConfig.cortexM s r) (requestStep HeapConfig.cortexM)
      (HeapSys.init HeapConfig.cortexM Heap.unset) [.call (.alloc 24)] s ∧
    KeepsPromise HeapConfig.cortexM 0x10 12 5
      (queueCreate HeapConfig.cortexM s.heap Kernel.zero 0x10 12 5) := by
  obtain ⟨s, hr, -⟩ := exists_run_of_exec (fun s r => HeapRequest.Allowed HeapConfig.cortexM s r)
    (requestStep HeapConfig.cortexM) (HeapSys.init HeapConfig.cortexM Heap.unset) [.call (.alloc 24)]
    (fun s => s.live.length = 1) (by decide +kernel)
  exact ⟨s, hr, ((queue_create_roomy hr).1 Kernel.zero 0x10 12 5).mpr (Or.inl (by decide))⟩

/-- **A product that loses its high bits**: 2^30 + 1 items of 4 bytes are given a buffer of 8 bytes and a
ring of one slot, and the second send writes over the first item. -/
theorem queue_create_cramped : ∃ r k',
    queueCreate HeapConfig.cortexM (HeapSys.init HeapConfig.cortexM Heap.unset).heap Kernel.zero 0x10
      4 0x40000001 = some r ∧
    r.status = .ok ∧ (∀ p ∈ r.buffer, r.heap.usableSize HeapConfig.cortexM p = 8) ∧
    (r.kernel.queues 0x10).bufSize = 4 ∧
    (SendCall.send (fun _ => 1) 0).run 0x10 r.kernel = some (k', .done .ok) ∧
    (k'.queues 0x10).count = 1 ∧ ¬ (k'.queues 0x10).SendFits 8 ∧
    ¬ KeepsPromise HeapConfig.cortexM 0x10 4 0x40000001 (some r) := by
  have hex : (queueCreate HeapConfig.cortexM (HeapSys.init HeapConfig.cortexM Heap.unset).heap
      Kernel.zero 0x10 4 0x40000001).any (fun r =>
        decide (r.status = .ok ∧ (∀ p ∈ r.buffer, r.heap.usableSize HeapConfig.cortexM p = 8) ∧
          (r.kernel.queues 0x10).bufSize = 4) &&
        ((SendCall.send (fun _ => 1) 0).run 0x10 r.kernel).any fun x =>
          decide (x.2 = .done .ok ∧ (x.1.queues 0x10).count = 1 ∧ ¬ (x.1.queues 0x10).SendFits 8))
        = true := by decide +kernel
  obtain ⟨r, hr, hex⟩ := (Option.any_eq_true _ _).mp hex
  obtain ⟨hres, hex⟩ := Bool.and_eq_true_iff.mp hex
  obtain ⟨⟨k', out⟩, hrun, hsend⟩ := (Option.any_eq_true _ _).mp hex
  obtain ⟨hok, hbuf, hsize⟩ := of_decide_eq_true hres
  obtain ⟨rfl, hcount, hover⟩ := of_decide_eq_true hsend
  refine ⟨r, k', hr, hok, hbuf, hsize, hrun, hcount, hover, ?_⟩
  rintro ⟨r', hr', hroomy⟩
  obtain rfl := Option.some.inj hr'
  have hpromised := (hroomy hok).bufSize
  rw [hsize] at hpromised
  cases hpromised

end MiniRTOS
