import MiniRTOS.Lib.ByteRing
import MiniRTOS.Kernel.SystemFrames

/-! # Queue delivery

What a queue is for: the items received are the items sent, in order and without loss. The items a
queue holds are read off its ring (`Queue.items`); the items sent and received are read off the log
of returned calls. A sender or receiver that blocked and is woken returns `OS_OK` without touching
the ring, so delivery holds exactly as long as no such call returns. -/

namespace MiniRTOS

open ByteMemory ByteRing Runs

variable {s s' s₀ : Sys} {q : Addr} {op : Op}

/-! ## The ring -/

/-- The items in the ring, oldest first. -/
def Queue.items (qu : Queue) : List (List UInt8) :=
  slots qu.buffer qu.itemSize qu.maxItems (qu.head / qu.itemSize) qu.count

/-- The indices of the ring are consistent with its size. -/
structure Queue.Valid (qu : Queue) : Prop where
  /-- Items are not empty. -/
  itemPos : 0 < qu.itemSize
  /-- The storage is exactly filled by the slots. -/
  bufSize : qu.bufSize = qu.itemSize * qu.maxItems
  /-- Offsets do not overflow. -/
  small : qu.bufSize < 2 ^ 32
  /-- The read offset is the start of a slot. -/
  head : ∃ a, a < qu.maxItems ∧ qu.head = a * qu.itemSize
  /-- The write offset is `count` slots further. -/
  tail : qu.tail = (qu.head / qu.itemSize + qu.count) % qu.maxItems * qu.itemSize
  /-- The ring is not overfull. -/
  count : qu.count ≤ qu.maxItems

/-- Stepping an offset to the next slot, as the code computes it. -/
theorem Queue.Valid.step_offset {qu : Queue} (h : qu.Valid) {a : Nat} (ha : a < qu.maxItems) :
    (a * qu.itemSize + qu.itemSize) % 2 ^ 32 % qu.bufSize = (a + 1) % qu.maxItems * qu.itemSize := by
  have hle : a * qu.itemSize + qu.itemSize ≤ qu.bufSize := by
    have hmul := Nat.mul_le_mul_right qu.itemSize (Nat.succ_le_of_lt ha)
    rw [Nat.succ_mul] at hmul
    rw [h.bufSize, Nat.mul_comm qu.itemSize]
    exact hmul
  have hlt : a * qu.itemSize + qu.itemSize < 2 ^ 32 := lt_of_le_of_lt hle h.small
  rw [Nat.mod_eq_of_lt hlt, h.bufSize]
  exact next_offset

/-- **The ring write appends the item.** -/
theorem Queue.Valid.put {qu : Queue} (h : qu.Valid) (hroom : qu.count < qu.maxItems) (item : Mem) :
    (qu.put item).Valid ∧ (qu.put item).items = qu.items ++ [readBytes item 0 qu.itemSize] := by
  obtain ⟨a, ha, hhead⟩ := h.head
  have hdiv : qu.head / qu.itemSize = a := by
    rw [hhead, Nat.mul_div_cancel _ h.itemPos]
  have htail : qu.tail = (a + qu.count) % qu.maxItems * qu.itemSize := by rw [h.tail, hdiv]
  constructor
  · refine ⟨h.itemPos, h.bufSize, h.small, ⟨a, ha, hhead⟩, ?_, hroom⟩
    show (qu.tail + qu.itemSize) % 2 ^ 32 % qu.bufSize
      = (qu.head / qu.itemSize + (qu.count + 1)) % qu.maxItems * qu.itemSize
    have hlt : (a + qu.count) % qu.maxItems < qu.maxItems := Nat.mod_lt _ (by omega)
    rw [htail, h.step_offset hlt, hdiv, Nat.mod_add_mod, Nat.add_assoc]
  · show slots (writeBytes qu.buffer qu.tail (readBytes item 0 qu.itemSize)) qu.itemSize qu.maxItems
      (qu.head / qu.itemSize) (qu.count + 1) = _
    rw [hdiv, htail, slots_push hroom (length_readBytes ..), Queue.items, hdiv]

/-- **The ring read takes the first item.** -/
theorem Queue.Valid.pop {qu : Queue} (h : qu.Valid) (hitem : 0 < qu.count) :
    qu.pop.Valid ∧ qu.items = qu.front :: qu.pop.items := by
  -- offsets are counted in items from here on: `head = a * itemSize`
  obtain ⟨a, ha, hhead⟩ := h.head
  have hcount := h.count
  have hpos : 0 < qu.maxItems := by omega
  have hdiv : qu.head / qu.itemSize = a := by
    rw [hhead, Nat.mul_div_cancel _ h.itemPos]
  have hhead' : qu.pop.head = (a + 1) % qu.maxItems * qu.itemSize := by
    show (qu.head + qu.itemSize) % 2 ^ 32 % qu.bufSize = _
    rw [hhead, h.step_offset ha]
  have hdiv' : qu.pop.head / qu.itemSize = (a + 1) % qu.maxItems := by
    rw [hhead', Nat.mul_div_cancel _ h.itemPos]
  constructor
  · refine ⟨h.itemPos, h.bufSize, h.small, ⟨_, Nat.mod_lt _ hpos, hhead'⟩, ?_, ?_⟩
    · show qu.tail = (qu.pop.head / qu.itemSize + (qu.count - 1)) % qu.maxItems * qu.itemSize
      rw [hdiv', h.tail, hdiv, Nat.mod_add_mod]
      congr 2
      omega
    · show qu.count - 1 ≤ qu.maxItems
      omega
  · show slots qu.buffer qu.itemSize qu.maxItems (qu.head / qu.itemSize) qu.count = _
    rw [slots_pop hitem, hdiv, Nat.mod_eq_of_lt ha]
    have hfront : qu.front = readBytes qu.buffer (a * qu.itemSize) qu.itemSize := by
      rw [Queue.front, hhead]
    rw [hfront]
    show _ = _ :: slots qu.buffer qu.itemSize qu.maxItems (qu.pop.head / qu.itemSize) (qu.count - 1)
    rw [hdiv']

/-! ## Items sent and received -/

/-- The item of a send to `q` that returned `OS_OK`. -/
def Event.sentTo (q : Addr) : Event → Option (List UInt8)
  | .sendDone q' item .ok => if q' = q then some item else none
  | _ => none

/-- What a receive from `q` that returned `OS_OK` copied into the caller's buffer. -/
def Event.receivedFrom (q : Addr) : Event → Option (Option (List UInt8))
  | .receiveDone q' .ok copied => if q' = q then some copied else none
  | _ => none

/-- A send to another queue, or one that failed, sent nothing to `q`. -/
theorem Event.sentTo_eq_none {q q' : Addr} {item : List UInt8} {r : Status}
    (h : q' ≠ q ∨ r ≠ .ok) : (Event.sendDone q' item r).sentTo q = none := by
  cases r with
  | ok =>
      have hq : q' ≠ q := by simpa using h
      simp [Event.sentTo, hq]
  | _ => rfl

/-- A receive from another queue, or one that failed, received nothing from `q`. -/
theorem Event.receivedFrom_eq_none {q q' : Addr} {r : Status} {copied : Option (List UInt8)}
    (h : q' ≠ q ∨ r ≠ .ok) : (Event.receiveDone q' r copied).receivedFrom q = none := by
  cases r with
  | ok =>
      have hq : q' ≠ q := by simpa using h
      simp [Event.receivedFrom, hq]
  | _ => rfl

/-- The items of all successful sends, in order. -/
def sentItems (q : Addr) (log : List Event) : List (List UInt8) := log.filterMap (·.sentTo q)

/-- What all successful receives copied, in order. -/
def receivedItems (q : Addr) (log : List Event) : List (Option (List UInt8)) :=
  log.filterMap (·.receivedFrom q)

/-- **Delivery.** The items sent are the items received, each copied to its receiver, followed by the
items still in the ring. -/
def Delivered (q : Addr) (s : Sys) : Prop :=
  (sentItems q s.log).map some = receivedItems q s.log ++ (s.kernel.queues q).items.map some

/-- The queue has just been created with `n` slots of `sz` bytes, and no call has returned yet. -/
def QueueStart (q : Addr) (sz n : Nat) (s : Sys) : Prop :=
  (∃ k b, osQueueCreate k q sz n (some b) = (.ok, s.kernel)) ∧ s.log = []

/-- Whether a step creates the queue anew. -/
def Op.createsQueue (q : Addr) : Op → Bool
  | .queueCreate q' .. => q' == q
  | _ => false

/-- Whether a call is one on the queue. -/
def Call.onQueue (q : Addr) : Call → Bool
  | .queueSend q' _ => q' == q
  | .queueReceive q' => q' == q
  | _ => false

/-- Whether a step is the return of a call that had blocked. -/
def Op.returns : Op → Bool
  | .returnFromCall => true
  | _ => false

/-- The runs of a queue after its creation. -/
def QueueStep (q : Addr) (s : Sys) (op : Op) : Prop := op.Allowed s ∧ op.createsQueue q = false

/-- A call on the queue that blocked and was woken, rather than timed out, is about to return. -/
def WokenReturn (q : Addr) (s : Sys) (op : Op) : Prop :=
  op.returns = true ∧
    ∃ c ∈ s.kernel.current, (s.call c).onQueue q = true ∧ (s.kernel.tcb c).timedOut = false

/-- What has been delivered can be compared. -/
instance (q : Addr) (s : Sys) : Decidable (Delivered q s) := inferInstanceAs (Decidable (_ = _))

/-- Whether a step may take place in such a run can be decided. -/
instance (q : Addr) (s : Sys) (op : Op) : Decidable (QueueStep q s op) :=
  inferInstanceAs (Decidable (_ ∧ _))

/-- Whether a step is the return of a woken task can be decided. -/
instance (q : Addr) (s : Sys) (op : Op) : Decidable (WokenReturn q s op) :=
  inferInstanceAs (Decidable (_ ∧ _))

/-! ## What a step does to one queue -/

/-- The effect of a step on the ring of `q` and on its part of the log. -/
inductive QueueEffect (q : Addr) (s s' : Sys) : Prop
  /-- The ring stays, and no call on it is accepted. -/
  | quiet (hring : s'.kernel.view.rings q = s.kernel.view.rings q)
      (hsent : sentItems q s'.log = sentItems q s.log)
      (hreceived : receivedItems q s'.log = receivedItems q s.log)
  /-- An item goes in. -/
  | sent (item : Mem) (hroom : (s.kernel.view.rings q).count < (s.kernel.view.rings q).maxItems)
      (hring : s'.kernel.view.rings q = (s.kernel.view.rings q).put item)
      (hlog : s'.log
        = s.log ++ [.sendDone q (readBytes item 0 (s.kernel.view.rings q).itemSize) .ok])
  /-- An item comes out. -/
  | received (hitem : 0 < (s.kernel.view.rings q).count)
      (hring : s'.kernel.view.rings q = (s.kernel.view.rings q).pop)
      (hlog : s'.log = s.log ++ [.receiveDone q .ok (some (s.kernel.view.rings q).front)])

/-- A step that changes no ring and logs nothing. -/
theorem QueueEffect.of_rings (hv : s'.kernel.view.rings = s.kernel.view.rings)
    (hl : s'.log = s.log) : QueueEffect q s s' :=
  .quiet (by rw [hv]) (by rw [hl]) (by rw [hl])

/-- A step that logs one event which is no success on `q`, and keeps the ring of `q`. -/
theorem QueueEffect.of_event {e : Event}
    (hring : s'.kernel.view.rings q = s.kernel.view.rings q) (hl : s'.log = s.log ++ [e])
    (hs : e.sentTo q = none) (hr : e.receivedFrom q = none) : QueueEffect q s s' :=
  .quiet hring (by simp [hl, sentItems, hs]) (by simp [hl, receivedItems, hr])

/-- A ring write to another queue. -/
theorem View.setRing_of_ne (v : View) {q q' : Addr} (h : q ≠ q') (qu : Queue) :
    (v.setRing q' qu).rings q = v.rings q := Function.update_of_ne h _ _

/-- A ring reads as it was written. -/
theorem View.setRing_self (v : View) (q : Addr) (qu : Queue) : (v.setRing q qu).rings q = qu :=
  Function.update_self ..

/-- A view that differs in priorities or owners has the same rings. -/
theorem Sys.created_effect (s : Sys) (q : Addr) (a : CreateArgs)
    (r : Status × Option TaskId × Kernel) (hv : r.2.2.view.rings = s.kernel.view.rings) :
    QueueEffect q s (s.created a r) := by
  unfold Sys.created
  split
  · next t _ _ =>
      exact QueueEffect.of_event (e := .created t a.priority) (congrFun hv q) rfl rfl rfl
  · exact .quiet (congrFun hv q) rfl rfl

/-- A send that found room, in this queue or another. -/
theorem QueueEffect.of_put {q' : Addr} {item : Mem}
    (hroom : (s.kernel.view.rings q').count < (s.kernel.view.rings q').maxItems)
    (hv : s'.kernel.view = s.kernel.view.setRing q' ((s.kernel.view.rings q').put item))
    (hl : s'.log
      = s.log ++ [.sendDone q' (readBytes item 0 (s.kernel.view.rings q').itemSize) .ok]) :
    QueueEffect q s s' := by
  by_cases hqq : q' = q
  · subst hqq
    exact .sent item hroom (by rw [hv, View.setRing_self]) hl
  · refine .of_event ?_ hl (Event.sentTo_eq_none (Or.inl hqq)) rfl
    rw [hv, View.setRing_of_ne _ (Ne.symm hqq)]

/-- A receive that found an item, in this queue or another. -/
theorem QueueEffect.of_pop {q' : Addr} (hitem : 0 < (s.kernel.view.rings q').count)
    (hv : s'.kernel.view = s.kernel.view.setRing q' (s.kernel.view.rings q').pop)
    (hl : s'.log = s.log ++ [.receiveDone q' .ok (some (s.kernel.view.rings q').front)]) :
    QueueEffect q s s' := by
  by_cases hqq : q' = q
  · subst hqq
    exact .received hitem (by rw [hv, View.setRing_self]) hl
  · refine .of_event ?_ hl rfl (Event.receivedFrom_eq_none (Or.inl hqq))
    rw [hv, View.setRing_of_ne _ (Ne.symm hqq)]

/-- Creating a task leaves the rings alone. -/
theorem rings_osTaskCreate (k : Kernel) (a : CreateArgs) :
    (osTaskCreate k a).2.2.view.rings = k.view.rings := by
  rcases view_osTaskCreate k a with ⟨t, p, sp, -, -, -, hv, -⟩ | ⟨-, hv⟩
  · rw [hv]
    rfl
  · rw [hv]

/-- Locking and unlocking leave the rings alone. -/
theorem rings_osMutexLock {k : Kernel} {m : Addr} {n : Nat} {r : Kernel × Outcome Status} {c : TaskId}
    (hc : k.current = some c) (h : osMutexLock k m n = some r) :
    r.1.view.rings = k.view.rings := by
  rcases view_osMutexLock hc h with ⟨-, -, hv⟩ | ⟨-, -, hv⟩ | ⟨o, -, -, -, hv⟩
  · rw [hv]
    rfl
  · rw [hv]
    rfl
  · rw [hv]
    split <;> rfl

/-- Unlocking a mutex touches no ring. -/
theorem rings_osMutexUnlock {k : Kernel} {m : Addr} {r : Kernel × Status × Option TaskId}
    {c : TaskId} (hc : k.current = some c) (h : osMutexUnlock k m = some r) :
    r.1.view.rings = k.view.rings := by
  rcases view_osMutexUnlock hc h with ⟨-, -, hv⟩ | ⟨-, -, -, hv⟩ | ⟨-, -, -, hv⟩
  · rw [hv]
  · rw [hv]
    rfl
  · rw [hv]
    rfl

/-- Creating another queue. -/
theorem rings_osQueueCreate {q' : Addr} (hne : q ≠ q') (k : Kernel) (sz n : Nat) (b : Option Addr) :
    (osQueueCreate k q' sz n b).2.view.rings q = k.view.rings q := by
  have hother : ∀ (k : Kernel) (v : Queue), (k.setQueue q' v).view.rings q = k.view.rings q := by
    intro k v
    rw [view_setQueue]
    exact Function.update_of_ne hne _ _
  unfold osQueueCreate
  split
  · rfl
  · cases b with
    | none => exact hother _ _
    | some b => exact (hother _ _).trans (hother _ _)

/-- **The return of a call that had blocked** is a success on the queue only when it was woken. -/
theorem Sys.returnFrom_queueEffect {c : TaskId} (hc : s.kernel.current = some c)
    (hw : ¬ WokenReturn q s .returnFromCall) (h : s.returnFrom c (s.call c) = some s') :
    QueueEffect q s s' := by
  -- what was not woken has timed out
  have hto : (s.call c).onQueue q = true → (s.kernel.tcb c).timedOut = true := by
    intro hq
    by_contra hto
    exact hw ⟨rfl, c, hc, hq, by simpa using hto⟩
  cases hcall : s.call c with
  | idle =>
      rw [hcall] at h
      cases h
  | queueSend q' item =>
      rw [hcall] at h hto
      obtain rfl := Option.some.inj h
      refine .of_event (e := .sendDone q' item (osQueueSendResume s.kernel c)) rfl rfl
        (Event.sentTo_eq_none ?_) rfl
      by_cases hqq : q' = q
      · right
        simp [osQueueSendResume, hto (by simp [Call.onQueue, hqq])]
      · exact Or.inl hqq
  | queueReceive q' =>
      rw [hcall] at h hto
      obtain rfl := Option.some.inj h
      refine .of_event (e := .receiveDone q' (osQueueReceiveResume s.kernel c).1
        (osQueueReceiveResume s.kernel c).2) rfl rfl rfl (Event.receivedFrom_eq_none ?_)
      by_cases hqq : q' = q
      · right
        simp [osQueueReceiveResume, hto (by simp [Call.onQueue, hqq])]
      · exact Or.inl hqq
  | semTake a =>
      rw [hcall] at h
      obtain rfl := Option.some.inj h
      exact .quiet rfl rfl rfl
  | mutexLock m =>
      rw [hcall] at h
      obtain rfl := Option.some.inj h
      exact .of_event (e := .lockResumed m c _) rfl rfl rfl rfl
  | eventWait e =>
      rw [hcall] at h
      obtain rfl := Option.some.inj h
      exact .quiet rfl rfl rfl
  | notifyWait =>
      rw [hcall] at h
      obtain rfl := Option.some.inj h
      exact .of_rings (congrArg View.rings (view_osTaskNotifyWaitResume s.kernel c)) rfl

/-- **What a step does to a queue.** Only a send that finds room and a receive that finds an item
change the ring, and exactly these log a success, apart from a call that returns after it was
woken. -/
theorem step_queueEffect (hop : op.createsQueue q = false) (hw : ¬ WokenReturn q s op)
    (h : step s op = some s') : QueueEffect q s s' := by
  by_cases hq : op.quiet = true
  · obtain ⟨l, c, -, -, hv, hl⟩ := step_quiet hq h
    exact .of_rings (congrArg View.rings hv : _) hl
  cases op with
  | create a =>
      obtain rfl := Option.some.inj h
      exact s.created_effect q a _ (rings_osTaskCreate s.kernel a)
  | createSuspended a =>
      obtain rfl := Option.some.inj h
      refine s.created_effect q a _ ?_
      rw [(view_osTaskCreateSuspended s.kernel a).2]
      exact rings_osTaskCreate s.kernel a
  | queueCreate q' sz n b =>
      obtain rfl := Option.some.inj h
      have hne : q ≠ q' := by
        simp only [Op.createsQueue, beq_eq_false_iff_ne] at hop
        exact hop.symm
      exact .quiet (rings_osQueueCreate hne s.kernel sz n b) rfl rfl
  | queueSend q' item n =>
      obtain ⟨c, k, r, -, hr, rfl⟩ := Sys.blockingCall_inv h
      rcases view_osQueueSend hr with ⟨hroom, hok, hv⟩ | ⟨hok, hv⟩
      · -- room: the item goes to the tail and the send is logged
        obtain rfl : r = .done .ok := hok
        exact .of_put hroom hv rfl
      · -- full: the ring is as before, and no success is logged
        have hring : k.view.rings q = s.kernel.view.rings q := congrFun (congrArg View.rings hv) q
        cases r with
        | blocked => exact .quiet hring rfl rfl
        | done r =>
            have hne : r ≠ .ok := fun hr => hok (by rw [hr])
            exact .of_event (e := .sendDone q' _ r) hring rfl (Event.sentTo_eq_none (Or.inr hne)) rfl
  | queueSendFromIsr q' item =>
      obtain rfl := Option.some.inj h
      rcases view_osQueueSendFromIsr s.kernel q' item with ⟨hroom, hok, hv⟩ | ⟨hok, hv⟩
      · refine .of_put hroom hv ?_
        show s.log ++ [.sendDone q' _ (osQueueSendFromIsr s.kernel q' item).2] = _
        rw [hok]
        rfl
      · exact .of_event (e := .sendDone q' _ (osQueueSendFromIsr s.kernel q' item).2)
          (congrFun (congrArg View.rings hv) q) rfl (Event.sentTo_eq_none (Or.inr hok)) rfl
  | queueReceive q' n =>
      obtain ⟨c, k, r, -, hr, rfl⟩ := Sys.blockingCall_inv h
      rcases view_osQueueReceive hr with ⟨hitem, hok, hv⟩ | ⟨hok, hv⟩
      · obtain rfl : r = .done (.ok, _) := hok
        exact .of_pop hitem hv rfl
      · have hring : k.view.rings q = s.kernel.view.rings q := congrFun (congrArg View.rings hv) q
        cases r with
        | blocked => exact .quiet hring rfl rfl
        | done r =>
            obtain ⟨st, o⟩ := r
            have hne : st ≠ .ok := fun hst => hok o (by rw [hst])
            exact .of_event (e := .receiveDone q' st o) hring rfl rfl
              (Event.receivedFrom_eq_none (Or.inr hne))
  | queueReceiveFromIsr q' =>
      obtain rfl := Option.some.inj h
      rcases view_osQueueReceiveFromIsr s.kernel q' with ⟨hitem, hok, hv⟩ | ⟨hok, hv⟩
      · refine .of_pop hitem hv ?_
        show s.log ++ [.receiveDone q' (osQueueReceiveFromIsr s.kernel q').2.1
          (osQueueReceiveFromIsr s.kernel q').2.2] = _
        rw [hok]
      · exact .of_event
          (e := .receiveDone q' (osQueueReceiveFromIsr s.kernel q').2.1
            (osQueueReceiveFromIsr s.kernel q').2.2)
          (congrFun (congrArg View.rings hv) q) rfl rfl (Event.receivedFrom_eq_none (Or.inr hok))
  | mutexCreate m =>
      obtain rfl := Option.some.inj h
      exact .quiet rfl rfl rfl
  | mutexLock m n =>
      obtain ⟨c, k, r, hc, hr, rfl⟩ := Sys.blockingCall_inv h
      have hv := congrFun (rings_osMutexLock hc hr) q
      cases r with
      | blocked => exact .quiet hv rfl rfl
      | done r => exact .of_event (e := .lockDone m c r) hv rfl rfl rfl
  | mutexUnlock m =>
      obtain ⟨c, hc, h⟩ := Option.bind_eq_some_iff.mp h
      obtain ⟨⟨k, r, w⟩, hr, h⟩ := Option.bind_eq_some_iff.mp h
      obtain rfl := Option.some.inj h
      have hv := congrFun (rings_osMutexUnlock hc hr) q
      cases w with
      | none => exact .of_event (e := .unlockDone m c r) hv rfl rfl rfl
      | some w =>
          refine .quiet hv ?_ ?_
          · simp [sentItems, Sys.emit, Event.sentTo, Sys.after]
          · simp [receivedItems, Sys.emit, Event.receivedFrom, Sys.after]
  | returnFromCall =>
      obtain ⟨c, hc, h⟩ := Option.bind_eq_some_iff.mp h
      exact Sys.returnFrom_queueEffect hc hw h
  | scribble t v nx pv =>
      obtain rfl := Option.some.inj h
      exact .quiet rfl rfl rfl
  | _ => exact absurd rfl hq

/-! ## Delivery over whole runs -/

/-- What is kept along the runs: a consistent ring, and delivery. -/
structure DeliveryInv (q : Addr) (s : Sys) : Prop where
  /-- The ring is consistent. -/
  valid : (s.kernel.view.rings q).Valid
  /-- Nothing was lost, duplicated or reordered so far. -/
  delivered : Delivered q s

/-- One step without a woken return keeps delivery. -/
theorem DeliveryInv.step (h : DeliveryInv q s) (he : QueueEffect q s s') : DeliveryInv q s' := by
  have hd : (sentItems q s.log).map some
      = receivedItems q s.log ++ (s.kernel.view.rings q).items.map some := h.delivered
  cases he with
  | quiet hring hsent hreceived =>
      refine ⟨hring ▸ h.valid, ?_⟩
      show (sentItems q s'.log).map some
        = receivedItems q s'.log ++ (s'.kernel.view.rings q).items.map some
      rw [hring, hsent, hreceived, hd]
  | sent item hroom hring hlog =>
      obtain ⟨hv, hitems⟩ := h.valid.put hroom item
      refine ⟨hring ▸ hv, ?_⟩
      show (sentItems q s'.log).map some
        = receivedItems q s'.log ++ (s'.kernel.view.rings q).items.map some
      have hs : sentItems q s'.log = sentItems q s.log
          ++ [readBytes item 0 (s.kernel.view.rings q).itemSize] := by
        simp [hlog, sentItems, Event.sentTo]
      have hr : receivedItems q s'.log = receivedItems q s.log := by
        simp [hlog, receivedItems, Event.receivedFrom]
      rw [hs, hr, hring, hitems, List.map_append, hd, List.map_append, List.append_assoc]
  | received hitem hring hlog =>
      obtain ⟨hv, hitems⟩ := h.valid.pop hitem
      refine ⟨hring ▸ hv, ?_⟩
      show (sentItems q s'.log).map some
        = receivedItems q s'.log ++ (s'.kernel.view.rings q).items.map some
      have hs : sentItems q s'.log = sentItems q s.log := by
        simp [hlog, sentItems, Event.sentTo]
      have hr : receivedItems q s'.log = receivedItems q s.log
          ++ [some (s.kernel.view.rings q).front] := by
        simp [hlog, receivedItems, Event.receivedFrom]
      rw [hs, hr, hring, hd, hitems, List.map_cons, List.append_assoc]
      rfl

/-- A new queue whose storage size does not overflow delivers, trivially. -/
theorem DeliveryInv.start {sz n : Nat} (h : QueueStart q sz n s) (hsize : sz * n < 2 ^ 32) :
    DeliveryInv q s := by
  obtain ⟨⟨k, b, hk⟩, hlog⟩ := h
  unfold osQueueCreate at hk
  split at hk
  · simp at hk
  · next hpos =>
      have hring := congrArg (fun p : Status × Kernel => p.2.view.rings q) hk
      dsimp only at hring
      rw [view_setQueue] at hring
      simp only [Function.update_self, Kernel.setQueue, Nat.mod_eq_of_lt hsize] at hring
      have hsz : 0 < sz := by omega
      have hn : 0 < n := by omega
      constructor
      · rw [← hring]
        exact ⟨hsz, rfl, hsize, ⟨0, hn, by simp⟩, by simp, Nat.zero_le _⟩
      · show (sentItems q s.log).map some
          = receivedItems q s.log ++ (s.kernel.view.rings q).items.map some
        rw [← hring, hlog]
        rfl

/-- The runs in which no call on the queue returns after it was woken. -/
def QuietQueueStep (q : Addr) (s : Sys) (op : Op) : Prop := QueueStep q s op ∧ ¬ WokenReturn q s op

/-- Whether a step may take place in a quiet run can be decided. -/
instance (q : Addr) (s : Sys) (op : Op) : Decidable (QuietQueueStep q s op) :=
  inferInstanceAs (Decidable (_ ∧ _))

/-- A queue of one four-byte item at address `0x40`, created at start-up. -/
def oneItemQueue : Sys := Sys.boot.after (osQueueCreate Sys.boot.kernel 0x40 4 1 (some 0x9000)).2

/-- A queue of one item of four bytes is a start. -/
theorem oneItemQueue_start : QueueStart 0x40 4 1 oneItemQueue :=
  ⟨⟨Sys.boot.kernel, 0x9000, rfl⟩, rfl⟩

/-- The item whose bytes are all `b`. -/
def fill (b : UInt8) : Mem := fun _ => b

/-- Sends and receives that never block. -/
def pollingTrace : List Op :=
  [.create (taskAt 0x100 3), .selectNext, .queueSend 0x40 (fill 7) 0, .queueSend 0x40 (fill 8) 0,
    .queueReceive 0x40 0, .queueSendFromIsr 0x40 (fill 9), .tick]

/-- The first task fills the queue and blocks in its second send; the second task takes the item,
which wakes the first, and the blocked send returns. -/
def blockedSendTrace : List Op :=
  [.create (taskAt 0x100 3), .create (taskAt 0x200 5), .selectNext, .queueSend 0x40 (fill 7) 10,
    .queueSend 0x40 (fill 8) 10, .selectNext, .queueReceive 0x40 0, .selectNext, .returnFromCall]

end MiniRTOS
