import Mathlib.Data.List.TakeWhile
import MiniRTOS.Kernel.Frames

/-! # The object calls on layouts

The calls of `queue.c`, `semaphore.c` and `eventgroup.c` return and keep the task list invariant. -/

namespace MiniRTOS

open PtrList ByteMemory

variable {k k' : Kernel} {L L' : Layout} {t c : TaskId} {w : WaitList}

/-! ## Writing an object without touching its wait lists -/

/-- The lists read the objects only through their wait-list heads. -/
theorem ListsOk.objects (h : ListsOk k L) (hw : ∀ w, k'.waitHead w = k.waitHead w)
    (hlinks : k'.links = k.links) (hready : k'.readyList = k.readyList)
    (hbits : k'.readyBitmap = k.readyBitmap) (hblocked : k'.blockedList = k.blockedList)
    (hdef : k'.deferredDeleteList = k.deferredDeleteList) : ListsOk k' L := by
  refine h.congr hlinks hready hbits fun P => ?_
  cases P with
  | ready p => exact congrArg (fun f => (f p).head) hready
  | blocked => exact hblocked
  | wait w => exact hw w
  | deferred => exact hdef

/-- So does the invariant. -/
theorem TaskListInv.objects (h : TaskListInv k L) (hw : ∀ w, k'.waitHead w = k.waitHead w)
    (hlinks : k'.links = k.links) (hready : k'.readyList = k.readyList)
    (hbits : k'.readyBitmap = k.readyBitmap) (hblocked : k'.blockedList = k.blockedList)
    (hdef : k'.deferredDeleteList = k.deferredDeleteList) (htcb : k'.tcb = k.tcb)
    (hlive : k'.liveTcbs = k.liveTcbs) (htable : k'.taskTable = k.taskTable) :
    TaskListInv k' L :=
  ⟨h.lists.objects hw hlinks hready hbits hblocked hdef, hlive ▸ h.live, hlive ▸ htcb ▸ h.placed,
    hlive ▸ htcb ▸ h.coherent, hlive ▸ h.liveNodup, hlive ▸ htable ▸ h.liveCount,
    htable ▸ h.tableBound⟩

/-- Ring writes keep the lists of waiting tasks. -/
theorem waitHead_setQueue {q : Addr} {v : Queue} (hs : v.sendWaitList = (k.queues q).sendWaitList)
    (hr : v.recvWaitList = (k.queues q).recvWaitList) (w : WaitList) :
    (k.setQueue q v).waitHead w = k.waitHead w := by
  cases w with
  | queueSend q' =>
      show (Function.update k.queues q v q').sendWaitList = _
      rw [Function.update_apply]
      split
      · next hq => rw [hs, hq]; rfl
      · rfl
  | queueRecv q' =>
      show (Function.update k.queues q v q').recvWaitList = _
      rw [Function.update_apply]
      split
      · next hq => rw [hr, hq]; rfl
      · rfl
  | _ => rfl

/-- Writing the counts of a semaphore keeps them. -/
theorem waitHead_setSem {s : Addr} {v : Sem} (hv : v.waitList = (k.sems s).waitList) (w : WaitList) :
    (k.setSem s v).waitHead w = k.waitHead w := by
  cases w with
  | sem s' =>
      show (Function.update k.sems s v s').waitList = _
      rw [Function.update_apply]
      split
      · next hs => rw [hv, hs]; rfl
      · rfl
  | _ => rfl

/-- Writing the owner fields of a mutex does. -/
theorem waitHead_setMutex {m : Addr} {v : Mutex} (hv : v.waitList = (k.mutexes m).waitList)
    (w : WaitList) : (k.setMutex m v).waitHead w = k.waitHead w := by
  cases w with
  | mutex m' =>
      show (Function.update k.mutexes m v m').waitList = _
      rw [Function.update_apply]
      split
      · next hm => rw [hv, hm]; rfl
      · rfl
  | _ => rfl

/-- Writing the bits of an event group does. -/
theorem waitHead_setEventGroup {e : Addr} {v : EventGroup}
    (hv : v.waitList = (k.eventGroups e).waitList) (w : WaitList) :
    (k.setEventGroup e v).waitHead w = k.waitHead w := by
  cases w with
  | eventGroup e' =>
      show (Function.update k.eventGroups e v e').waitList = _
      rw [Function.update_apply]
      split
      · next he => rw [hv, he]; rfl
      · rfl
  | _ => rfl

/-- Writing ring data of a queue. -/
theorem TaskListInv.setQueue {q : Addr} {v : Queue} (h : TaskListInv k L)
    (hs : v.sendWaitList = (k.queues q).sendWaitList)
    (hr : v.recvWaitList = (k.queues q).recvWaitList) : TaskListInv (k.setQueue q v) L :=
  h.objects (waitHead_setQueue hs hr) rfl rfl rfl rfl rfl rfl rfl rfl

/-- Writing the count of a semaphore. -/
theorem TaskListInv.setSemCount {s : Addr} (h : TaskListInv k L) (n : Nat) :
    TaskListInv (k.setSem s { k.sems s with count := n }) L :=
  h.objects (waitHead_setSem rfl) rfl rfl rfl rfl rfl rfl rfl rfl

/-- Writing the owner fields of a mutex. -/
theorem TaskListInv.setMutex {m : Addr} {v : Mutex} (h : TaskListInv k L)
    (hw : v.waitList = (k.mutexes m).waitList) : TaskListInv (k.setMutex m v) L :=
  h.objects (waitHead_setMutex hw) rfl rfl rfl rfl rfl rfl rfl rfl

/-- Writing the bits of an event group. -/
theorem TaskListInv.setEventBits {e : Addr} (h : TaskListInv k L) (b : BitVec 32) :
    TaskListInv (k.setEventGroup e { k.eventGroups e with bits := b }) L :=
  h.objects (waitHead_setEventGroup rfl) rfl rfl rfl rfl rfl rfl rfl rfl

/-- Writing an object without its wait lists is calm. -/
theorem Calm.objects (hlive : k'.liveTcbs = k.liveTcbs) (htcb : k'.tcb = k.tcb)
    (hcur : k'.current = k.current) : Calm k L k' L where
  waits _ := rfl
  current := hcur
  live _ ht hs := ⟨hlive ▸ ht, htcb ▸ hs⟩
  running _ ht hs := ⟨hlive ▸ ht, htcb ▸ hs⟩
  timedOut _ ht hs := ⟨hlive ▸ ht, htcb ▸ hs⟩
  thins _ := List.Sublist.refl _

/-! ## Waking and blocking -/

/-- Waking the first waiter of a list that is no mutex's, if any. -/
theorem TaskListInv.wakeTask (h : TaskListInv k L) (hw : ∀ m, w ≠ .mutex m) :
    CalmInv k L (wakeTask k w).2 := by
  cases hl : L (.wait w) with
  | nil =>
      rw [wakeTask_nil h.lists hl]
      exact CalmInv.refl h
  | cons t r =>
      obtain ⟨k', hk', h', hd'⟩ := h.wake hl
      rw [hk']
      refine ⟨_, h', Mild.of_tcb hd' (fun m => ?_) (fun hr => by cases hr) (fun hr => by cases hr)
        (fun hr => by cases hr), fun w' => ?_⟩
      · rw [Layout.set_wait _ (by simp), Layout.set_of_ne _ _ (by simpa using (hw m).symm)]
      · rw [Layout.set_wait _ (by simp), Layout.set_apply]
        split
        · next hww =>
            rw [hww, hl]
            exact List.sublist_cons_self t r
        · exact List.Sublist.refl _

/-- **A call that blocks**: the caller enters a wait list behind the waiters of smaller or equal
priority number. -/
structure Enqueued (w : WaitList) (c : TaskId) (k : Kernel) (L : Layout) (k' : Kernel) (L' : Layout)
    (l r : List TaskId) : Prop where
  /-- Where the list is cut. -/
  split : L (.wait w) = l ++ r
  /-- The waiters in front. -/
  front : ∀ x ∈ l, k'.prio x ≤ k'.prio c
  /-- The waiter behind. -/
  back : ∀ x ∈ r.head?, k'.prio c < k'.prio x
  /-- The task lists. -/
  inv : TaskListInv k' L'
  /-- Nothing else happens. -/
  calm : Calm k (L.set (.wait w) (l ++ c :: r)) k' L'

/-- Blocking the current task on an object. -/
theorem TaskListInv.enqueue (timeout : Nat) (h : TaskListInv k L) (ht : c ∈ k.liveTcbs)
    (hs : (k.tcb c).state = .ready ∨ (k.tcb c).state = .running) :
    ∃ k' L' l r, blockTask k w c timeout w.reason w.obj = some k' ∧ Enqueued w c k L k' L' l r := by
  obtain ⟨k', hk', h', hd'⟩ := h.block (w := w) timeout ht hs
  have hprio : k'.prio = k.prio := by
    have hview : k'.view = k.view := view_blockTask hk'
    exact congrArg View.prios hview
  refine ⟨k', _, _, _, hk', (List.takeWhile_append_dropWhile (p := fun x => decide ¬ k.before c x)
    (l := L (.wait w))).symm, fun x hx => ?_, fun x hx => ?_, h', ?_⟩
  · rw [hprio]
    have hnot := List.mem_takeWhile_imp (p := fun x => decide ¬ k.before c x) hx
    exact not_lt.mp (of_decide_eq_true hnot)
  · rw [hprio]
    have hdrop := List.head?_dropWhile_not (fun x => decide ¬ k.before c x) (L (.wait w))
    rw [Option.mem_def.mp hx] at hdrop
    have hbefore : k.before c x := by simpa using hdrop
    exact hbefore
  · refine Calm.of_tcb hd' (fun x => ?_) (fun hr => by cases hr) (fun hr => by cases hr)
      fun hr => by cases hr
    rw [Layout.set_apply, Layout.set_apply]
    split
    · rw [List.orderedInsert_eq_take_drop]
    · exact Layout.remove_wait _ (by simp) _ _

namespace Enqueued

variable {l r : List TaskId}

/-- Blocking after bookkeeping. -/
theorem after_data {k₀ : Kernel} (h : Enqueued w c k L k' L' l r) (hd : k.data = k₀.data) :
    Enqueued w c k₀ L k' L' l r :=
  ⟨h.split, h.front, h.back, h.inv, h.calm.after_data hd⟩

/-- The end of a blocking call. -/
theorem yield (h : Enqueued w c k L k' L' l r) :
    Enqueued w c k L (osSchedYield (osSchedExitCritical k')) L' l r :=
  ⟨h.split, h.front, h.back, h.inv.exitCritical.yield, h.calm.then_data rfl⟩

/-- Blocking on an object that is no mutex is mild. -/
theorem mild (h : Enqueued w c k L k' L' l r) (hw : ∀ m, w ≠ .mutex m) : Mild k L k' L' := by
  refine ⟨fun m => ?_, h.calm.current, h.calm.live, h.calm.running, h.calm.timedOut⟩
  rw [h.calm.waits, Layout.set_of_ne _ _ (by simpa using (hw m).symm)]

end Enqueued

/-- **The outcome of a blocking call**: it returned, or its caller entered the wait list. -/
def TurnInv {α : Type} (w : WaitList) (c : TaskId) (k : Kernel) (L : Layout) (r : Kernel × Outcome α) :
    Prop :=
  (∃ a, r.2 = .done a) ∧ CalmInv k L r.1 ∨
    r.2 = .blocked ∧ ∃ L' l r', Enqueued w c k L r.1 L' l r'

/-- A call that is refused at once. -/
theorem TurnInv.refused {α : Type} {a : α} (h : TaskListInv k L) :
    TurnInv w c k L (osSchedExitCritical (osSchedEnterCritical k), .done a) :=
  Or.inl ⟨⟨a, rfl⟩, (CalmInv.refl h.enterCritical).enterCritical.exitCritical⟩

/-- A call whose critical section ends with its caller in the wait list. -/
theorem Enqueued.turn {α : Type} {l r : List TaskId}
    (h : Enqueued w c (osSchedEnterCritical k) L k' L' l r) :
    TurnInv (α := α) w c k L (osSchedYield (osSchedExitCritical k'), .blocked) :=
  Or.inr ⟨rfl, L', l, r, (h.after_data (data_osSchedEnterCritical k)).yield⟩

/-! ## Queues -/

/-- The preemption test of the queue calls only asks for a yield. -/
theorem Queue.preempt_inv {k₀ : Kernel} (woken : Option TaskId) (h : CalmInv k₀ L k)
    (hc : k₀.current = some c) : ∃ k', Queue.preempt k woken = some k' ∧ CalmInv k₀ L k' := by
  unfold Queue.preempt
  cases woken with
  | none => exact ⟨k, rfl, h⟩
  | some x =>
      rw [h.current.trans hc]
      exact ⟨_, rfl, h.yieldIf _⟩

/-- The state in which a sending call has put its item and woken a receiver. -/
def sent (k : Kernel) (q : Addr) (item : Mem) : Option TaskId × Kernel :=
  wakeTask ((osSchedEnterCritical k).setQueue q ((k.queues q).put item)) (.queueRecv q)

/-- The state in which a receiving call has taken its item and woken a sender. -/
def received (k : Kernel) (q : Addr) : Option TaskId × Kernel :=
  wakeTask ((osSchedEnterCritical k).setQueue q (k.queues q).pop) (.queueSend q)

/-- A call of either direction that is served. -/
theorem TaskListInv.served {q : Addr} {qu : Queue} (h : TaskListInv k L)
    (hsend : qu.sendWaitList = (k.queues q).sendWaitList)
    (hrecv : qu.recvWaitList = (k.queues q).recvWaitList) (hw : ∀ m, w ≠ .mutex m) :
    CalmInv k L (MiniRTOS.wakeTask ((osSchedEnterCritical k).setQueue q qu) w).2 := by
  have h₁ : CalmInv (osSchedEnterCritical k) L ((osSchedEnterCritical k).setQueue q qu) :=
    ⟨L, h.enterCritical.setQueue hsend hrecv, Calm.objects rfl rfl rfl⟩
  exact (h₁.trans fun L' h' => h'.wakeTask hw).enterCritical

/-- The part of a send that writes the ring is calm. -/
theorem TaskListInv.sent {q : Addr} (item : Mem) (h : TaskListInv k L) :
    CalmInv k L (sent k q item).2 :=
  h.served rfl rfl (by simp)

/-- The part of a receive that reads the ring is calm. -/
theorem TaskListInv.received {q : Addr} (h : TaskListInv k L) :
    CalmInv k L (received k q).2 :=
  h.served rfl rfl (by simp)

/-- **A queue call returns or blocks**, and keeps the invariant. -/
theorem TaskListInv.exchange {α : Type} {q : Addr} {p : Prop} [Decidable p] {qu : Queue} {w w' : WaitList}
    {a b : α} (timeout : Nat) (h : TaskListInv k L)
    (hsend : qu.sendWaitList = (k.queues q).sendWaitList)
    (hrecv : qu.recvWaitList = (k.queues q).recvWaitList) (hw : ∀ m, w ≠ .mutex m)
    (hc : k.current = some c) (ht : c ∈ k.liveTcbs)
    (hs : (k.tcb c).state = .ready ∨ (k.tcb c).state = .running) :
    ∃ r, Queue.exchange k q p qu w w' a b timeout = some r ∧ TurnInv w' c k L r := by
  by_cases hp : p
  · rw [Queue.exchange_served hp]
    obtain ⟨k', hk', h'⟩ := Queue.preempt_inv
      (MiniRTOS.wakeTask ((osSchedEnterCritical k).setQueue q qu) w).1
      (h.served hsend hrecv hw).exitCritical hc
    rw [hk']
    exact ⟨_, rfl, Or.inl ⟨⟨_, rfl⟩, h'⟩⟩
  · rw [Queue.exchange_unserved hc hp]
    split
    · exact ⟨_, rfl, TurnInv.refused h⟩
    · obtain ⟨k', L', l, r, hk', hq⟩ := h.enterCritical.enqueue (w := w') timeout ht hs
      rw [hk']
      exact ⟨_, rfl, hq.turn⟩

/-- `os_queue_send` returns or blocks, and keeps the invariant. -/
theorem TaskListInv.osQueueSend {q : Addr} (item : Mem) (timeout : Nat) (h : TaskListInv k L)
    (hc : k.current = some c) (ht : c ∈ k.liveTcbs)
    (hs : (k.tcb c).state = .ready ∨ (k.tcb c).state = .running) :
    ∃ r, osQueueSend k q item timeout = some r ∧ TurnInv (.queueSend q) c k L r := by
  rw [osQueueSend_eq_exchange]
  exact h.exchange timeout rfl rfl (by simp) hc ht hs

/-- `os_queue_receive` returns or blocks, and keeps the invariant. -/
theorem TaskListInv.osQueueReceive {q : Addr} (timeout : Nat) (h : TaskListInv k L)
    (hc : k.current = some c) (ht : c ∈ k.liveTcbs)
    (hs : (k.tcb c).state = .ready ∨ (k.tcb c).state = .running) :
    ∃ r, osQueueReceive k q timeout = some r ∧ TurnInv (.queueRecv q) c k L r := by
  rw [osQueueReceive_eq_exchange]
  exact h.exchange timeout rfl rfl (by simp) hc ht hs

/-- `os_queue_send_from_isr` keeps the invariant. -/
theorem TaskListInv.osQueueSendFromIsr {q : Addr} {item : Mem} (h : TaskListInv k L) :
    CalmInv k L (osQueueSendFromIsr k q item).1 := by
  unfold MiniRTOS.osQueueSendFromIsr
  dsimp only
  split
  · exact (h.sent (q := q) item).exitCritical.requestSwitchIf _
  · exact (CalmInv.refl h.enterCritical).enterCritical.exitCritical

/-- `os_queue_receive_from_isr` keeps the invariant. -/
theorem TaskListInv.osQueueReceiveFromIsr {q : Addr} (h : TaskListInv k L) :
    CalmInv k L (osQueueReceiveFromIsr k q).1 := by
  unfold MiniRTOS.osQueueReceiveFromIsr
  dsimp only
  split
  · exact (h.received (q := q)).exitCritical.requestSwitchIf _
  · exact (CalmInv.refl h.enterCritical).enterCritical.exitCritical

/-! ## Semaphores -/

/-- Writing a semaphore's count is calm. -/
theorem TaskListInv.calm_setSemCount {s : Addr} (h : TaskListInv k L) (n : Nat) :
    CalmInv k L (k.setSem s { k.sems s with count := n }) :=
  ⟨L, h.setSemCount n, Calm.objects rfl rfl rfl⟩

/-- `os_sem_take` of an exhausted semaphore. -/
theorem osSemTake_empty {s : Addr} {timeout : Nat} (hc : k.current = some c)
    (hempty : ¬ 0 < (k.sems s).count) :
    osSemTake k s timeout
      = if timeout = waitNone then
          some (osSchedExitCritical (osSchedEnterCritical k), .done .errEmpty)
        else
          (blockTask (osSchedEnterCritical k) (.sem s) c timeout .onSemTake (.sem s)).map
            fun k' => (osSchedYield (osSchedExitCritical k'), .blocked) := by
  have hempty' : ¬ ((osSchedEnterCritical k).sems s).count > 0 := hempty
  have hcur : (osSchedEnterCritical k).current = some c := hc
  rw [osSemTake, if_neg hempty', hcur, Option.map_eq_bind]
  rfl

/-- `os_sem_take` returns or blocks, and keeps the invariant. -/
theorem TaskListInv.osSemTake {s : Addr} (timeout : Nat) (h : TaskListInv k L)
    (hc : k.current = some c) (ht : c ∈ k.liveTcbs)
    (hs : (k.tcb c).state = .ready ∨ (k.tcb c).state = .running) :
    ∃ r, osSemTake k s timeout = some r ∧ TurnInv (.sem s) c k L r := by
  by_cases hpos : 0 < (k.sems s).count
  · have hpos' : ((osSchedEnterCritical k).sems s).count > 0 := hpos
    rw [MiniRTOS.osSemTake, if_pos hpos']
    exact ⟨_, rfl,
      Or.inl ⟨⟨_, rfl⟩, (h.enterCritical.calm_setSemCount _).enterCritical.exitCritical⟩⟩
  · rw [osSemTake_empty hc hpos]
    split
    · exact ⟨_, rfl, TurnInv.refused h⟩
    · obtain ⟨k', L', l, r, hk', hq⟩ := h.enterCritical.enqueue (w := .sem s) timeout ht hs
      simp only [WaitList.reason, WaitList.obj] at hk'
      rw [hk']
      exact ⟨_, rfl, hq.turn⟩

/-- `os_sem_take_from_isr` keeps the invariant. -/
theorem TaskListInv.osSemTakeFromIsr {s : Addr} (h : TaskListInv k L) :
    CalmInv k L (osSemTakeFromIsr k s).1 := by
  unfold MiniRTOS.osSemTakeFromIsr
  dsimp only
  split
  · exact (h.enterCritical.calm_setSemCount _).enterCritical.exitCritical
  · exact (CalmInv.refl h.enterCritical).enterCritical.exitCritical

/-- `os_sem_give` returns and keeps the invariant. -/
theorem TaskListInv.osSemGive {s : Addr} (h : TaskListInv k L) (hc : k.current = some c) :
    ∃ r, osSemGive k s = some r ∧ CalmInv k L r.1 := by
  have h' := (h.enterCritical.wakeTask (w := .sem s) (by simp)).enterCritical
  unfold MiniRTOS.osSemGive Sem.prvWakeTask
  dsimp only
  split
  · next x k₂ heq =>
      rw [heq] at h'
      rw [h'.exitCritical.current.trans hc]
      exact ⟨_, rfl, h'.exitCritical.yieldIf _⟩
  · split
    · exact ⟨_, rfl, (h.enterCritical.calm_setSemCount _).enterCritical.exitCritical⟩
    · exact ⟨_, rfl, (CalmInv.refl h.enterCritical).enterCritical.exitCritical⟩

/-- `os_sem_give_from_isr` keeps the invariant. -/
theorem TaskListInv.osSemGiveFromIsr {s : Addr} (h : TaskListInv k L) :
    CalmInv k L (osSemGiveFromIsr k s).1 := by
  have h' := (h.enterCritical.wakeTask (w := .sem s) (by simp)).enterCritical
  unfold MiniRTOS.osSemGiveFromIsr Sem.prvWakeTask
  dsimp only
  split
  · next x k₂ heq =>
      rw [heq] at h'
      exact h'.exitCritical.requestSwitch
  · split
    · exact (h.enterCritical.calm_setSemCount _).enterCritical.exitCritical
    · exact (CalmInv.refl h.enterCritical).enterCritical.exitCritical

/-! ## Event groups -/

/-- Writing the bits of an event group is calm. -/
theorem TaskListInv.calm_setEventBits {e : Addr} (h : TaskListInv k L) (b : BitVec 32) :
    CalmInv k L (k.setEventGroup e { k.eventGroups e with bits := b }) :=
  ⟨L, h.setEventBits b, Calm.objects rfl rfl rfl⟩

/-- Waking one waiter of an event group, wherever it stands in the list. -/
theorem TaskListInv.wakeWaiter {e : Addr} (h : TaskListInv k L)
    (ht : t ∈ L (.wait (.eventGroup e))) :
    let L' := (L.remove (.wait (.eventGroup e)) t).set (.ready (k.prio t))
      (L (.ready (k.prio t)) ++ [t])
    TaskListInv (EventGroup.wakeWaiter k e t) L' ∧ Calm k L (EventGroup.wakeWaiter k e t) L' := by
  intro L'
  set v : Tcb := { k.tcb t with eventReturnBits := (k.eventGroups e).bits } with hv
  have h₁ : TaskListInv (k.setTcb t v) L := h.setTcb (fun P => by cases P <;> rfl) fun hc => hc
  have hcalm₁ : Calm k L (k.setTcb t v) L := Calm.of_tcb rfl (fun _ => rfl) id id id
  -- the bits may be cleared before the task is unlinked
  set k₂ := if ((k.setTcb t v).tcb t).eventWaitOptions &&& eventClearOnExit ≠ 0 then
      (k.setTcb t v).setEventGroup e
        { k.eventGroups e with
          bits := (k.eventGroups e).bits &&& ~~~((k.setTcb t v).tcb t).eventWaitBits }
    else k.setTcb t v with hk₂
  have h₂ : TaskListInv k₂ L ∧ k₂.tcb = (k.setTcb t v).tcb ∧ Calm (k.setTcb t v) L k₂ L := by
    rw [hk₂]
    split
    · exact ⟨h₁.setEventBits _, rfl, Calm.objects rfl rfl rfl⟩
    · exact ⟨h₁, rfl, Calm.refl _ _⟩
  obtain ⟨h₂, htcb₂, hcalm₂⟩ := h₂
  have hd := data_unblockTask k₂ (.eventGroup e) t
  have htcb₃ : (unblockTask k₂ (.eventGroup e) t).tcb
      = Function.update k₂.tcb t { k₂.tcb t with blockedOn := none, blockedReason := .none } :=
    tcb_of_data hd
  have hprio : (k₂.tcb t).priority = k.prio t := by
    rw [htcb₂]
    show (Function.update k.tcb t v t).priority = _
    rw [Function.update_self]
    rfl
  have hready : L.remove (.wait (.eventGroup e)) t (.ready (k.prio t)) = L (.ready (k.prio t)) :=
    Layout.set_of_ne _ _ (by simp)
  have hl := (unblockTask_lists h₂.lists ht).setTcb t
    { (unblockTask k₂ (.eventGroup e) t).tcb t with delayTicks := 0, timedOut := false }
  obtain ⟨h', hd'⟩ := h₂.toReady
    (v := { k₂.tcb t with
      blockedOn := none, blockedReason := .none, delayTicks := 0, timedOut := false })
    ht hl (by
      rw [data_setTcb_congr hd, htcb₃, Function.update_self]
      simp only [Kernel.setTcb, Function.update_idem]) rfl
  have hpv : ({ k₂.tcb t with
      blockedOn := none, blockedReason := .none, delayTicks := 0, timedOut := false } : Tcb).priority
      = k.prio t := hprio
  rw [hpv, hready] at h'
  refine ⟨h', (hcalm₁.trans hcalm₂).trans ⟨Mild.of_tcb hd' (fun m => ?_) (fun hr => by cases hr)
    (fun hr => by cases hr) (fun hr => by cases hr), fun w => ?_⟩⟩
  · simp only [L']
    rw [Layout.set_wait _ (by simp), Layout.remove, Layout.set_of_ne _ _ (by simp)]
  · simp only [L']
    rw [Layout.set_wait _ (by simp), Layout.remove, Layout.set_apply]
    split
    · next hw =>
        rw [hw]
        exact List.erase_sublist
    · exact List.Sublist.refl _

/-- The walk goes from a waiter to the one listed behind it. -/
theorem TaskListInv.next_waiter {e : Addr} {done rest : List TaskId} (h : TaskListInv k L)
    (hw : L (.wait (.eventGroup e)) = done ++ t :: rest) : k.links.next t = rest.head? := by
  have hseg : k.links.Seg none (done ++ t :: rest) none :=
    hw ▸ h.lists.seg (.wait (.eventGroup e)) (by simp)
  exact hseg.at_mid.2

/-- Taking a waiter out of the middle leaves the ones before it and the ones behind. -/
theorem TaskListInv.waits_without {e : Addr} {done rest l : List TaskId} {p : Prio}
    (h : TaskListInv k L) (hw : L (.wait (.eventGroup e)) = done ++ t :: rest) :
    (L.remove (.wait (.eventGroup e)) t).set (.ready p) l (.wait (.eventGroup e)) = done ++ rest := by
  have hnd := hw ▸ h.lists.nodup (.wait (.eventGroup e))
  have htd : t ∉ done := fun htd => (List.nodup_append.mp hnd).2.2 t htd t (by simp) rfl
  rw [Layout.set_of_ne _ _ (by simp), Layout.remove, Layout.set_self, hw,
    List.erase_append_right _ htd, List.erase_cons_head]

/-- Waking a waiter in the middle of the walk leaves the ones before it and the ones behind. -/
theorem TaskListInv.wakeWaiter_mid {e : Addr} {done rest : List TaskId} (h : TaskListInv k L)
    (hw : L (.wait (.eventGroup e)) = done ++ t :: rest) :
    ∃ L₁, TaskListInv (EventGroup.wakeWaiter k e t) L₁ ∧
      Calm k L (EventGroup.wakeWaiter k e t) L₁ ∧ L₁ (.wait (.eventGroup e)) = done ++ rest := by
  obtain ⟨h₁, hcalm₁⟩ := h.wakeWaiter (e := e) (t := t) (by simp [hw])
  exact ⟨_, h₁, hcalm₁, h.waits_without hw⟩

/-- **The walk of `os_eventgroup_set_bits`** over the waiters returns and keeps the invariant. -/
theorem EventGroup.wakeWalk_inv {e : Addr} {rest : List TaskId} {fuel : Nat} (done woken : List TaskId)
    (h : TaskListInv k L) (hw : L (.wait (.eventGroup e)) = done ++ rest)
    (hfuel : rest.length ≤ fuel) :
    ∃ r, EventGroup.wakeWalk e fuel k woken rest.head? = some r ∧ CalmInv k L r.1 := by
  induction rest generalizing k L done woken fuel with
  | nil => exact ⟨(k, woken), by cases fuel <;> rfl, CalmInv.refl h⟩
  | cons t rest ih =>
      obtain ⟨fuel, rfl⟩ : ∃ n, fuel = n + 1 := ⟨fuel - 1, by simp at hfuel; omega⟩
      have hlen : rest.length ≤ fuel := by simpa using hfuel
      rw [List.head?_cons, EventGroup.wakeWalk, h.next_waiter hw]
      split
      · obtain ⟨L₁, h₁, hcalm₁, hw₁⟩ := h.wakeWaiter_mid hw
        obtain ⟨r, hr, L', h', hcalm'⟩ := ih done (woken ++ [t]) h₁ hw₁ hlen
        exact ⟨r, hr, L', h', hcalm₁.trans hcalm'⟩
      · exact ih (done ++ [t]) woken h (by simp [hw]) hlen

/-- Setting bits and waking the satisfied waiters. -/
theorem EventGroup.setAndWake_inv {e : Addr} (bits : BitVec 32) (h : TaskListInv k L) :
    ∃ r, EventGroup.setAndWake k e bits = some r ∧ CalmInv k L r.1 := by
  have h₁ := h.setEventBits (e := e) ((k.eventGroups e).bits ||| bits)
  obtain ⟨r, hr, L', h', hcalm'⟩ :=
    EventGroup.wakeWalk_inv (e := e) [] [] h₁ rfl (h.length_le _)
  have hcalm : Calm k L (k.setEventGroup e
      { k.eventGroups e with bits := (k.eventGroups e).bits ||| bits }) L :=
    Calm.objects rfl rfl rfl
  refine ⟨r, ?_, L', h', hcalm.trans hcalm'⟩
  have hhead := h₁.lists.head (.wait (.eventGroup e))
  rw [← hr, ← hhead]
  rfl

/-- `os_eventgroup_set_bits` returns and keeps the invariant. -/
theorem TaskListInv.osEventgroupSetBits {e : Addr} (bits : BitVec 32) (h : TaskListInv k L)
    (hc : k.current = some c) :
    ∃ r, osEventgroupSetBits k e bits = some r ∧ CalmInv k L r.1 := by
  obtain ⟨⟨k₁, woken⟩, hr, h'⟩ :=
    EventGroup.setAndWake_inv (e := e) bits h.enterCritical
  have h'' := h'.enterCritical.exitCritical
  rw [MiniRTOS.osEventgroupSetBits, hr]
  dsimp only [Option.bind_eq_bind, Option.bind_some]
  split
  · exact ⟨_, rfl, h''⟩
  · rw [h''.current.trans hc]
    exact ⟨_, rfl, h''.yieldIf _⟩

/-- `os_eventgroup_set_bits_from_isr` returns and keeps the invariant. -/
theorem TaskListInv.osEventgroupSetBitsFromIsr {e : Addr} (bits : BitVec 32)
    (h : TaskListInv k L) :
    ∃ r, osEventgroupSetBitsFromIsr k e bits = some r ∧ CalmInv k L r.1 := by
  obtain ⟨⟨k₁, woken⟩, hr, h'⟩ :=
    EventGroup.setAndWake_inv (e := e) bits h.enterCritical
  rw [MiniRTOS.osEventgroupSetBitsFromIsr, hr]
  refine ⟨_, rfl, ?_⟩
  show CalmInv k L (if woken.isEmpty then _ else _)
  split
  · exact h'.enterCritical.exitCritical
  · exact h'.enterCritical.exitCritical.requestSwitch

/-- `os_eventgroup_clear_bits` keeps the invariant. -/
theorem TaskListInv.osEventgroupClearBits (e : Addr) (bits : BitVec 32) (h : TaskListInv k L) :
    CalmInv k L (osEventgroupClearBits k e bits).1 :=
  (h.enterCritical.calm_setEventBits _).enterCritical.exitCritical

/-- `os_eventgroup_wait_bits` with its condition not met. -/
theorem osEventgroupWaitBits_unmet {e : Addr} {bits options : BitVec 32} {timeout : Nat}
    (hc : k.current = some c) (hun : eventSatisfied (k.eventGroups e).bits bits options = false) :
    osEventgroupWaitBits k e bits options timeout
      = if timeout = waitNone then some (osSchedExitCritical (osSchedEnterCritical k), .done 0)
        else
          (EventGroup.prvBlockTask (osSchedEnterCritical k) e c bits options timeout).map
            fun k' => (osSchedYield (osSchedExitCritical k'), .blocked) := by
  have hun' : ¬ eventSatisfied ((osSchedEnterCritical k).eventGroups e).bits bits options = true := by
    have : (osSchedEnterCritical k).eventGroups = k.eventGroups := rfl
    simp [this, hun]
  have hcur : (osSchedEnterCritical k).current = some c := hc
  rw [osEventgroupWaitBits, if_neg hun', hcur, Option.map_eq_bind]
  rfl

/-- Blocking on an event group keeps the invariant. -/
theorem TaskListInv.eventBlock {e : Addr} (bits options : BitVec 32) (timeout : Nat)
    (h : TaskListInv k L) (ht : c ∈ k.liveTcbs)
    (hs : (k.tcb c).state = .ready ∨ (k.tcb c).state = .running) :
    ∃ k' L' l r, EventGroup.prvBlockTask k e c bits options timeout = some k' ∧
      Enqueued (.eventGroup e) c k L k' L' l r := by
  set v : Tcb := { k.tcb c with
    eventWaitBits := bits, eventWaitOptions := options, eventReturnBits := 0 } with hv
  have h₁ : TaskListInv (k.setTcb c v) L := h.setTcb (fun P => by cases P <;> rfl) fun hc => hc
  have htcb : (k.setTcb c v).tcb c = v := Function.update_self ..
  obtain ⟨k', L', l, r, hk', hq⟩ := h₁.enqueue (w := .eventGroup e) timeout ht
    (by rw [htcb]; exact hs)
  have hcalm : Calm k (L.set (.wait (.eventGroup e)) (l ++ c :: r)) (k.setTcb c v)
      (L.set (.wait (.eventGroup e)) (l ++ c :: r)) := Calm.of_tcb rfl (fun _ => rfl) id id id
  exact ⟨k', L', l, r, hk', hq.split, hq.front, hq.back, hq.inv, hcalm.trans hq.calm⟩

/-- `os_eventgroup_wait_bits` returns or blocks, and keeps the invariant. -/
theorem TaskListInv.osEventgroupWaitBits {e : Addr} (bits options : BitVec 32) (timeout : Nat)
    (h : TaskListInv k L) (hc : k.current = some c) (ht : c ∈ k.liveTcbs)
    (hs : (k.tcb c).state = .ready ∨ (k.tcb c).state = .running) :
    ∃ r, osEventgroupWaitBits k e bits options timeout = some r ∧
      TurnInv (.eventGroup e) c k L r := by
  cases hsat : eventSatisfied (k.eventGroups e).bits bits options with
  | true =>
      have hsat' : eventSatisfied ((osSchedEnterCritical k).eventGroups e).bits bits options
          = true := hsat
      rw [MiniRTOS.osEventgroupWaitBits, if_pos hsat']
      refine ⟨_, rfl, Or.inl ⟨⟨_, rfl⟩, CalmInv.exitCritical (CalmInv.enterCritical ?_)⟩⟩
      split
      · exact h.enterCritical.calm_setEventBits _
      · exact CalmInv.refl h.enterCritical
  | false =>
      rw [osEventgroupWaitBits_unmet hc hsat]
      split
      · exact ⟨_, rfl, TurnInv.refused h⟩
      · obtain ⟨k', L', l, r, hk', hq⟩ :=
          h.enterCritical.eventBlock (e := e) bits options timeout ht hs
        rw [hk']
        exact ⟨_, rfl, hq.turn⟩

end MiniRTOS
