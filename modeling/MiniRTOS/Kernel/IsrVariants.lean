import MiniRTOS.Kernel.Context
import MiniRTOS.Kernel.FailedCalls
import MiniRTOS.Kernel.TaskMoves
import MiniRTOS.Kernel.Timer

/-! # Calls from interrupts and calls from tasks

Most calls exist twice, once for tasks and once for interrupt handlers, as two copies of one body. The
copies differ in how they ask for a context switch: a task yields when it has woken a more urgent task,
a handler sets `yield_pending` when it has woken any. A task that wakes another one also reads
`current_task_ptr`, which a handler does not; before the first task is dispatched nobody waits, so
that the pointer is never null there.

* **`VariantCall`** — the pairs, `VariantCall.task` and `VariantCall.isr` the two copies.
* **`AwaitsDispatch`** — while there is no current task, no task is BLOCKED.
* **`isrVariant_agrees`** — in every reachable state, both copies answer the same and leave the same
  state, up to the switch request. -/

namespace MiniRTOS

open Runs ByteMemory

variable {k k' : Kernel} {s s' s₀ : Sys} {op : Op} {L : Layout} {t : TaskId}

/-! ## States up to the switch request -/

/-- The kernel without the switch request and the interrupt mask. -/
def Kernel.settled (k : Kernel) : Kernel := { k.unmasked with yieldPending := false, pendSv := false }

/-- A request from an interrupt settles to nothing. -/
@[simp] theorem settled_osSchedRequestSwitchFromIsr (k : Kernel) :
    (osSchedRequestSwitchFromIsr k).settled = k.settled := rfl

/-- So does a request to switch under a condition. -/
@[simp] theorem settled_yieldIf (k : Kernel) (b : Prop) [Decidable b] :
    (if b then osSchedYield k else k).settled = k.settled := by
  split <;> rfl

/-- So does one from an interrupt under a condition. -/
@[simp] theorem settled_requestSwitchIf (k : Kernel) (b : Prop) [Decidable b] :
    (if b then osSchedRequestSwitchFromIsr k else k).settled = k.settled := by
  split <;> rfl

/-- **Whoever is waited for has a caller**: a task can only wait once some task has been dispatched. -/
structure Kernel.Staffed (k : Kernel) : Prop where
  /-- Wait lists. -/
  waiters : ∀ w, k.waitHead w ≠ none → ∃ c, k.current = some c
  /-- Tasks that wait for a notification. -/
  notified : ∀ t ∈ k.liveTcbs, (k.tcb t).state = .blocked → ∃ c, k.current = some c

/-! ## Pairs that work on the kernel -/

/-- The task variant reads the current task only after a wake-up. -/
theorem settled_preempt {w : WaitList} (h : k.waitHead w ≠ none → ∃ c, k.current = some c) :
    ∃ k', Queue.preempt (osSchedExitCritical (wakeTask k w).2) (wakeTask k w).1 = some k' ∧
      k'.settled = (osSchedExitCritical (wakeTask k w).2).settled := by
  have hfst : (wakeTask k w).1 = k.waitHead w := by
    unfold wakeTask
    split <;> simp_all
  have hcur : (osSchedExitCritical (wakeTask k w).2).current = k.current :=
    congrArg View.current (view_wakeTask k w)
  unfold Queue.preempt
  rw [hfst, hcur]
  cases hw : k.waitHead w with
  | none => exact ⟨_, rfl, rfl⟩
  | some t =>
      obtain ⟨c, hc⟩ := h (by simp [hw])
      rw [hc]
      exact ⟨_, rfl, settled_yieldIf _ _⟩

/-- `os_queue_send` without waiting. -/
theorem settled_osQueueSend {q : Addr} (item : Mem) (h : k.Staffed) :
    ∃ k', osQueueSend k q item waitNone = some (k', .done (osQueueSendFromIsr k q item).2) ∧
      k'.settled = (osQueueSendFromIsr k q item).1.settled := by
  have hw : ((osSchedEnterCritical k).setQueue q (((osSchedEnterCritical k).queues q).put item)).waitHead
      (.queueRecv q) = k.waitHead (.queueRecv q) :=
    waitHead_setQueue (by rfl) (by rfl) _
  simp only [osQueueSend, osQueueSendFromIsr, if_true]
  split
  · obtain ⟨k', hk', hs⟩ := settled_preempt (k := (osSchedEnterCritical k).setQueue q
      (((osSchedEnterCritical k).queues q).put item)) (w := .queueRecv q)
      fun hne => h.waiters _ (hw ▸ hne)
    refine ⟨k', ?_, ?_⟩
    · show (Queue.preempt _ _).bind _ = _
      rw [Queue.prvWakeTask, hk']
      rfl
    · rw [settled_requestSwitchIf]
      exact hs
  · exact ⟨_, rfl, rfl⟩

/-- `os_queue_receive` without waiting. -/
theorem settled_osQueueReceive (q : Addr) (h : k.Staffed) :
    ∃ k', osQueueReceive k q waitNone = some (k', .done (osQueueReceiveFromIsr k q).2) ∧
      k'.settled = (osQueueReceiveFromIsr k q).1.settled := by
  have hw : ((osSchedEnterCritical k).setQueue q ((osSchedEnterCritical k).queues q).pop).waitHead
      (.queueSend q) = k.waitHead (.queueSend q) :=
    waitHead_setQueue (by rfl) (by rfl) _
  simp only [osQueueReceive, osQueueReceiveFromIsr, if_true]
  split
  · obtain ⟨k', hk', hs⟩ := settled_preempt (k := (osSchedEnterCritical k).setQueue q
      ((osSchedEnterCritical k).queues q).pop) (w := .queueSend q)
      fun hne => h.waiters _ (hw ▸ hne)
    refine ⟨k', ?_, ?_⟩
    · show (Queue.preempt _ _).bind _ = _
      rw [Queue.prvWakeTask, hk']
      rfl
    · rw [settled_requestSwitchIf]
      exact hs
  · exact ⟨_, rfl, rfl⟩

/-- `os_queue_overwrite`, which tests `current_task_ptr` itself. -/
theorem settled_osQueueOverwrite (k : Kernel) (q : Addr) (item : Mem) :
    (osQueueOverwrite k q item).2 = (osQueueOverwriteFromIsr k q item).2 ∧
      (osQueueOverwrite k q item).1.settled = (osQueueOverwriteFromIsr k q item).1.settled := by
  unfold osQueueOverwrite osQueueOverwriteFromIsr
  dsimp only
  split
  · exact ⟨rfl, rfl⟩
  · rw [settled_requestSwitchIf]
    split <;> simp

/-- `os_sem_take` without waiting. -/
theorem settled_osSemTake (k : Kernel) (a : Addr) :
    osSemTake k a waitNone = some ((osSemTakeFromIsr k a).1, .done (osSemTakeFromIsr k a).2) := by
  simp only [osSemTake, osSemTakeFromIsr, if_true]
  split <;> rfl

/-- `os_sem_give`. -/
theorem settled_osSemGive (a : Addr) (h : k.Staffed) :
    ∃ k', osSemGive k a = some (k', (osSemGiveFromIsr k a).2) ∧
      k'.settled = (osSemGiveFromIsr k a).1.settled := by
  have hcur := congrArg View.current (view_wakeTask (osSchedEnterCritical k) (.sem a))
  unfold osSemGive osSemGiveFromIsr Sem.prvWakeTask
  dsimp only
  split
  · next w k₂ heq =>
      have hw : k.waitHead (.sem a) ≠ none := by
        intro hnone
        rw [wakeTask, show (osSchedEnterCritical k).waitHead (.sem a) = none from hnone] at heq
        cases heq
      obtain ⟨c, hc⟩ := h.waiters _ hw
      rw [heq] at hcur
      have hc₂ : (osSchedExitCritical k₂).current = some c := hcur.trans hc
      rw [hc₂]
      exact ⟨_, rfl, settled_yieldIf _ _⟩
  · split
    · exact ⟨_, rfl, rfl⟩
    · exact ⟨_, rfl, rfl⟩

/-- Waking the waiters of an event group keeps the current task, and wakes nobody when nobody
waits. -/
theorem setAndWake_frame {e : Addr} {bits : BitVec 32} {r : Kernel × List TaskId}
    (hr : EventGroup.setAndWake k e bits = some r) :
    r.1.current = k.current ∧ (k.waitHead (.eventGroup e) = none → r.2 = []) := by
  refine ⟨congrArg View.current (view_setAndWake hr), fun hnone => ?_⟩
  unfold EventGroup.setAndWake at hr
  dsimp only at hr
  have hlist : ((k.setEventGroup e
      { k.eventGroups e with bits := (k.eventGroups e).bits ||| bits }).eventGroups e).waitList = none := by
    show (Function.update k.eventGroups e _ e).waitList = none
    rw [Function.update_self]
    exact hnone
  rw [hlist] at hr
  rw [← Option.some.inj hr]

/-- `os_eventgroup_set_bits`; both copies walk over the same waiters. -/
theorem settled_osEventgroupSetBits (e : Addr) (bits : BitVec 32) (h : k.Staffed) :
    (osEventgroupSetBits k e bits).map (fun r => (r.1.settled, r.2))
      = (osEventgroupSetBitsFromIsr k e bits).map fun r => (r.1.settled, r.2) := by
  unfold osEventgroupSetBits osEventgroupSetBitsFromIsr
  cases hr : EventGroup.setAndWake (osSchedEnterCritical k) e bits with
  | none => rfl
  | some r =>
      obtain ⟨k₁, woken⟩ := r
      obtain ⟨hcur, hnil⟩ := setAndWake_frame hr
      have hcur₁ : (osSchedExitCritical k₁).current = k.current := hcur
      simp only [Option.bind_eq_bind, Option.bind_some]
      cases hwoken : woken with
      | nil => rfl
      | cons w ws =>
          -- somebody was woken, so somebody was waiting, and then there is a current task to
          -- compare with
          have hw : k.waitHead (.eventGroup e) ≠ none := fun hnone => by
            have hnil' : woken = [] := hnil hnone
            rw [hwoken] at hnil'
            cases hnil'
          obtain ⟨c, hc⟩ := h.waiters _ hw
          simp only [List.isEmpty_cons, Bool.false_eq_true, if_false, hcur₁, hc, Option.bind_some,
            Option.map_some, settled_yieldIf, settled_osSchedRequestSwitchFromIsr]

/-- `os_task_notify`. -/
theorem settled_osTaskNotify (v : BitVec 32) (h : k.Staffed) (ht : t ∈ k.liveTcbs) :
    ∃ k', osTaskNotify k t v = some (k', (osTaskNotifyFromIsr k t v).2) ∧
      k'.settled = (osTaskNotifyFromIsr k t v).1.settled := by
  have hcur := congrArg View.current (view_notifyTask (osSchedEnterCritical k) t v)
  unfold osTaskNotify osTaskNotifyFromIsr
  dsimp only
  cases hwoken : (notifyTask (osSchedEnterCritical k) t v).1 with
  | false => exact ⟨_, rfl, rfl⟩
  | true =>
      -- only a blocked target is woken, and the task variant then compares it with the current task
      have hblocked : (k.tcb t).state = .blocked := by
        unfold notifyTask at hwoken
        dsimp only at hwoken
        split at hwoken
        · next hb =>
            have hst := hb.1
            simp only [Kernel.setTcb, Function.update_self] at hst
            exact hst
        · cases hwoken
      obtain ⟨c, hc⟩ := h.notified t ht hblocked
      have hc₂ : (osSchedExitCritical (notifyTask (osSchedEnterCritical k) t v).2).current = some c :=
        hcur.trans hc
      rw [if_pos rfl, if_pos rfl, hc₂]
      exact ⟨_, rfl, settled_yieldIf _ _⟩

/-! ## Pairs that work on the timers -/

/-- The timers on another kernel. -/
def Timers.withKernel (s : Timers) (k : Kernel) : Timers := { s with kernel := k }

/-- A function on the timers that does not look at the kernel. -/
def IgnoresKernel (body : Timers → Option Timers) : Prop :=
  ∀ s k, body (s.withKernel k) = (body s).map (·.withKernel k)

/-- A write to the timers, before and after which the kernel is ignored. -/
theorem IgnoresKernel.comp {f : Timers → Timers} {g : Timers → Option Timers} (hg : IgnoresKernel g)
    (hf : ∀ s k, f (s.withKernel k) = (f s).withKernel k) : IgnoresKernel fun s => g (f s) := by
  intro s k
  dsimp only
  rw [hf, hg]

/-- One function after another. -/
theorem IgnoresKernel.bind {f g : Timers → Option Timers} (hf : IgnoresKernel f) (hg : IgnoresKernel g) :
    IgnoresKernel fun s => (f s).bind g := by
  intro s k
  dsimp only
  rw [hf]
  cases f s with
  | none => rfl
  | some s₁ => exact hg s₁ k

/-- A choice that does not depend on the kernel. -/
theorem IgnoresKernel.ite {c : Timers → Prop} [∀ s, Decidable (c s)] {f g : Timers → Option Timers}
    (hc : ∀ s k, c (s.withKernel k) ↔ c s) (hf : IgnoresKernel f) (hg : IgnoresKernel g) :
    IgnoresKernel fun s => if c s then f s else g s := by
  intro s k
  dsimp only
  by_cases h : c s
  · rw [if_pos h, if_pos ((hc s k).mpr h), hf]
  · rw [if_neg h, if_neg fun h' => h ((hc s k).mp h'), hg]

/-- A function that cannot fail and does not look at the kernel. -/
theorem ignoresKernel_some {f : Timers → Timers} (hf : ∀ s k, f (s.withKernel k) = (f s).withKernel k) :
    IgnoresKernel fun s => some (f s) := fun s k => congrArg some (hf s k)

/-- Removing a timer does not look at the kernel. -/
theorem ignoresKernel_remove (fuel : Nat) (t : TimerId) :
    IgnoresKernel (prvTimerRemoveFromActive fuel · t) := by
  intro s k
  -- the walk reads links only; the unlinking rewrites two of them, with or without a predecessor
  have hunlink : ∀ prev, unlinkTimer (s.withKernel k) t prev = (unlinkTimer s t prev).withKernel k := by
    intro prev
    unfold unlinkTimer
    cases prev with
    | none =>
        cases hn : (s.timer t).next with
        | none => simp only [Timers.withKernel, hn]
        | some n =>
            simp only [Timers.withKernel, hn]
            rfl
    | some p =>
        have hset : (s.withKernel k).setNext p ((s.withKernel k).timer t).next
            = (s.setNext p (s.timer t).next).withKernel k := rfl
        simp only [hset]
        generalize s.setNext p (s.timer t).next = s₁
        cases hn : (s₁.timer t).next with
        | none => simp only [Timers.withKernel, hn]
        | some n =>
            simp only [Timers.withKernel, hn]
            rfl
  show (removeWalk s.timer t fuel none s.activeTimerList).map _
    = ((removeWalk s.timer t fuel none s.activeTimerList).map _).map _
  cases removeWalk s.timer t fuel none s.activeTimerList with
  | none => rfl
  | some r =>
      cases r with
      | none => rfl
      | some prev => exact congrArg some (hunlink prev)

/-- Nor does inserting one. -/
theorem ignoresKernel_insert (fuel : Nat) (t : TimerId) : IgnoresKernel (prvTimerInsertSorted fuel · t) := by
  intro s k
  have hlink : ∀ prev iter, linkTimer ((s.setNext t none).withKernel k) t prev iter
      = (linkTimer (s.setNext t none) t prev iter).withKernel k := by
    intro prev iter
    cases prev <;> cases iter <;> rfl
  show ((insertWalk (s.setNext t none).timer ((s.setNext t none).timer t).remaining fuel none
      (s.setNext t none).activeTimerList).bind _) = ((insertWalk (s.setNext t none).timer
        ((s.setNext t none).timer t).remaining fuel none (s.setNext t none).activeTimerList).bind _).map _
  cases insertWalk (s.setNext t none).timer ((s.setNext t none).timer t).remaining fuel none
      (s.setNext t none).activeTimerList with
  | none => rfl
  | some r => exact congrArg some (hlink r.1 r.2)

/-- Nor does starting one. -/
theorem ignoresKernel_start (fuel : Nat) (t : TimerId) : IgnoresKernel (startTimer fuel · t) := by
  have hremove : IgnoresKernel fun s =>
      if (s.timer t).active then prvTimerRemoveFromActive fuel s t else some s :=
    .ite (fun _ _ => Iff.rfl) (ignoresKernel_remove fuel t) (ignoresKernel_some fun _ _ => rfl)
  exact hremove.bind ((ignoresKernel_insert fuel t).comp fun _ _ => rfl)

/-- Nor does stopping one. -/
theorem ignoresKernel_stop (fuel : Nat) (t : TimerId) : IgnoresKernel (stopTimer fuel · t) :=
  .ite (fun _ _ => Iff.rfl)
    ((ignoresKernel_remove fuel t).bind (ignoresKernel_some fun _ _ => rfl))
    (ignoresKernel_some fun _ _ => rfl)

/-- Nor does resetting one. -/
theorem ignoresKernel_reset (fuel : Nat) (t : TimerId) : IgnoresKernel (resetTimer fuel · t) :=
  .ite (fun _ _ => Iff.rfl)
    ((ignoresKernel_remove fuel t).bind ((ignoresKernel_insert fuel t).comp fun _ _ => rfl))
    (ignoresKernel_some fun _ _ => rfl)

/-- Nor does a new period. -/
theorem ignoresKernel_changePeriod (fuel : Nat) (t : TimerId) (p : BitVec 32) :
    IgnoresKernel (changePeriodTimer fuel · t p) := by
  have hbody : IgnoresKernel fun s => if (s.timer t).active then
      (prvTimerRemoveFromActive fuel s t).bind fun s => prvTimerInsertSorted fuel (s.setRemaining t p) t
      else some s :=
    .ite (fun _ _ => Iff.rfl)
      ((ignoresKernel_remove fuel t).bind ((ignoresKernel_insert fuel t).comp fun _ _ => rfl))
      (ignoresKernel_some fun _ _ => rfl)
  exact hbody.comp fun _ _ => rfl

/-- The timers and the kernel they run on, without the switch request and the interrupt mask. -/
def Timers.settled (s : Timers) : Timers := s.withKernel s.kernel.settled

/-- **The two kinds of critical section** leave the same state. -/
theorem IgnoresKernel.critical {body : Timers → Option Timers} (h : IgnoresKernel body) (s : Timers) :
    (s.inCritical body).map Timers.settled = (s.inPortCritical body).map Timers.settled := by
  have h₁ : s.inCritical body
      = (body s).map fun s' => s'.withKernel (osSchedExitCritical (osSchedEnterCritical s.kernel)) := by
    show (body (s.withKernel (osSchedEnterCritical s.kernel))).map _ = _
    rw [h, Option.map_map]
    rfl
  have h₂ : s.inPortCritical body
      = (body s).map fun s' => s'.withKernel { s.kernel with primask := s.kernel.primask } := by
    show (body (s.withKernel { s.kernel with primask := 1 })).map _ = _
    rw [h, Option.map_map]
    rfl
  rw [h₁, h₂, Option.map_map, Option.map_map]
  rfl

/-! ## Both copies of a call -/

/-- The calls that exist twice, with pointers that may be null; `OS_WAIT_NONE` is the timeout of the task
variants that take one. -/
inductive VariantCall
  /-- `os_queue_send` with timeout 0, and `os_queue_send_from_isr`. -/
  | queueSend (queue : Option Addr) (item : Option Mem)
  /-- `os_queue_receive` with timeout 0, and `os_queue_receive_from_isr`. -/
  | queueReceive (queue : Option Addr) (itemNonNull : Bool)
  /-- `os_queue_overwrite` and `os_queue_overwrite_from_isr`. -/
  | queueOverwrite (queue : Option Addr) (item : Option Mem)
  /-- `os_sem_take` with timeout 0, and `os_sem_take_from_isr`. -/
  | semTake (sem : Option Addr)
  /-- `os_sem_give` and `os_sem_give_from_isr`. -/
  | semGive (sem : Option Addr)
  /-- `os_eventgroup_set_bits` and `os_eventgroup_set_bits_from_isr`. -/
  | eventSet (eg : Option Addr) (bits : BitVec 32)
  /-- `os_eventgroup_clear_bits` and `os_eventgroup_clear_bits_from_isr`. -/
  | eventClear (eg : Option Addr) (bits : BitVec 32)
  /-- `os_task_notify` and `os_task_notify_from_isr`. -/
  | notify (handle : Option TaskId) (value : BitVec 32)
  /-- `os_timer_start` and `os_timer_start_from_isr`. -/
  | timerStart (timer : Option TimerId)
  /-- `os_timer_stop` and `os_timer_stop_from_isr`. -/
  | timerStop (timer : Option TimerId)
  /-- `os_timer_reset` and `os_timer_reset_from_isr`. -/
  | timerReset (timer : Option TimerId)
  /-- `os_timer_change_period` and `os_timer_change_period_from_isr`. -/
  | timerChangePeriod (timer : Option TimerId) (newPeriod : BitVec 32)

/-- What a call returns: the state, the status, and the bytes copied to the caller. -/
abbrev Answer := Timers × Status × Option (List UInt8)

/-- A null pointer is refused before anything else. -/
def nullChecked {α : Type} (s : Timers) (p : Option α) (call : α → Option Answer) : Option Answer :=
  match p with
  | none => some (s, .errParam, none)
  | some a => call a

/-- A call that changes the kernel and answers a status. -/
def Timers.answer (s : Timers) (r : Kernel × Status) : Answer := (s.withKernel r.1, r.2, none)

/-- **The task variant.** -/
def VariantCall.task (fuel : Nat) (s : Timers) : VariantCall → Option Answer
  | .queueSend queue item =>
      nullChecked s queue fun q => nullChecked s item fun item =>
        ((osQueueSend s.kernel q item waitNone).bind (Outcome.returned id)).map s.answer
  | .queueReceive queue itemNonNull =>
      nullChecked s queue fun q => nullChecked s (if itemNonNull then some () else none) fun _ =>
        (osQueueReceive s.kernel q waitNone).bind fun
          | (k, .done (st, bytes)) => some (s.withKernel k, st, bytes)
          | (_, .blocked) => none
  | .queueOverwrite queue item =>
      nullChecked s queue fun q => nullChecked s item fun item =>
        some (s.answer (osQueueOverwrite s.kernel q item))
  | .semTake sem =>
      nullChecked s sem fun a =>
        ((osSemTake s.kernel a waitNone).bind (Outcome.returned id)).map s.answer
  | .semGive sem => nullChecked s sem fun a => (osSemGive s.kernel a).map s.answer
  | .eventSet eg bits => nullChecked s eg fun e => (osEventgroupSetBits s.kernel e bits).map s.answer
  | .eventClear eg bits =>
      nullChecked s eg fun e => some (s.answer (osEventgroupClearBits s.kernel e bits))
  | .notify handle v => nullChecked s handle fun t => (osTaskNotify s.kernel t v).map s.answer
  | .timerStart timer =>
      nullChecked s timer fun t => (osTimerStart fuel s t).map fun s => (s, .ok, none)
  | .timerStop timer =>
      nullChecked s timer fun t => (osTimerStop fuel s t).map fun s => (s, .ok, none)
  | .timerReset timer =>
      nullChecked s timer fun t => (osTimerReset fuel s t).map fun s => (s, .ok, none)
  | .timerChangePeriod timer p =>
      nullChecked s timer fun t => (osTimerChangePeriod fuel s t p).map fun r => (r.2, r.1, none)

/-- **The variant for interrupt handlers.** -/
def VariantCall.isr (fuel : Nat) (s : Timers) : VariantCall → Option Answer
  | .queueSend queue item =>
      nullChecked s queue fun q => nullChecked s item fun item =>
        some (s.answer (osQueueSendFromIsr s.kernel q item))
  | .queueReceive queue itemNonNull =>
      nullChecked s queue fun q => nullChecked s (if itemNonNull then some () else none) fun _ =>
        some (s.withKernel (osQueueReceiveFromIsr s.kernel q).1, (osQueueReceiveFromIsr s.kernel q).2)
  | .queueOverwrite queue item =>
      nullChecked s queue fun q => nullChecked s item fun item =>
        some (s.answer (osQueueOverwriteFromIsr s.kernel q item))
  | .semTake sem => nullChecked s sem fun a => some (s.answer (osSemTakeFromIsr s.kernel a))
  | .semGive sem => nullChecked s sem fun a => some (s.answer (osSemGiveFromIsr s.kernel a))
  | .eventSet eg bits =>
      nullChecked s eg fun e => (osEventgroupSetBitsFromIsr s.kernel e bits).map s.answer
  | .eventClear eg bits =>
      nullChecked s eg fun e => some (s.answer (osEventgroupClearBitsFromIsr s.kernel e bits))
  | .notify handle v => nullChecked s handle fun t => some (s.answer (osTaskNotifyFromIsr s.kernel t v))
  | .timerStart timer =>
      nullChecked s timer fun t => (osTimerStartFromIsr fuel s t).map fun s => (s, .ok, none)
  | .timerStop timer =>
      nullChecked s timer fun t => (osTimerStopFromIsr fuel s t).map fun s => (s, .ok, none)
  | .timerReset timer =>
      nullChecked s timer fun t => (osTimerResetFromIsr fuel s t).map fun s => (s, .ok, none)
  | .timerChangePeriod timer p =>
      nullChecked s timer fun t => (osTimerChangePeriodFromIsr fuel s t p).map fun r => (r.2, r.1, none)

/-- The task that a call names. -/
def VariantCall.target : VariantCall → Option TaskId
  | .notify handle _ => handle
  | _ => none

/-- What a caller sees, and the state up to the switch request. -/
def Answer.settled (r : Answer) : Answer := (Timers.settled r.1, r.2)

/-- Checking for a null pointer does not tell the copies apart. -/
theorem nullChecked_congr {α : Type} {s : Timers} {p : Option α} {f g : α → Option Answer}
    (h : ∀ a ∈ p, (f a).map Answer.settled = (g a).map Answer.settled) :
    (nullChecked s p f).map Answer.settled = (nullChecked s p g).map Answer.settled := by
  cases p with
  | none => rfl
  | some a => exact h a rfl

/-- Answers of kernel calls. -/
theorem settled_answer {s : Timers} {k k' : Kernel} {st : Status} (h : k'.settled = k.settled) :
    Answer.settled (s.answer (k', st)) = Answer.settled (s.answer (k, st)) := by
  unfold Answer.settled Timers.answer Timers.settled Timers.withKernel
  rw [h]

/-- Timer calls in the two kinds of critical section. -/
theorem settled_timerCall {body : Timers → Option Timers} (h : IgnoresKernel body) (s : Timers) :
    ((s.inCritical body).map fun s => ((s, .ok, none) : Answer)).map Answer.settled
      = ((s.inPortCritical body).map fun s => ((s, .ok, none) : Answer)).map Answer.settled := by
  have hcrit := congrArg (Option.map fun s => ((s, .ok, none) : Answer)) (h.critical s)
  rw [Option.map_map, Option.map_map] at hcrit
  rw [Option.map_map, Option.map_map]
  exact hcrit

/-- Where whoever is waited for has a caller, both copies do the same. -/
theorem VariantCall.agrees (fuel : Nat) (s : Timers) (call : VariantCall) (h : s.kernel.Staffed)
    (ht : ∀ t ∈ call.target, t ∈ s.kernel.liveTcbs) :
    (call.task fuel s).map Answer.settled = (call.isr fuel s).map Answer.settled := by
  cases call with
  | queueSend queue item =>
      refine nullChecked_congr fun q _ => nullChecked_congr fun item _ => ?_
      obtain ⟨k', hk', hs⟩ := settled_osQueueSend (q := q) item h
      rw [hk']
      exact congrArg some (settled_answer hs)
  | queueReceive queue itemNonNull =>
      refine nullChecked_congr fun q _ => nullChecked_congr fun _ _ => ?_
      obtain ⟨k', hk', hs⟩ := settled_osQueueReceive q h
      rw [hk']
      refine congrArg some ?_
      unfold Answer.settled Timers.settled Timers.withKernel
      rw [hs]
  | queueOverwrite queue item =>
      refine nullChecked_congr fun q _ => nullChecked_congr fun item _ => ?_
      obtain ⟨hst, hs⟩ := settled_osQueueOverwrite s.kernel q item
      refine congrArg some ?_
      unfold Answer.settled Timers.answer Timers.settled Timers.withKernel
      rw [hs, hst]
  | semTake sem =>
      refine nullChecked_congr fun a _ => ?_
      rw [settled_osSemTake]
      rfl
  | semGive sem =>
      refine nullChecked_congr fun a _ => ?_
      obtain ⟨k', hk', hs⟩ := settled_osSemGive a h
      rw [hk']
      exact congrArg some (settled_answer hs)
  | eventSet eg bits =>
      refine nullChecked_congr fun e _ => ?_
      have hset := settled_osEventgroupSetBits e bits h
      have hans := congrArg (Option.map fun r => ((s.withKernel r.1, r.2, none) : Answer)) hset
      rw [Option.map_map, Option.map_map] at hans
      rw [Option.map_map, Option.map_map]
      exact hans
  | eventClear eg bits => exact nullChecked_congr fun e _ => rfl
  | notify handle v =>
      refine nullChecked_congr fun t hmem => ?_
      obtain ⟨k', hk', hs⟩ := settled_osTaskNotify v h (ht t hmem)
      rw [hk']
      exact congrArg some (settled_answer hs)
  | timerStart timer =>
      exact nullChecked_congr fun t _ => settled_timerCall (ignoresKernel_start fuel t) s
  | timerStop timer =>
      exact nullChecked_congr fun t _ => settled_timerCall (ignoresKernel_stop fuel t) s
  | timerReset timer =>
      exact nullChecked_congr fun t _ => settled_timerCall (ignoresKernel_reset fuel t) s
  | timerChangePeriod timer p =>
      refine nullChecked_congr fun t _ => ?_
      unfold osTimerChangePeriod osTimerChangePeriodFromIsr
      split
      · rfl
      · have hcall := settled_timerCall (ignoresKernel_changePeriod fuel t p) s
        simp only [Option.map_map] at hcall ⊢
        exact hcall

/-! ## Before the first dispatch -/

/-- While there is no current task, no task is BLOCKED. -/
def AwaitsDispatch (s : Sys) : Prop :=
  s.kernel.current = none → ∃ L, TaskListInv s.kernel L ∧
    ∀ t ∈ s.kernel.liveTcbs, (s.kernel.waits.phases t).state ≠ .blocked

/-- Without a current task nobody goes to sleep. -/
theorem Move.not_blocked {p p' : Phase} (h : Move s op t p p') (hc : s.kernel.current = none)
    (hp : p.state ≠ .blocked) : p'.state ≠ .blocked := by
  cases h with
  | stays => exact hp
  | sleeps w n b o hc' => simp [hc] at hc'
  | wakes o hb => exact absurd hb hp
  | delays n hc' => simp [hc] at hc'
  | awaits n hc' => simp [hc] at hc'
  | notified hb => exact absurd hb hp
  | ticks hb => exact absurd hb hp
  | suspends => simp
  | resumes => simp
  | dies hc' => simp [hc] at hc'

/-- A call that needs a caller finds one. -/
theorem Op.Allowed.startup (h : op.Allowed s) (hc : s.kernel.current = none) : WithoutMutexes s op := by
  refine ⟨h, ?_⟩
  have hno : ∀ p, ¬ s.currentIn p := by
    rintro p ⟨-, c, hcur, -⟩
    rw [hc] at hcur
    cases hcur
  cases op with
  | mutexLock m n => exact (hno (· = .idle) h.1).elim
  | mutexUnlock m => exact (hno (· = .idle) h.1).elim
  | _ => rfl

/-- A selection does not take the current task away. -/
theorem current_osSchedSelectNext (h : (osSchedSelectNext k).current = none) : k.current = none := by
  unfold osSchedSelectNext at h
  split at h
  · exact h
  · split at h
    · dsimp only at h
      split at h
      · exact h
      · cases h
    · cases h

/-- A new task is READY or SUSPENDED. -/
theorem not_blocked_of_new (hL : TaskListInv s.kernel L) (hop : WithoutMutexes s op)
    (hs : step s op = some s') (ht : t ∈ s'.kernel.liveTcbs) (hnew : t ∉ s.kernel.liveTcbs) :
    (s'.kernel.waits.phases t).state ≠ .blocked := by
  rcases (step_moves hL hop.1 hs).born t ht with hold | ⟨hun, -⟩
  · exact absurd hold hnew
  · cases op with
    -- a new control block starts ready, or suspended, whatever stood in it before
    | create a =>
        obtain rfl := Option.some.inj hs
        rw [Sys.kernel_created] at ht ⊢
        rcases waits_osTaskCreate s.kernel a with ⟨-, h⟩ | ⟨x, hx, h, -⟩
        · exact absurd (congrArg Waits.live h ▸ ht : t ∈ s.kernel.waits.live) hnew
        · obtain rfl := Option.some.inj (hun.symm.trans hx)
          rw [h, Waits.add]
          simp [Waits.phases_set_self, Phase.new]
    | createSuspended a =>
        obtain rfl := Option.some.inj hs
        rw [Sys.kernel_created] at ht ⊢
        rcases waits_osTaskCreateSuspended s.kernel a with h | ⟨x, st, hx, hst, h⟩
        · exact absurd (congrArg Waits.live h ▸ ht : t ∈ s.kernel.waits.live) hnew
        · obtain rfl := Option.some.inj (hun.symm.trans hx)
          rw [h, Waits.add]
          rcases hst with rfl | rfl <;> simp [Waits.phases_set_self]
    | scribble x v nx pv =>
        obtain rfl := Option.some.inj hs
        exact absurd ht hnew
    | _ => cases hun

/-- **One step**, before or after the first dispatch. -/
theorem AwaitsDispatch.step (h : AwaitsDispatch s) (hop : op.Allowed s)
    (hs : MiniRTOS.step s op = some s') : AwaitsDispatch s' := by
  intro hc'
  -- a current task stays until another one is selected
  have hc : s.kernel.current = none := by
    by_cases hsel : op = .selectNext
    · subst hsel
      obtain rfl := Option.some.inj hs
      exact current_osSchedSelectNext hc'
    · rw [← (step_context hop hsel hs).current]
      exact hc'
  obtain ⟨L, hL, hno⟩ := h hc
  have hwm := hop.startup hc
  obtain ⟨L', hL'⟩ := taskListInv_of_step hL hwm hs
  refine ⟨L', hL', fun t ht => ?_⟩
  by_cases hold : t ∈ s.kernel.liveTcbs
  · exact ((step_moves hL hwm.1 hs).moves t hold).not_blocked hc (hno t hold)
  · exact not_blocked_of_new hL hwm hs ht hold

/-- Then whoever is waited for has a caller. -/
theorem AwaitsDispatch.staffed (h : AwaitsDispatch s) : s.kernel.Staffed := by
  refine ⟨fun w hw => ?_, fun t ht hb => ?_⟩
  · cases hc : s.kernel.current with
    | some c => exact ⟨c, rfl⟩
    | none =>
        -- with no current task nobody has run, so nobody is blocked and no wait list has a head
        obtain ⟨L, hL, hno⟩ := h hc
        have hhead := hL.lists.head (.wait w)
        cases hl : L (.wait w) with
        | nil =>
            rw [hl] at hhead
            exact absurd hhead hw
        | cons x l =>
            have hx : x ∈ L (.wait w) := by simp [hl]
            have hlive := hL.live _ x hx
            have hfit := (hL.placed x hlive _).mp hx
            exact absurd ((Tcb.phase_state_eq (by simp) (by simp)).mpr hfit.1) (hno x hlive)
  · cases hc : s.kernel.current with
    | some c => exact ⟨c, rfl⟩
    | none =>
        obtain ⟨L, hL, hno⟩ := h hc
        exact absurd ((Tcb.phase_state_eq (by simp) (by simp)).mpr hb) (hno t ht)

/-! ## Reachable states -/

/-- What can happen: a step of the system, or, once a task has been dispatched, anything else in the
kernel (another priority, a deletion of another task, a call of this module). -/
inductive AnyOp
  /-- A step of the system. -/
  | op (o : Op)
  /-- Anything else in the kernel. -/
  | other (k : Kernel)

/-- **One step.** -/
def anyStep (s : Sys) : AnyOp → Option Sys
  | .op o => step s o
  | .other k => some (s.onIsr k)

/-- Nothing takes the current task away. -/
def AnyOp.Allowed (s : Sys) : AnyOp → Prop
  | .op o => o.Allowed s
  | .other k => s.kernel.current.isSome = true ∧ k.current.isSome = true

/-- Whether a step is allowed can be decided. -/
instance AnyOp.decidableAllowed (s : Sys) : (op : AnyOp) → Decidable (op.Allowed s)
  | .op o => inferInstanceAs (Decidable (o.Allowed s))
  | .other _ => inferInstanceAs (Decidable (_ ∧ _))

/-- **ISR variants.** In every state that a run reaches from start-up, for all arguments and whatever
the timers look like, the variant for interrupt handlers returns the same status and the same bytes as
the variant for tasks, and leaves the same objects, lists, control blocks and timers; only the switch
request and the interrupt mask can differ. -/
theorem isrVariant_agrees {ops : List AnyOp} (h₀ : s₀.Init)
    (hr : Run (fun s op => AnyOp.Allowed s op) anyStep s₀ ops s) (fuel : Nat) (tm : Timers)
    (htm : tm.kernel = s.kernel) (call : VariantCall)
    (ht : ∀ t ∈ call.target, t ∈ s.kernel.liveTcbs) :
    (call.task fuel tm).map Answer.settled = (call.isr fuel tm).map Answer.settled := by
  have hinit : AwaitsDispatch s₀ := fun _ =>
    ⟨_, h₀.taskListInv, fun t ht => by simp [h₀.live] at ht⟩
  have hinv := hr.invariant AwaitsDispatch
    (fun s op s' h hop hs => by
      cases op with
      | op o => exact h.step hop hs
      | other k =>
          obtain rfl := Option.some.inj hs
          intro hc
          have hsome := hop.2
          rw [show k.current = none from hc] at hsome
          cases hsome) hinit
  exact call.agrees fuel tm (htm ▸ hinv.staffed) (htm ▸ ht)

/-- A task of priority 2 waits for a semaphore, and one of priority 5 runs. -/
def waiterTrace : List AnyOp :=
  [.op (.create (taskAt 0x100 2)), .op (.create (taskAt 0x200 5)),
    .op (.semCreateCounting 0x10 1 0), .op .selectNext, .op (.semTake 0x10 waitForever),
    .op .selectNext]

/-- A give to a waiter ends in the same state from a task and from an interrupt. -/
theorem isrVariant_agrees_waiterTrace : ∃ s,
    Run (fun s op => AnyOp.Allowed s op) anyStep .boot waiterTrace s ∧
      s.kernel.waitHead (.sem 0x10) = some 0x100 ∧
      ((VariantCall.semGive (some 0x10)).task 0 (TimerSys.zero.timers.withKernel s.kernel)).map
          Answer.settled
        = ((VariantCall.semGive (some 0x10)).isr 0 (TimerSys.zero.timers.withKernel s.kernel)).map
          Answer.settled := by
  obtain ⟨s, hr, hw⟩ := exists_run_of_exec (fun s op => AnyOp.Allowed s op) anyStep Sys.boot waiterTrace
    (fun s => s.kernel.waitHead (.sem 0x10) = some 0x100) (by decide +kernel)
  exact ⟨s, hr, hw, isrVariant_agrees Sys.boot_init hr 0 _ rfl _ (by simp [VariantCall.target])⟩

end MiniRTOS
