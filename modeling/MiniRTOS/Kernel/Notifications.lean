import MiniRTOS.Kernel.Notify
import MiniRTOS.Kernel.Frames
import MiniRTOS.Kernel.System

/-! # No lost notification

A task has one notification value and one pending flag. `os_task_notify_wait` takes both inside a
critical section when a notification is pending; a task that had to wait takes them afterwards, in
separate statements and with interrupts enabled. Here these statements are steps, and a notification
can come between any two of them.

* **`NotifyLog`** — what was sent, and what became of it.
* **`Accounted`** — returned, overwritten, discarded, or still held.
* **`NotifyOp.Clobbers`** — a notification between the read of the value and the clearing of the flag.
* **`notifications_accounted`** — without it no notification is lost, and no task sleeps in
  `os_task_notify_wait` while one is pending. -/

namespace MiniRTOS

open Runs

variable {k k' : Kernel} {t : TaskId}

/-! ## The statements -/

/-- `os_task_notify_clear` of a non-null handle. -/
def osTaskNotifyClear (k : Kernel) (t : TaskId) : Kernel :=
  let k₁ := osSchedEnterCritical k
  osSchedExitCritical (k₁.setTcb t { k₁.tcb t with notifyPending := false, notifyValue := 0 })

/-- The critical section of `os_task_notify_wait`, called by `t`. -/
def notifyWaitCritical (k : Kernel) (t : TaskId) (timeout : Nat) :
    Kernel × Outcome (Status × Option (BitVec 32)) :=
  let k₁ := osSchedEnterCritical k
  if (k₁.tcb t).notifyPending then
    let (k₂, v) := takeNotification k₁ t
    (osSchedExitCritical k₂, .done (.ok, some v))
  else if timeout = waitNone then (osSchedExitCritical k₁, .done (.errTimeout, none))
  else
    let k₂ := k₁.setTcb t { k₁.tcb t with blockedReason := .onNotify, timedOut := false }
    (osSchedExitCritical (osTaskAddToBlocked k₂ t (if timeout = waitForever then 0 else timeout)),
      .blocked)

/-- The yield after the critical section. -/
def yieldBlocked {α : Type} : Kernel × Outcome α → Kernel × Outcome α
  | (k, .done r) => (k, .done r)
  | (k, .blocked) => (osSchedYield k, .blocked)

/-- **`os_task_notify_wait` up to its suspension** is the critical section and the yield. -/
theorem osTaskNotifyWait_eq_critical (hc : k.current = some t) (timeout : Nat) :
    osTaskNotifyWait k timeout = some (yieldBlocked (notifyWaitCritical k t timeout)) := by
  unfold osTaskNotifyWait notifyWaitCritical
  rw [hc]
  dsimp only [Option.bind_eq_bind, Option.bind_some]
  split
  · rfl
  · split <;> rfl

/-- A notification in the hand of `os_task_notify_wait`: its number, and the value stored through
`value_out` unless that is null. -/
structure Taken where
  /-- Which notification; `none` when the flag was not set any more. -/
  serial : Option Nat
  /-- The value. -/
  value : Option (BitVec 32)
  deriving DecidableEq, Repr

/-- The statement of `os_task_notify_wait` that the task executes next, outside the critical section;
`out` says whether `value_out` is non-null. -/
inductive NotifyPc
  /-- Outside of `os_task_notify_wait`. -/
  | idle
  /-- Before the yield. -/
  | yield (out : Bool)
  /-- Before `os_task_get_current`. -/
  | getCurrent (out : Bool)
  /-- Before the test of the flag. -/
  | test (out : Bool)
  /-- Before the read of the value. -/
  | read (out : Bool)
  /-- Before the write that clears the flag. -/
  | clear (x : Option Taken)
  /-- Before the return. -/
  | ret (x : Taken)
  /-- Before the return of a wait that found no notification. -/
  | timeout
  deriving DecidableEq, Repr

/-- What was sent to the task, numbered from 0, and what became of it. -/
structure NotifyLog where
  /-- The values, oldest first. -/
  sent : List (BitVec 32)
  /-- Replaced by a later one while pending. -/
  overwritten : List Nat
  /-- Cleared by `os_task_notify_clear` while pending. -/
  discarded : List Nat
  /-- Taken by a call of `os_task_notify_wait` that has returned `OS_OK`. -/
  returned : List Taken
  deriving DecidableEq, Repr

/-- The kernel, the task that waits, and the log. -/
structure NotifySys where
  /-- The kernel. -/
  kernel : Kernel
  /-- Where the task is. -/
  pc : NotifyPc
  /-- The notifications so far. -/
  log : NotifyLog

/-- The notification that the control block holds: the latest one, while the flag is set. -/
def NotifySys.held (s : NotifySys) (t : TaskId) : Option Nat :=
  if (s.kernel.tcb t).notifyPending then some (s.log.sent.length - 1) else none

/-- A new notification. -/
def NotifyLog.send (l : NotifyLog) (held : Option Nat) (v : BitVec 32) : NotifyLog :=
  { l with sent := l.sent ++ [v], overwritten := held.toList ++ l.overwritten }

/-- `os_task_notify_clear`. -/
def NotifyLog.discard (l : NotifyLog) (held : Option Nat) : NotifyLog :=
  { l with discarded := held.toList ++ l.discarded }

/-- A wait has returned `OS_OK`. -/
def NotifyLog.ret (l : NotifyLog) (x : Taken) : NotifyLog := { l with returned := x :: l.returned }

/-- What can happen: the task calls `os_task_notify_wait`, or executes the next statement of it; a
notification, a clear, a tick, a context selection; or anything else that the system does. -/
inductive NotifyOp
  /-- The task calls `os_task_notify_wait`, with or without a place for the value. -/
  | wait (timeout : Nat) (out : Bool)
  /-- The task goes on by one statement. -/
  | next
  /-- `os_task_notify_from_isr` to the task. -/
  | notifyFromIsr (value : BitVec 32)
  /-- `os_task_notify` to the task. -/
  | notify (value : BitVec 32)
  /-- `os_task_notify_clear` by the task. -/
  | notifyClear
  /-- `os_task_tick`. -/
  | tick
  /-- `os_sched_select_next`. -/
  | selectNext
  /-- Anything else. -/
  | other (k : Kernel)

/-- The next statement of `os_task_notify_wait`. -/
def nextStatement (t : TaskId) (s : NotifySys) : Option NotifySys :=
  match s.pc with
  | .idle => none
  | .yield out => some { s with kernel := osSchedYield s.kernel, pc := .getCurrent out }
  | .getCurrent out => some { s with pc := .test out }
  | .test out => some { s with pc := if (s.kernel.tcb t).notifyPending then .read out else .timeout }
  | .read out =>
      some { s with
        pc := .clear (if out then some ⟨s.held t, some (s.kernel.tcb t).notifyValue⟩ else none) }
  | .clear x =>
      some { s with
        kernel := s.kernel.setTcb t { s.kernel.tcb t with notifyPending := false }
        pc := .ret (x.getD ⟨s.held t, none⟩) }
  | .ret x => some { s with pc := .idle, log := s.log.ret x }
  | .timeout => some { s with pc := .idle }

/-- A call of `os_task_notify_wait`: its critical section, and the return when it does not block. -/
def callWait (t : TaskId) (s : NotifySys) (timeout : Nat) (out : Bool) : Option NotifySys :=
  if s.pc = .idle then
    match notifyWaitCritical s.kernel t timeout with
    | (k, .done (.ok, v)) =>
        some { s with kernel := k, log := s.log.ret ⟨s.held t, if out then v else none⟩ }
    | (k, .done _) => some { s with kernel := k }
    | (k, .blocked) => some { s with kernel := k, pc := .yield out }
  else none

/-- **One step**, as seen from the task `t`. -/
def notifyStep (t : TaskId) (s : NotifySys) : NotifyOp → Option NotifySys
  | .wait timeout out => callWait t s timeout out
  | .next => nextStatement t s
  | .notifyFromIsr v =>
      some { s with
        kernel := (osTaskNotifyFromIsr s.kernel t v).1, log := s.log.send (s.held t) v }
  | .notify v =>
      (osTaskNotify s.kernel t v).map fun r =>
        { s with kernel := r.1, log := s.log.send (s.held t) v }
  | .notifyClear =>
      some { s with kernel := osTaskNotifyClear s.kernel t, log := s.log.discard (s.held t) }
  | .tick => (osTaskTick s.kernel).map fun k => { s with kernel := k }
  | .selectNext => some { s with kernel := osSchedSelectNext s.kernel }
  | .other k => some { s with kernel := k }

/-- **The statements after the yield**, when nothing comes between them, are the end of
`os_task_notify_wait`. -/
theorem exec_nextStatement (s : NotifySys) (hpc : s.pc = .getCurrent true) :
    ∃ n s', exec (fun _ _ => True) (fun s (_ : Unit) => nextStatement t s) s (List.replicate n ())
        = some s' ∧
      s'.pc = .idle ∧ s'.kernel = (osTaskNotifyWaitResume s.kernel t).1 ∧
      s'.log = (osTaskNotifyWaitResume s.kernel t).2.2.elim s.log
        fun v => s.log.ret ⟨s.held t, some v⟩ := by
  by_cases hp : (s.kernel.tcb t).notifyPending = true
  · refine ⟨5, ?_⟩
    simp [List.replicate_succ, exec, nextStatement, hpc, hp, osTaskNotifyWaitResume, takeNotification,
      NotifySys.held]
  · refine ⟨3, ?_⟩
    simp [List.replicate_succ, exec, nextStatement, hpc, hp, osTaskNotifyWaitResume]

/-! ## Who may do what -/

/-- The notification of `t` is left alone. -/
structure SameNotification (t : TaskId) (k k' : Kernel) : Prop where
  /-- The flag. -/
  pending : (k'.tcb t).notifyPending = (k.tcb t).notifyPending
  /-- The value. -/
  value : (k'.tcb t).notifyValue = (k.tcb t).notifyValue

/-- Nobody puts `t` to sleep: if it is BLOCKED it was, for the same reason. -/
def NotPutToSleep (t : TaskId) (k k' : Kernel) : Prop :=
  (k'.tcb t).state = .blocked →
    (k.tcb t).state = .blocked ∧ (k'.tcb t).blockedReason = (k.tcb t).blockedReason

/-- The task has read the value and is about to clear the flag. -/
def NotifyPc.hasRead : NotifyPc → Bool
  | .clear (some _) => true
  | _ => false

/-- The step is a notification. -/
def NotifyOp.notifies : NotifyOp → Bool
  | .notifyFromIsr _ | .notify _ => true
  | _ => false

/-- **The discipline of the environment**: the task executes statements when it is current, and after
the yield only when it is not BLOCKED; the rest of the system leaves its notification alone and does not
put it to sleep while it is in `os_task_notify_wait`. -/
def NotifyOp.Allowed (t : TaskId) (s : NotifySys) : NotifyOp → Prop
  | .wait _ _ => s.kernel.current = some t
  | .next => s.kernel.current = some t ∧ ((s.kernel.tcb t).state = .blocked → ∃ out, s.pc = .yield out)
  | .other k => SameNotification t s.kernel k ∧ (s.pc ≠ .idle → NotPutToSleep t s.kernel k)
  | .notifyFromIsr _ | .notify _ | .notifyClear | .tick | .selectNext => True

/-- **A notification comes between the two statements** that read the value and clear the flag. -/
def NotifyOp.Clobbers (s : NotifySys) (op : NotifyOp) : Prop :=
  s.pc.hasRead = true ∧ op.notifies = true

/-- Whether two states agree on a notification can be decided. -/
instance SameNotification.decidable (t : TaskId) (k k' : Kernel) : Decidable (SameNotification t k k') :=
  decidable_of_iff ((k'.tcb t).notifyPending = (k.tcb t).notifyPending ∧
    (k'.tcb t).notifyValue = (k.tcb t).notifyValue) ⟨fun h => ⟨h.1, h.2⟩, fun h => ⟨h.pending, h.value⟩⟩

/-- Whether a step is allowed can be decided. -/
instance NotifyOp.decidableAllowed (t : TaskId) (s : NotifySys) :
    (op : NotifyOp) → Decidable (op.Allowed t s)
  | .wait _ _ => inferInstanceAs (Decidable (_ = _))
  | .next => inferInstanceAs (Decidable (_ ∧ (_ → ∃ out, s.pc = .yield out)))
  | .other k => inferInstanceAs (Decidable (_ ∧ (_ → (k.tcb t).state = .blocked → _ ∧ _)))
  | .notifyFromIsr _ | .notify _ | .notifyClear | .tick | .selectNext =>
      inferInstanceAs (Decidable True)

/-- Whether a notification comes between the two statements can be decided. -/
instance NotifyOp.decidableClobbers (s : NotifySys) (op : NotifyOp) : Decidable (op.Clobbers s) :=
  inferInstanceAs (Decidable (_ ∧ _))

/-! ## What the calls do to the control block -/

/-- Storing a notification, and waking a task that waits for it. -/
theorem tcb_notifyTask (k : Kernel) (t : TaskId) (v : BitVec 32) :
    (notifyTask k t v).2.tcb t
      = if (k.tcb t).state = .blocked ∧ (k.tcb t).blockedReason = .onNotify then
          { k.tcb t with
            notifyValue := v, notifyPending := true, blockedReason := .none, delayTicks := 0,
            timedOut := false, state := .ready }
        else { k.tcb t with notifyValue := v, notifyPending := true } := by
  unfold notifyTask
  simp only [Kernel.setTcb, Function.update_self]
  split
  · simp [osTaskAddToReady, osTaskRemoveFromBlocked]
  · simp

/-- The critical section around it does not matter. -/
theorem tcb_notifyTask_critical (k : Kernel) (t : TaskId) (v : BitVec 32) :
    (notifyTask (osSchedEnterCritical k) t v).2.tcb t = (notifyTask k t v).2.tcb t := by
  rw [tcb_notifyTask, tcb_notifyTask]
  rfl

/-- `os_task_notify_from_isr` does no more to the control block. -/
theorem tcb_osTaskNotifyFromIsr (k : Kernel) (t : TaskId) (v : BitVec 32) :
    (osTaskNotifyFromIsr k t v).1.tcb t = (notifyTask k t v).2.tcb t := by
  rw [← tcb_notifyTask_critical]
  show (if (notifyTask (osSchedEnterCritical k) t v).1 then
    osSchedRequestSwitchFromIsr (notifyTask (osSchedEnterCritical k) t v).2
    else (notifyTask (osSchedEnterCritical k) t v).2).tcb t = _
  split <;> rfl

/-- `os_task_notify` does no more either. -/
theorem tcb_osTaskNotify {v : BitVec 32} {r : Kernel × Status} (h : osTaskNotify k t v = some r) :
    r.1.tcb t = (notifyTask k t v).2.tcb t := by
  rw [← tcb_notifyTask_critical]
  unfold osTaskNotify at h
  dsimp only at h
  split at h
  · obtain ⟨c, -, h⟩ := Option.bind_eq_some_iff.mp h
    obtain rfl := Option.some.inj h
    dsimp only
    split <;> rfl
  · obtain rfl := Option.some.inj h
    rfl

/-- After a notification the flag is set and the value stored; a task that waits for it is not BLOCKED
any more. -/
theorem notifyTask_spec (k : Kernel) (t : TaskId) (v : BitVec 32) :
    ((notifyTask k t v).2.tcb t).notifyPending = true ∧ ((notifyTask k t v).2.tcb t).notifyValue = v ∧
      (((notifyTask k t v).2.tcb t).state = .blocked →
        (k.tcb t).state = .blocked ∧ (k.tcb t).blockedReason ≠ .onNotify) := by
  rw [tcb_notifyTask]
  split
  · simp
  · next h => exact ⟨rfl, rfl, fun hb => ⟨hb, fun hr => h ⟨hb, hr⟩⟩⟩

/-- **The critical section of `os_task_notify_wait`** takes a pending notification, gives up, or puts the
task to sleep. -/
theorem notifyWaitCritical_cases (k : Kernel) (t : TaskId) (timeout : Nat) :
    (∃ k', notifyWaitCritical k t timeout = (k', .done (.ok, some (k.tcb t).notifyValue)) ∧
      k'.tcb t = { k.tcb t with notifyPending := false }) ∨
    (∃ k', notifyWaitCritical k t timeout = (k', .done (.errTimeout, none)) ∧ k'.tcb t = k.tcb t) ∨
    ∃ k', notifyWaitCritical k t timeout = (k', .blocked) ∧
      (k'.tcb t).notifyPending = (k.tcb t).notifyPending ∧
      (k'.tcb t).notifyValue = (k.tcb t).notifyValue ∧ (k'.tcb t).blockedReason = .onNotify ∧
      (k'.tcb t).notifyPending = false := by
  have henter : (osSchedEnterCritical k).tcb = k.tcb := rfl
  unfold notifyWaitCritical
  dsimp only [takeNotification]
  rw [henter]
  by_cases hp : (k.tcb t).notifyPending = true
  · exact .inl ⟨_, if_pos hp, Function.update_self ..⟩
  · rw [if_neg hp]
    split
    · exact .inr (.inl ⟨_, rfl, rfl⟩)
    · refine .inr (.inr ⟨_, rfl, ?_⟩)
      have hblocked : ∀ (k : Kernel) (n : Nat), (osTaskAddToBlocked k t n).tcb t
          = { k.tcb t with state := .blocked, delayTicks := n } := fun k n => Function.update_self ..
      have hset : ∀ v, ((osSchedEnterCritical k).setTcb t v).tcb t = v := fun v =>
        Function.update_self ..
      show ((osTaskAddToBlocked _ t _).tcb t).notifyPending = _ ∧
        ((osTaskAddToBlocked _ t _).tcb t).notifyValue = _ ∧
        ((osTaskAddToBlocked _ t _).tcb t).blockedReason = _ ∧
        ((osTaskAddToBlocked _ t _).tcb t).notifyPending = _
      rw [hblocked, hset]
      exact ⟨rfl, rfl, rfl, Bool.eq_false_iff.mpr hp⟩

/-- Something happens elsewhere. -/
structure Elsewhere (t : TaskId) (k k' : Kernel) : Prop extends SameNotification t k k' where
  /-- The task is not put to sleep. -/
  awake : NotPutToSleep t k k'

namespace Elsewhere

variable {k₁ k₂ k₃ : Kernel} {x : TaskId}

/-- What leaves the control block alone happens elsewhere. -/
theorem of_tcb (h : k'.tcb t = k.tcb t) : Elsewhere t k k' :=
  ⟨⟨by rw [h], by rw [h]⟩, fun hb => ⟨h ▸ hb, by rw [h]⟩⟩

/-- Two things that happen elsewhere. -/
theorem trans (h₁ : Elsewhere t k₁ k₂) (h₂ : Elsewhere t k₂ k₃) : Elsewhere t k₁ k₃ := by
  refine ⟨⟨h₂.pending.trans h₁.pending, h₂.value.trans h₁.value⟩, fun hb => ?_⟩
  obtain ⟨hb₂, hr₂⟩ := h₂.awake hb
  obtain ⟨hb₁, hr₁⟩ := h₁.awake hb₂
  exact ⟨hb₁, hr₂.trans hr₁⟩

/-- Writing a control block without its notification, its state and its reason. -/
theorem setTcb {v : Tcb} (hp : v.notifyPending = (k.tcb x).notifyPending)
    (hv : v.notifyValue = (k.tcb x).notifyValue) (hs : v.state = (k.tcb x).state)
    (hr : v.blockedReason = (k.tcb x).blockedReason) : Elsewhere t k (k.setTcb x v) := by
  by_cases hx : t = x
  · subst hx
    have htcb : (k.setTcb t v).tcb t = v := Function.update_self ..
    exact ⟨⟨by rw [htcb, hp], by rw [htcb, hv]⟩, fun hb => ⟨hs ▸ htcb ▸ hb, by rw [htcb, hr]⟩⟩
  · exact of_tcb (Function.update_of_ne hx ..)

/-- A task becomes READY or RUNNING: its control block is the old one, but for what is written when it
is woken. -/
theorem wake (hother : t ≠ x → k'.tcb t = k.tcb t)
    (hp : (k'.tcb x).notifyPending = (k.tcb x).notifyPending)
    (hv : (k'.tcb x).notifyValue = (k.tcb x).notifyValue) (hs : (k'.tcb x).state ≠ .blocked) :
    Elsewhere t k k' := by
  by_cases hx : t = x
  · subst hx
    exact ⟨⟨hp, hv⟩, fun hb => absurd hb hs⟩
  · exact of_tcb (hother hx)

/-- One task of `blocked_list` in a tick. -/
theorem tickTask (k : Kernel) (t x : TaskId) : Elsewhere t k (MiniRTOS.tickTask k x) := by
  unfold MiniRTOS.tickTask
  split
  · dsimp only
    split
    · -- the delay is over: the task is READY, whatever it waited for
      have hstate : ∀ k : Kernel, ((osTaskAddToReady k x).tcb x).state ≠ .blocked := by
        intro k
        show (Function.update k.tcb x _ x).state ≠ .blocked
        rw [Function.update_self]
        simp
      refine wake (x := x) (fun hx => ?_) ?_ ?_ (hstate _)
      all_goals
        simp only [osTaskAddToReady, Function.update_self]
        split <;> simp [osTaskRemoveFromBlocked, Kernel.setTcb, *]
    · exact setTcb rfl rfl rfl rfl
  · exact of_tcb rfl

/-- The walk of the tick. -/
theorem tickWalk {fuel : Nat} {i : Option TaskId} (h : MiniRTOS.tickWalk fuel k i = some k') :
    Elsewhere t k k' := by
  induction fuel generalizing k i with
  | zero =>
      cases i with
      | none => exact of_tcb (congrArg (fun k => Kernel.tcb k t) (Option.some.inj h).symm)
      | some x => cases h
  | succ fuel ih =>
      cases i with
      | none => exact of_tcb (congrArg (fun k => Kernel.tcb k t) (Option.some.inj h).symm)
      | some x => exact (tickTask k t x).trans (ih h)

/-- The deferred deletions write no control block. -/
theorem freeDeferred {fuel : Nat} {i : Option TaskId} (h : MiniRTOS.freeDeferred fuel k i = some k') :
    k'.tcb = k.tcb := by
  induction fuel generalizing k i with
  | zero =>
      cases i with
      | none => rw [Option.some.inj h]
      | some x => cases h
  | succ fuel ih =>
      cases i with
      | none => rw [Option.some.inj h]
      | some x =>
          rw [MiniRTOS.freeDeferred] at h
          refine (ih h).trans ?_
          split <;> rfl

/-- **The tick.** -/
theorem osTaskTick (h : MiniRTOS.osTaskTick k = some k') : Elsewhere t k k' := by
  obtain ⟨k₁, k₂, h₁, hmark, h⟩ := osTaskTick_stages h
  have hhigh : Elsewhere t k₁ k₂ := by
    rcases hmark with rfl | ⟨c, n, rfl⟩
    · exact of_tcb rfl
    · exact setTcb rfl rfl rfl rfl
  have hfree := freeDeferred (show MiniRTOS.freeDeferred maxTasks _ _ = some k' from h)
  exact ((tickWalk h₁).trans hhigh).trans (of_tcb (congrFun hfree t))

/-- The outgoing task is charged and the incoming one is RUNNING. -/
theorem switchTo (k : Kernel) (n : TaskId) : Elsewhere t k (MiniRTOS.switchTo k n) := by
  have hcharge : Elsewhere t k { k with tcb := chargeCurrent k } := by
    unfold chargeCurrent
    split
    · exact of_tcb rfl
    · next c hc =>
        split
        · exact wake (x := c) (fun hx => Function.update_of_ne hx ..) (by simp) (by simp) (by simp)
        · exact of_tcb rfl
  refine hcharge.trans (wake (x := n) (fun hx => Function.update_of_ne hx ..) ?_ ?_ ?_)
  · show (Function.update (chargeCurrent k) n _ n).notifyPending = _
    rw [Function.update_self]
  · show (Function.update (chargeCurrent k) n _ n).notifyValue = _
    rw [Function.update_self]
  · show (Function.update (chargeCurrent k) n _ n).state ≠ .blocked
    rw [Function.update_self]
    simp

/-- **A context selection.** -/
theorem osSchedSelectNext (k : Kernel) : Elsewhere t k (MiniRTOS.osSchedSelectNext k) := by
  have htail : ∀ n, Elsewhere t k (osTaskAddToReady (osTaskRemoveFromReady k n) n) := fun n =>
    wake (x := n) (fun hx => Function.update_of_ne hx ..) (by simp [osTaskAddToReady, osTaskRemoveFromReady])
      (by simp [osTaskAddToReady, osTaskRemoveFromReady]) (by simp [osTaskAddToReady])
  unfold MiniRTOS.osSchedSelectNext
  split
  · exact of_tcb rfl
  · split
    · dsimp only
      split
      · exact htail _
      · exact (htail _).trans (switchTo ..)
    · exact switchTo ..

end Elsewhere

/-! ## Accounting -/

/-- The notification that the call is about to return with `OS_OK`. -/
def NotifyPc.hand : NotifyPc → Option Nat
  | .ret x => x.serial
  | _ => none

/-- **What became of notification `i`**: it was returned by a call of `os_task_notify_wait`, overwritten
or discarded; or the control block still holds it with the flag set; or a call has just taken it and
returns it next. -/
def Accounted (t : TaskId) (s : NotifySys) (i : Nat) : Prop :=
  (∃ x ∈ s.log.returned, x.serial = some i) ∨ i ∈ s.log.overwritten ∨ i ∈ s.log.discarded ∨
    s.held t = some i ∨ s.pc.hand = some i

/-- The books only grow, so of what is accounted for only the notification that was held or in hand
has to be found again. -/
theorem Accounted.mono {s s' : NotifySys} {i : Nat} (h : Accounted t s i)
    (hr : s.log.returned ⊆ s'.log.returned) (ho : s.log.overwritten ⊆ s'.log.overwritten)
    (hd : s.log.discarded ⊆ s'.log.discarded) (hheld : s.held t = some i → Accounted t s' i)
    (hhand : s.pc.hand = some i → Accounted t s' i) : Accounted t s' i := by
  rcases h with ⟨x, hx, hi⟩ | h | h | h | h
  · exact .inl ⟨x, hr hx, hi⟩
  · exact .inr (.inl (ho h))
  · exact .inr (.inr (.inl (hd h)))
  · exact hheld h
  · exact hhand h

/-- The value of a notification is the one that was sent. -/
def NotifyLog.Genuine (l : NotifyLog) (x : Taken) : Prop :=
  ∀ i, x.serial = some i → ∀ v, x.value = some v → l.sent[i]? = some v

/-- Numbers stay valid when more is sent. -/
theorem NotifyLog.Genuine.send {l : NotifyLog} {x : Taken} (h : l.Genuine x)
    (held : Option Nat) (v : BitVec 32) : (l.send held v).Genuine x := by
  intro i hi u hu
  have := h i hi u hu
  obtain ⟨hlt, -⟩ := List.getElem?_eq_some_iff.mp this
  exact (List.getElem?_append_left hlt).trans this

/-- **The invariant.** -/
structure NotifyInv (t : TaskId) (s : NotifySys) : Prop where
  /-- Every notification is accounted for. -/
  accounted : ∀ i < s.log.sent.length, Accounted t s i
  /-- The control block holds the value of the latest one. -/
  value : (s.kernel.tcb t).notifyPending = true →
    s.log.sent.getLast? = some (s.kernel.tcb t).notifyValue
  /-- The values that were returned are those that were sent. -/
  returned : ∀ x ∈ s.log.returned, s.log.Genuine x
  /-- Between read and clear the call has in hand what the control block holds. -/
  hasRead : ∀ x, s.pc = .clear (some x) → s.log.Genuine x ∧
    ((s.kernel.tcb t).notifyPending = true → x.serial = s.held t)
  /-- So it has when it returns. -/
  ret : ∀ x, s.pc = .ret x → s.log.Genuine x
  /-- A task that sleeps in the call has no notification pending. -/
  asleep : s.pc ≠ .idle → (s.kernel.tcb t).state = .blocked →
    (s.kernel.tcb t).blockedReason = .onNotify ∧ (s.kernel.tcb t).notifyPending = false

namespace NotifyInv

variable {s : NotifySys}

/-- The number of what the control block holds is the last one. -/
theorem genuine_held (h : NotifyInv t s) {o : Option (BitVec 32)}
    (ho : ∀ v, o = some v → v = (s.kernel.tcb t).notifyValue) : s.log.Genuine ⟨s.held t, o⟩ := by
  intro i hi v hv
  obtain rfl := ho v hv
  dsimp only at hi
  rw [NotifySys.held] at hi
  split at hi
  · next hp =>
      obtain rfl := Option.some.inj hi
      rw [← List.getLast?_eq_getElem?]
      exact h.value hp
  · cases hi

/-- **A notification.** -/
theorem notified (h : NotifyInv t s) (hpc : s.pc.hasRead = false) {v : BitVec 32}
    (htcb : k'.tcb t = (notifyTask s.kernel t v).2.tcb t) :
    NotifyInv t { s with kernel := k', log := s.log.send (s.held t) v } := by
  obtain ⟨hp, hv, hb⟩ := notifyTask_spec s.kernel t v
  rw [← htcb] at hp hv hb
  refine ⟨fun i hi => ?_, fun _ => ?_, fun x hx => ?_, fun x hx => ?_, fun x hx => ?_, fun hpc hb' => ?_⟩
  · simp only [NotifyLog.send, List.length_append, List.length_singleton] at hi
    by_cases hlast : i = s.log.sent.length
    · right; right; right; left
      simp [NotifySys.held, hp, NotifyLog.send, hlast]
    · refine (h.accounted i (by omega)).mono (List.Subset.refl _) (List.subset_append_right _ _)
        (List.Subset.refl _) (fun hh => ?_) fun hhand => ?_
      · -- the one that the control block held is overwritten now
        exact .inr (.inl (List.mem_append_left _ (by simp [hh])))
      · exact .inr (.inr (.inr (.inr hhand)))
  · simp [NotifyLog.send, hv]
  · exact (h.returned x hx).send _ _
  · have hpc' : s.pc = .clear (some x) := hx
    rw [hpc'] at hpc
    cases hpc
  · exact (h.ret x hx).send _ _
  · obtain ⟨hblocked, hne⟩ := hb hb'
    exact absurd (h.asleep hpc hblocked).1 hne

/-- Something happens elsewhere. -/
theorem elsewhere (h : NotifyInv t s) (he : SameNotification t s.kernel k')
    (ha : s.pc ≠ .idle → NotPutToSleep t s.kernel k') : NotifyInv t { s with kernel := k' } := by
  have hheld : ({ s with kernel := k' } : NotifySys).held t = s.held t := by
    simp only [NotifySys.held, he.pending]
  refine ⟨fun i hi => ?_, fun hp => ?_, h.returned, fun x hx => ?_, h.ret, fun hpc hb => ?_⟩
  · have := h.accounted i hi
    unfold Accounted at this ⊢
    rw [hheld]
    exact this
  · dsimp only at hp ⊢
    rw [he.value]
    exact h.value (he.pending ▸ hp)
  · refine ⟨(h.hasRead x hx).1, fun hp => ?_⟩
    rw [hheld]
    exact (h.hasRead x hx).2 (he.pending ▸ hp)
  · obtain ⟨hb₀, hr⟩ := ha hpc hb
    obtain ⟨hreason, hnot⟩ := h.asleep hpc hb₀
    exact ⟨hr.trans hreason, he.pending.trans hnot⟩

/-- `os_task_notify_clear`. -/
theorem cleared (h : NotifyInv t s) :
    NotifyInv t { s with
      kernel := osTaskNotifyClear s.kernel t, log := s.log.discard (s.held t) } := by
  have htcb : (osTaskNotifyClear s.kernel t).tcb t
      = { s.kernel.tcb t with notifyPending := false, notifyValue := 0 } := Function.update_self ..
  refine ⟨fun i hi => ?_, fun hp => ?_, h.returned, fun x hx => ?_, h.ret, fun hpc hb => ?_⟩
  · refine (h.accounted i hi).mono (List.Subset.refl _) (List.Subset.refl _)
      (List.subset_append_right _ _) (fun hh => ?_) fun hhand => ?_
    · exact .inr (.inr (.inl (List.mem_append_left _ (by simp [hh]))))
    · exact .inr (.inr (.inr (.inr hhand)))
  · simp [htcb] at hp
  · refine ⟨(h.hasRead x hx).1, fun hp => ?_⟩
    simp [htcb] at hp
  · dsimp only at hb ⊢
    rw [htcb] at hb ⊢
    exact ⟨(h.asleep hpc hb).1, rfl⟩

/-- A statement that changes nothing but the place where the task is. -/
theorem moved {pc : NotifyPc} (h : NotifyInv t s)
    (hasleep : (s.kernel.tcb t).state = .blocked →
      (s.kernel.tcb t).blockedReason = .onNotify ∧ (s.kernel.tcb t).notifyPending = false)
    (hhand : s.pc.hand = none)
    (hread : ∀ x, pc = .clear (some x) → s.log.Genuine x ∧
      ((s.kernel.tcb t).notifyPending = true → x.serial = s.held t))
    (hret : ∀ x, pc ≠ .ret x) : NotifyInv t { s with pc := pc } := by
  refine ⟨fun i hi => ?_, h.value, h.returned, hread, fun x hx => absurd hx (hret x),
    fun _ => hasleep⟩
  refine (h.accounted i hi).mono (List.Subset.refl _) (List.Subset.refl _) (List.Subset.refl _)
    (fun hh => ?_) fun hhand' => ?_
  · exact .inr (.inr (.inr (.inl hh)))
  · rw [hhand] at hhand'
    cases hhand'

/-- **The statement that clears the flag**: what the control block held is in hand. -/
theorem clearFlag {x : Option Taken} (h : NotifyInv t s) (hpc : s.pc = .clear x) :
    NotifyInv t { s with
      kernel := s.kernel.setTcb t { s.kernel.tcb t with notifyPending := false }
      pc := .ret (x.getD ⟨s.held t, none⟩) } := by
  have htcb : (s.kernel.setTcb t { s.kernel.tcb t with notifyPending := false }).tcb t
      = { s.kernel.tcb t with notifyPending := false } := Function.update_self ..
  -- the flag and the value in hand belong to the same notification
  have hserial : (s.kernel.tcb t).notifyPending = true →
      (x.getD ⟨s.held t, none⟩).serial = s.held t := by
    intro hp
    cases x with
    | none => rfl
    | some y => exact (h.hasRead y hpc).2 hp
  have hgenuine : s.log.Genuine (x.getD ⟨s.held t, none⟩) := by
    cases x with
    | none => exact h.genuine_held (by simp)
    | some y => exact (h.hasRead y hpc).1
  refine ⟨fun i hi => ?_, fun hp => ?_, h.returned, (fun y hy => by cases hy), fun y hy => ?_,
    fun _ hb => ?_⟩
  · refine (h.accounted i hi).mono (List.Subset.refl _) (List.Subset.refl _) (List.Subset.refl _)
      (fun hh => ?_) fun hhand => ?_
    · have hp : (s.kernel.tcb t).notifyPending = true := by
        rw [NotifySys.held] at hh
        split at hh
        · assumption
        · cases hh
      exact .inr (.inr (.inr (.inr ((hserial hp).trans hh))))
    · rw [hpc] at hhand
      cases hhand
  · simp [htcb] at hp
  · obtain rfl := NotifyPc.ret.inj hy
    exact hgenuine
  · dsimp only at hb ⊢
    rw [htcb] at hb ⊢
    exact ⟨(h.asleep (by simp [hpc]) hb).1, rfl⟩

/-- **The return with `OS_OK`.** -/
theorem returns {x : Taken} (h : NotifyInv t s) (hpc : s.pc = .ret x) :
    NotifyInv t { s with pc := .idle, log := s.log.ret x } := by
  refine ⟨fun i hi => ?_, h.value, fun y hy => ?_, (fun y hy => by cases hy), (fun y hy => by cases hy),
    fun hidle => absurd rfl hidle⟩
  · refine (h.accounted i hi).mono (List.subset_cons_self _ _) (List.Subset.refl _)
      (List.Subset.refl _) (fun hh => ?_) fun hhand => ?_
    · exact .inr (.inr (.inr (.inl hh)))
    · rw [hpc] at hhand
      exact .inl ⟨x, List.mem_cons_self, hhand⟩
  · rcases List.mem_cons.mp hy with rfl | hy
    · exact h.ret y hpc
    · exact h.returned y hy

/-- **The next statement.** -/
theorem next {s' : NotifySys} (h : NotifyInv t s) (hs : nextStatement t s = some s') :
    NotifyInv t s' := by
  unfold nextStatement at hs
  split at hs
  · -- outside the call there is no next statement
    cases hs
  · next out hpc =>
      obtain rfl := Option.some.inj hs
      have hyield : NotifyInv t { s with kernel := osSchedYield s.kernel } :=
        h.elsewhere ⟨rfl, rfl⟩ fun _ hb => ⟨hb, rfl⟩
      exact hyield.moved (hyield.asleep (by simp [hpc])) (by simp [hpc, NotifyPc.hand]) (by simp) (by simp)
  · next out hpc =>
      obtain rfl := Option.some.inj hs
      exact h.moved (h.asleep (by simp [hpc])) (by simp [hpc, NotifyPc.hand]) (by simp) (by simp)
  · next out hpc =>
      obtain rfl := Option.some.inj hs
      -- the test of the flag goes on to the read or to the timeout, with nothing in hand yet
      refine h.moved (h.asleep (by simp [hpc])) (by simp [hpc, NotifyPc.hand]) (fun x hx => ?_) fun x hx => ?_
      · split at hx <;> cases hx
      · split at hx <;> cases hx
  · next out hpc =>
      obtain rfl := Option.some.inj hs
      -- the read takes the value of the notification whose flag is still up
      refine h.moved (h.asleep (by simp [hpc])) (by simp [hpc, NotifyPc.hand]) (fun x hx => ?_) (by simp)
      split at hx
      · obtain rfl := Option.some.inj (NotifyPc.clear.inj hx)
        exact ⟨h.genuine_held (by simp), fun _ => rfl⟩
      · cases NotifyPc.clear.inj hx
  · next x hpc =>
      obtain rfl := Option.some.inj hs
      exact h.clearFlag hpc
  · next x hpc =>
      obtain rfl := Option.some.inj hs
      exact h.returns hpc
  · next hpc =>
      obtain rfl := Option.some.inj hs
      exact h.moved (h.asleep (by simp [hpc])) (by simp [hpc, NotifyPc.hand]) (by simp) (by simp)

/-- **A pending notification is taken** inside the critical section. -/
theorem takeNow {o : Option (BitVec 32)} (h : NotifyInv t s) (hpc : s.pc = .idle)
    (htcb : k'.tcb t = { s.kernel.tcb t with notifyPending := false })
    (ho : ∀ v, o = some v → v = (s.kernel.tcb t).notifyValue) :
    NotifyInv t { s with kernel := k', log := s.log.ret ⟨s.held t, o⟩ } := by
  refine ⟨fun i hi => ?_, fun hp => ?_, fun y hy => ?_, fun y hy => ?_, fun y hy => ?_,
    fun hidle => absurd hpc hidle⟩
  · refine (h.accounted i hi).mono (List.subset_cons_self _ _) (List.Subset.refl _)
      (List.Subset.refl _) (fun hh => ?_) fun hhand => ?_
    · exact .inl ⟨_, List.mem_cons_self, hh⟩
    · rw [hpc] at hhand
      cases hhand
  · simp [htcb] at hp
  · rcases List.mem_cons.mp hy with rfl | hy
    · exact h.genuine_held ho
    · exact h.returned y hy
  · cases hpc.symm.trans hy
  · cases hpc.symm.trans hy

/-- **A call of `os_task_notify_wait`.** -/
theorem wait {s' : NotifySys} {timeout : Nat} {out : Bool} (h : NotifyInv t s)
    (hs : callWait t s timeout out = some s') : NotifyInv t s' := by
  unfold callWait at hs
  by_cases hpc : s.pc = .idle
  · have hhand : s.pc.hand = none := by
      rw [hpc]
      rfl
    rw [if_pos hpc] at hs
    rcases notifyWaitCritical_cases s.kernel t timeout with
      ⟨k, hcrit, htcb⟩ | ⟨k, hcrit, htcb⟩ | ⟨k, hcrit, hp, hv, hr, hflag⟩
    · rw [hcrit] at hs
      obtain rfl := Option.some.inj hs
      exact h.takeNow hpc htcb (by split <;> simp)
    · rw [hcrit] at hs
      obtain rfl := Option.some.inj hs
      exact h.elsewhere (Elsewhere.of_tcb htcb).toSameNotification fun _ => (Elsewhere.of_tcb htcb).awake
    · rw [hcrit] at hs
      obtain rfl := Option.some.inj hs
      have hblock : NotifyInv t { s with kernel := k } := h.elsewhere ⟨hp, hv⟩ fun hidle => absurd hpc hidle
      exact hblock.moved (fun _ => ⟨hr, hflag⟩) hhand (by simp) (by simp)
  · rw [if_neg hpc] at hs
    cases hs

/-- **One step.** -/
theorem step {s' : NotifySys} {op : NotifyOp} (h : NotifyInv t s) (hg : op.Allowed t s)
    (hc : ¬op.Clobbers s) (hs : notifyStep t s op = some s') : NotifyInv t s' := by
  have hread : op.notifies = true → s.pc.hasRead = false := fun hn =>
    Bool.eq_false_iff.mpr fun hr => hc ⟨hr, hn⟩
  cases op with
  | wait timeout out => exact h.wait hs
  | next => exact h.next hs
  | notifyFromIsr v =>
      obtain rfl := Option.some.inj hs
      exact h.notified (hread rfl) (tcb_osTaskNotifyFromIsr ..)
  | notify v =>
      obtain ⟨r, hr, rfl⟩ := Option.map_eq_some_iff.mp hs
      exact h.notified (hread rfl) (tcb_osTaskNotify hr)
  | notifyClear =>
      obtain rfl := Option.some.inj hs
      exact h.cleared
  | tick =>
      obtain ⟨k, hk, rfl⟩ := Option.map_eq_some_iff.mp hs
      have he : Elsewhere t s.kernel k := .osTaskTick hk
      exact h.elsewhere he.toSameNotification fun _ => he.awake
  | selectNext =>
      obtain rfl := Option.some.inj hs
      have he : Elsewhere t s.kernel (osSchedSelectNext s.kernel) := .osSchedSelectNext _
      exact h.elsewhere he.toSameNotification fun _ => he.awake
  | other k =>
      obtain rfl := Option.some.inj hs
      exact h.elsewhere hg.1 hg.2

end NotifyInv

/-! ## Whole runs -/

/-- No notification has been sent to the task, and it is not in `os_task_notify_wait`. -/
structure NotifySys.Init (t : TaskId) (s : NotifySys) : Prop where
  /-- The flag is clear, as `os_task_create` leaves it. -/
  pending : (s.kernel.tcb t).notifyPending = false
  /-- The task is elsewhere. -/
  pc : s.pc = .idle
  /-- Nothing has happened. -/
  log : s.log = ⟨[], [], [], []⟩

/-- Nothing is lost yet. -/
theorem NotifySys.Init.inv {s : NotifySys} (h : s.Init t) : NotifyInv t s := by
  refine ⟨fun i hi => ?_, fun hp => ?_, fun x hx => ?_, fun x hx => ?_, fun x hx => ?_,
    fun hidle => absurd h.pc hidle⟩
  · simp [h.log] at hi
  · simp [h.pending] at hp
  · simp [h.log] at hx
  · cases h.pc.symm.trans hx
  · cases h.pc.symm.trans hx

/-- **No lost notification.** In every state that a run reaches in which no notification comes between
the statement of `os_task_notify_wait` that reads the value and the one that clears the flag: every
notification has been returned, overwritten or discarded, is held with the flag set, or is about to be
returned; the values that were returned are those that were sent; and the task does not sleep in
`os_task_notify_wait` while a notification is pending. -/
theorem notifications_accounted {s₀ s : NotifySys} {ops : List NotifyOp} (h₀ : s₀.Init t)
    (hr : Run (fun s op => op.Allowed t s ∧ ¬op.Clobbers s) (notifyStep t) s₀ ops s) :
    (∀ i < s.log.sent.length, Accounted t s i) ∧ (∀ x ∈ s.log.returned, s.log.Genuine x) ∧
      (s.pc ≠ .idle → (s.kernel.tcb t).state = .blocked → (s.kernel.tcb t).notifyPending = false) := by
  have h : NotifyInv t s :=
    hr.invariant (NotifyInv t) (fun _ _ _ h hg hs => h.step hg.1 hg.2 hs) h₀.inv
  exact ⟨h.accounted, h.returned, fun hpc hb => (h.asleep hpc hb).2⟩

/-- One task, current and RUNNING. -/
def NotifySys.oneTask : NotifySys :=
  ⟨osSchedSelectNext (osTaskCreate Sys.boot.kernel (taskAt 0x1000 5)).2.2, .idle, ⟨[], [], [], []⟩⟩

/-- A task that waits for nothing is a start. -/
theorem NotifySys.oneTask_init : NotifySys.oneTask.Init 0x1000 :=
  ⟨by decide +kernel, rfl, rfl⟩

/-- The task waits, is notified between the critical section and its yield, and again before it tests
the flag; it returns the second value and is notified a third time. -/
def notifiedTrace : List NotifyOp :=
  [.wait 0xffffffff true, .notifyFromIsr 7, .next, .selectNext, .notifyFromIsr 8, .next, .next, .next,
    .next, .next, .notifyFromIsr 9]

/-- All three notifications are accounted for. -/
theorem notifications_accounted_notifiedTrace :
    ∃ s, Run (fun s op => op.Allowed 0x1000 s ∧ ¬op.Clobbers s) (notifyStep 0x1000) .oneTask
        notifiedTrace s ∧ s.log = ⟨[7, 8, 9], [0], [], [⟨some 1, some 8⟩]⟩ ∧
      ∀ i < s.log.sent.length, Accounted 0x1000 s i := by
  obtain ⟨s, hr, hlog⟩ := exists_run_of_exec (fun s op => NotifyOp.Allowed 0x1000 s op ∧ ¬op.Clobbers s)
    (notifyStep 0x1000) .oneTask notifiedTrace
    (fun s => s.log = ⟨[7, 8, 9], [0], [], [⟨some 1, some 8⟩]⟩) (by decide +kernel)
  exact ⟨s, hr, hlog, (notifications_accounted NotifySys.oneTask_init hr).1⟩

/-- **Counterexample.** The second notification comes after the task has read the value of the first and
before it clears the flag: the flag that is cleared is that of the second notification, whose value is
never returned. -/
theorem notification_lost :
    ∃ s, Run (NotifyOp.Allowed 0x1000) (notifyStep 0x1000) .oneTask
        [.wait 0xffffffff true, .next, .notifyFromIsr 7, .selectNext, .next, .next, .next,
          .notifyFromIsr 8, .next, .next] s ∧
      s.log.sent = [7, 8] ∧ ¬Accounted 0x1000 s 1 := by
  obtain ⟨s, hr, hlog, hp, hpc⟩ := exists_run_of_exec (NotifyOp.Allowed 0x1000) (notifyStep 0x1000) .oneTask
    [.wait 0xffffffff true, .next, .notifyFromIsr 7, .selectNext, .next, .next, .next,
      .notifyFromIsr 8, .next, .next]
    (fun s => s.log = ⟨[7, 8], [0], [], [⟨some 0, some 7⟩]⟩ ∧
      (s.kernel.tcb 0x1000).notifyPending = false ∧ s.pc = .idle) (by decide +kernel)
  refine ⟨s, hr, by rw [hlog], ?_⟩
  unfold Accounted NotifySys.held
  rw [hlog, hp, hpc]
  simp [NotifyPc.hand]

end MiniRTOS
