import MiniRTOS.Kernel.ObjectCalls

/-! # What tasks wait for

`Kernel.waits` is what the wake-up tests look at: of each control block the state, the remaining
delay and what the task waits for (its `Phase`), the tokens of the semaphores and the bits of the
event groups, and which control blocks are live. For each call, one equation says which phases and
which levels it rewrites.

* **`Phase.waiting`, `Phase.woken`, `Phase.delayed`** — the rewrites that blocking, waking and
  delaying make.
* **`waits_wakeTask`, `waits_blockTask`** — the two wait-list functions that all objects share. -/

namespace MiniRTOS

open PtrList ByteMemory

variable {k k' : Kernel} {L : Layout} {t c : TaskId} {w : WaitList}

/-! ## Phases -/

/-- What the wake-up tests read of a control block; READY and RUNNING are not told apart. -/
structure Phase where
  /-- The task state, READY for a RUNNING task. -/
  state : TaskState
  /-- Ticks remaining when blocked. -/
  delayTicks : Nat
  /-- The object the task waits for. -/
  blockedOn : Option Obj
  /-- Which primitive the task waits in. -/
  blockedReason : BlockedReason
  /-- Set when the wait timed out. -/
  timedOut : Bool
  /-- Event bits waited for. -/
  eventWaitBits : BitVec 32
  /-- Event wait options. -/
  eventWaitOptions : BitVec 32
  deriving DecidableEq

/-- RUNNING read as READY. -/
def TaskState.listed : TaskState → TaskState
  | .running => .ready
  | s => s

/-- The phase of a control block. -/
def Tcb.phase (v : Tcb) : Phase where
  state := v.state.listed
  delayTicks := v.delayTicks
  blockedOn := v.blockedOn
  blockedReason := v.blockedReason
  timedOut := v.timedOut
  eventWaitBits := v.eventWaitBits
  eventWaitOptions := v.eventWaitOptions

/-- The phase after `prv_block_task`. -/
def Phase.waiting (p : Phase) (w : WaitList) (timeout : Nat) : Phase :=
  { p with
    state := .blocked, delayTicks := timeout, blockedOn := some w.obj, blockedReason := w.reason
    timedOut := false }

/-- The phase after a wake-up from a wait list. -/
def Phase.woken (p : Phase) : Phase :=
  { p with
    state := .ready, delayTicks := 0, blockedOn := none, blockedReason := .none, timedOut := false }

/-- The phase after `os_task_add_to_blocked`. -/
def Phase.delayed (p : Phase) (ticks : Nat) : Phase := { p with state := .blocked, delayTicks := ticks }

/-- The phase of a task that went to sleep in `os_task_notify_wait`. -/
def Phase.notifyWaiting (p : Phase) (ticks : Nat) : Phase :=
  { p with state := .blocked, delayTicks := ticks, blockedReason := .onNotify, timedOut := false }

/-- The phase of a task that a notification woke. -/
def Phase.notified (p : Phase) : Phase :=
  { p with state := .ready, delayTicks := 0, blockedReason := .none, timedOut := false }

/-- The phase after a tick, for a task of `blocked_list`. -/
def Phase.ticked (p : Phase) : Phase :=
  if p.delayTicks = 0 then p
  else if p.delayTicks = 1 then { p with delayTicks := 0, state := .ready }
  else { p with delayTicks := p.delayTicks - 1 }

/-- The phase of a ticked control block. -/
theorem Tcb.phase_ticked (v : Tcb) : v.ticked.phase = v.phase.ticked := by
  unfold Tcb.ticked Phase.ticked
  simp only [show v.phase.delayTicks = v.delayTicks from rfl]
  split
  · rfl
  · split <;> rfl

/-- A READY or RUNNING control block has a READY phase. -/
theorem Tcb.phase_state_ready {v : Tcb} : v.phase.state = .ready ↔ v.state = .ready ∨ v.state = .running := by
  show v.state.listed = .ready ↔ _
  cases v.state <;> simp [TaskState.listed]

/-- The other states are those of the phase. -/
theorem Tcb.phase_state_eq {v : Tcb} {st : TaskState} (hr : st ≠ .ready) (hr' : st ≠ .running) :
    v.phase.state = st ↔ v.state = st := by
  show v.state.listed = st ↔ _
  cases v.state <;> simp [TaskState.listed, hr.symm, hr'.symm]

/-! ## The view -/

/-- Phases, levels and live control blocks. -/
structure Waits where
  /-- The phase of every control block. -/
  phases : TaskId → Phase
  /-- Count and bound of every semaphore. -/
  tokens : Addr → Nat × Nat
  /-- The bits of every event group. -/
  bits : Addr → BitVec 32
  /-- The live control blocks. -/
  live : List TaskId

/-- What the tasks of a kernel state wait for. -/
def Kernel.waits (k : Kernel) : Waits where
  phases t := (k.tcb t).phase
  tokens a := ((k.sems a).count, (k.sems a).maxCount)
  bits e := (k.eventGroups e).bits
  live := k.liveTcbs

/-- Rewrite one phase. -/
def Waits.set (v : Waits) (t : TaskId) (p : Phase) : Waits :=
  { v with phases := Function.update v.phases t p }

/-- Rewrite the count of one semaphore. -/
def Waits.setTokens (v : Waits) (a : Addr) (n : Nat × Nat) : Waits :=
  { v with tokens := Function.update v.tokens a n }

/-- Rewrite the bits of one event group. -/
def Waits.setBits (v : Waits) (e : Addr) (b : BitVec 32) : Waits :=
  { v with bits := Function.update v.bits e b }

/-- Writing the phase that is there changes nothing. -/
@[simp] theorem Waits.set_self (v : Waits) (t : TaskId) : v.set t (v.phases t) = v := by
  unfold Waits.set
  rw [Function.update_eq_self]

/-- The last phase written counts. -/
@[simp] theorem Waits.set_set (v : Waits) (t : TaskId) (p p' : Phase) :
    (v.set t p).set t p' = v.set t p' := by
  unfold Waits.set
  simp only [Function.update_idem]

/-- A phase reads as it was written. -/
@[simp] theorem Waits.phases_set_self (v : Waits) (t : TaskId) (p : Phase) :
    (v.set t p).phases t = p := Function.update_self ..

/-- States that agree outside the lists have the same waits. -/
theorem waits_of_data (h : k'.data = k.data) : k'.waits = k.waits := by
  have hv := congrArg Kernel.waits h
  exact hv

/-- Writing a control block writes the phase of its task. -/
@[simp] theorem waits_setTcb (k : Kernel) (t : TaskId) (v : Tcb) :
    (k.setTcb t v).waits = k.waits.set t v.phase := by
  have hp : (fun x => ((k.setTcb t v).tcb x).phase) = Function.update (fun x => (k.tcb x).phase) t v.phase := by
    funext x
    show (Function.update k.tcb t v x).phase = _
    rw [Function.update_apply, Function.update_apply]
    split <;> rfl
  show Waits.mk _ _ _ _ = Waits.mk _ _ _ _
  rw [hp]
  rfl

/-- A write to a control block that keeps its phase. -/
theorem waits_setTcb_same {v : Tcb} (h : v.phase = (k.tcb t).phase) : (k.setTcb t v).waits = k.waits := by
  rw [waits_setTcb, h]
  exact k.waits.set_self t

/-- Writing a semaphore writes its tokens. -/
theorem waits_setSem (k : Kernel) (a : Addr) (v : Sem) :
    (k.setSem a v).waits = k.waits.setTokens a (v.count, v.maxCount) := by
  have ht : (fun x => (((k.setSem a v).sems x).count, ((k.setSem a v).sems x).maxCount))
      = Function.update (fun x => ((k.sems x).count, (k.sems x).maxCount)) a (v.count, v.maxCount) := by
    funext x
    show ((Function.update k.sems a v x).count, (Function.update k.sems a v x).maxCount) = _
    rw [Function.update_apply, Function.update_apply]
    split <;> rfl
  show Waits.mk _ _ _ _ = Waits.mk _ _ _ _
  rw [ht]
  rfl

/-- Writing an event group writes its bits. -/
theorem waits_setEventGroup (k : Kernel) (e : Addr) (v : EventGroup) :
    (k.setEventGroup e v).waits = k.waits.setBits e v.bits := by
  have hb : (fun x => ((k.setEventGroup e v).eventGroups x).bits)
      = Function.update (fun x => (k.eventGroups x).bits) e v.bits := by
    funext x
    show (Function.update k.eventGroups e v x).bits = _
    rw [Function.update_apply, Function.update_apply]
    split <;> rfl
  show Waits.mk _ _ _ _ = Waits.mk _ _ _ _
  rw [hb]
  rfl

/-! ## Scheduling -/

/-- Leaving a critical section moves nobody. -/
@[simp] theorem waits_osSchedExitCritical (k : Kernel) : (osSchedExitCritical k).waits = k.waits := rfl

/-- Nor does asking for a switch. -/
@[simp] theorem waits_osSchedYield (k : Kernel) : (osSchedYield k).waits = k.waits := rfl

/-- Nor does asking for one under a condition. -/
@[simp] theorem waits_yieldIf (k : Kernel) (b : Prop) [Decidable b] :
    (if b then osSchedYield k else k).waits = k.waits := by
  split <;> rfl

/-- Nor does asking for one from an interrupt. -/
@[simp] theorem waits_requestSwitchIf (k : Kernel) (b : Prop) [Decidable b] :
    (if b then osSchedRequestSwitchFromIsr k else k).waits = k.waits := by
  split <;> rfl

/-- The ready lists are no part of the phases. -/
@[simp] theorem waits_osTaskRemoveFromReady (k : Kernel) (t : TaskId) :
    (osTaskRemoveFromReady k t).waits = k.waits := rfl

/-- Nor is `blocked_list`. -/
@[simp] theorem waits_osTaskRemoveFromBlocked (k : Kernel) (t : TaskId) :
    (osTaskRemoveFromBlocked k t).waits = k.waits := rfl

/-- Making a task ready sets its state. -/
@[simp] theorem waits_osTaskAddToReady (k : Kernel) (t : TaskId) :
    (osTaskAddToReady k t).waits = k.waits.set t { k.waits.phases t with state := .ready } :=
  (waits_of_data (data_osTaskAddToReady k t)).trans (waits_setTcb ..)

/-- Blocking a task sets its state and its delay. -/
@[simp] theorem waits_osTaskAddToBlocked (k : Kernel) (t : TaskId) (n : Nat) :
    (osTaskAddToBlocked k t n).waits = k.waits.set t ((k.waits.phases t).delayed n) :=
  (waits_of_data (data_osTaskAddToBlocked k t n)).trans (waits_setTcb ..)

/-- A context selection changes no phase: the selected task was ready already. -/
theorem TaskListInv.waits_osSchedSelectNext (h : TaskListInv k L) :
    (MiniRTOS.osSchedSelectNext k).waits = k.waits := by
  rcases h.osSchedSelectNext with ⟨-, he⟩ | ⟨p, t, r, n, hp, -, hn, -, hs⟩
  · rw [he]
  · have hmem : n ∈ L (.ready p) := by
      rw [hp]
      exact mem_rotated.mp (List.mem_of_mem_head? hn)
    have hready := ((h.placed n (h.live _ n hmem) _).mp hmem).2
    have hphase : ∀ x, ((MiniRTOS.osSchedSelectNext k).tcb x).phase = (k.tcb x).phase := by
      intro x
      rw [hs.same x]
      have hst : ((MiniRTOS.osSchedSelectNext k).tcb x).state.listed = (k.tcb x).state.listed := by
        by_cases hx : x = n
        · subst hx
          rw [hs.next]
          rcases hready with hr | hr
          · rw [hr]
            rfl
          · rw [hr]
        · rw [hs.others x hx]
          split
          · next hc =>
              rw [hc.2]
              rfl
          · rfl
      show Phase.mk _ _ _ _ _ _ _ = Phase.mk _ _ _ _ _ _ _
      rw [hst]
    have hv := waits_of_data hs.data
    refine hv.trans ?_
    show Waits.mk _ _ _ _ = Waits.mk _ _ _ _
    congr 1
    funext x
    exact hphase x

/-! ## Wait lists -/

/-- Unblocking a task clears what it waits for. -/
@[simp] theorem waits_unblockTask (k : Kernel) (w : WaitList) (t : TaskId) :
    (unblockTask k w t).waits
      = k.waits.set t { k.waits.phases t with blockedOn := none, blockedReason := .none } :=
  (waits_of_data (data_unblockTask k w t)).trans (waits_setTcb ..)

/-- Blocking, wherever the walk ends. -/
theorem waits_blockTask {timeout : Nat} (h : blockTask k w t timeout w.reason w.obj = some k') :
    k'.waits = k.waits.set t ((k.waits.phases t).waiting w timeout) := by
  unfold blockTask at h
  obtain ⟨⟨prev, iter⟩, -, hk⟩ := Option.bind_eq_some_iff.mp h
  obtain rfl := Option.some.inj hk
  rw [waits_of_data (data_linkWaiter _ w t prev iter), waits_setTcb, waits_osTaskRemoveFromReady,
    waits_setTcb, Waits.set_set]
  congr 1
  show Tcb.phase { Function.update k.tcb t _ t with state := .blocked } = _
  rw [Function.update_self]
  rfl

/-- The waits after the first waiter of a list was woken. -/
def Kernel.wokenWaits (k : Kernel) (w : WaitList) : Waits :=
  match k.waitHead w with
  | none => k.waits
  | some t => k.waits.set t (k.waits.phases t).woken

/-- The first waiter is woken alike in states that agree on it. -/
theorem wokenWaits_congr (hw : k'.waits = k.waits) (hh : k'.waitHead w = k.waitHead w) :
    k'.wokenWaits w = k.wokenWaits w := by
  unfold Kernel.wokenWaits
  rw [hw, hh]

/-- Waking the first waiter, if there is one. -/
theorem waits_wakeTask (k : Kernel) (w : WaitList) : (wakeTask k w).2.waits = k.wokenWaits w := by
  unfold wakeTask Kernel.wokenWaits
  cases k.waitHead w with
  | none => rfl
  | some t =>
      dsimp only
      rw [waits_osTaskAddToReady, waits_setTcb, waits_unblockTask]
      simp only [Waits.set_set, Waits.phases_set_self]
      congr 1
      show ({ Tcb.phase { (unblockTask k w t).tcb t with delayTicks := 0, timedOut := false } with
        state := .ready } : Phase) = _
      rw [tcb_of_data (data_unblockTask k w t)]
      show ({ Tcb.phase { Function.update k.tcb t _ t with delayTicks := 0, timedOut := false } with
        state := .ready } : Phase) = _
      rw [Function.update_self]
      rfl

/-! ## Task calls -/

/-- The waits with the phase of the current task rewritten. -/
def Waits.setCurrent (v : Waits) (c : Option TaskId) (f : Phase → Phase) : Waits :=
  match c with
  | none => v
  | some c => v.set c (f (v.phases c))

/-- `os_task_suspend` parks a READY or RUNNING task. -/
theorem waits_osTaskSuspend (k : Kernel) (t : TaskId) :
    (osTaskSuspend k t).waits
      = if (k.waits.phases t).state = .ready then
          k.waits.set t { k.waits.phases t with state := .suspended }
        else k.waits := by
  have hr : (k.waits.phases t).state = .ready ↔ (k.tcb t).state = .ready ∨ (k.tcb t).state = .running :=
    Tcb.phase_state_ready
  have hr' : ((osSchedEnterCritical k).tcb t).state = .ready ∨
      ((osSchedEnterCritical k).tcb t).state = .running ↔ (k.waits.phases t).state = .ready := hr.symm
  unfold osTaskSuspend
  simp only [waits_yieldIf, waits_osSchedExitCritical, hr']
  split
  · rw [waits_setTcb]
    rfl
  · rfl

/-- `os_task_resume` makes a SUSPENDED task READY. -/
theorem waits_osTaskResume (k : Kernel) (t : TaskId) :
    (osTaskResume k t).waits
      = if (k.waits.phases t).state = .suspended then
          k.waits.set t { k.waits.phases t with state := .ready }
        else k.waits := by
  have hr : ((osSchedEnterCritical k).tcb t).state = .suspended ↔ (k.waits.phases t).state = .suspended :=
    (Tcb.phase_state_eq (by simp) (by simp)).symm
  unfold osTaskResume
  simp only [waits_osSchedExitCritical, hr]
  split
  · rw [waits_osTaskAddToReady]
    rfl
  · rfl

/-- The phase of a new task. -/
def Phase.new : Phase := ⟨.ready, 0, none, .none, false, 0, 0⟩

/-- Add a control block. -/
def Waits.add (v : Waits) (t : TaskId) (p : Phase) : Waits :=
  { v.set t p with live := v.live ++ [t] }

/-- A new task has the new phase. -/
theorem waits_initTask (k : Kernel) (func param : BitVec 32) (prio : Prio) (stack : Addr) (size : Nat)
    (t : TaskId) : (initTask k func param prio stack size t).waits = k.waits.add t .new := by
  obtain ⟨sp, mem, hpair⟩ : ∃ sp mem, osPortStackInit (prvFillStack k.stackMem stack size) func param
      stack size = (sp, mem) := ⟨_, _, rfl⟩
  have hset := waits_setTcb k t (newTcb stack size prio sp)
  unfold initTask
  simp only [hpair, waits_osTaskAddToReady]
  have hw : Kernel.waits { k with
      stackMem := mem
      tcb := Function.update k.tcb t (newTcb stack size prio sp)
      links := (k.links.setNext t none).setPrev t none
      liveTcbs := k.liveTcbs ++ [t]
      taskTable := k.taskTable ++ [t] } = k.waits.add t .new := by
    show ({ (k.setTcb t (newTcb stack size prio sp)).waits with live := k.liveTcbs ++ [t] } : Waits) = _
    rw [hset]
    rfl
  rw [hw]
  show ({ (k.waits.add t .new).set t _ with live := _ } : Waits) = _
  unfold Waits.add
  simp only [Waits.set, Function.update_idem, Function.update_self]
  rfl

/-- `os_task_create` adds a READY task at the heap's answer, or changes no phase and stores no
handle. -/
theorem waits_osTaskCreate (k : Kernel) (a : CreateArgs) :
    (osTaskCreate k a).2.1 = none ∧ (osTaskCreate k a).2.2.waits = k.waits ∨
      ∃ t, a.tcbBlock = some t ∧ (osTaskCreate k a).2.2.waits = k.waits.add t .new ∧
        ∀ x, (osTaskCreate k a).2.1 = some x → x = t := by
  rcases osTaskCreate_cases k a with
    ⟨func, p, stack, t, -, -, -, -, -, ht, h⟩ | ⟨r, k', -, -, hk', h⟩
  · rw [h]
    exact Or.inr ⟨t, ht, waits_initTask .., fun x hx => CreateArgs.handle_eq hx⟩
  · rw [h]
    refine Or.inl ⟨rfl, ?_⟩
    rcases hk' with rfl | ⟨stack, -, rfl⟩ <;> rfl

/-- `os_task_create_suspended` adds a SUSPENDED task, or a READY one when the caller keeps no
handle. -/
theorem waits_osTaskCreateSuspended (k : Kernel) (a : CreateArgs) :
    (osTaskCreateSuspended k a).2.2.waits = k.waits ∨
      ∃ t st, a.tcbBlock = some t ∧ (st = .ready ∨ st = .suspended) ∧
        (osTaskCreateSuspended k a).2.2.waits = k.waits.add t { Phase.new with state := st } := by
  have hcreate := waits_osTaskCreate k a
  unfold osTaskCreateSuspended
  split
  · next t k₁ heq =>
      rw [heq] at hcreate
      rcases hcreate with ⟨hnone, -⟩ | ⟨x, hx, hw, hxt⟩
      · cases hnone
      · obtain rfl := hxt t rfl
        have hw' : k₁.waits = k.waits.add t .new := hw
        have hphase : (k.waits.add t .new).phases t = .new := Waits.phases_set_self ..
        refine Or.inr ⟨t, .suspended, hx, Or.inr rfl, ?_⟩
        show (osTaskSuspend k₁ t).waits = _
        have hready : Phase.new.state = .ready := rfl
        rw [waits_osTaskSuspend, hw', hphase, if_pos hready]
        unfold Waits.add
        simp only [Waits.set, Function.update_idem]
  · rcases hcreate with ⟨-, hw⟩ | ⟨t, ht, hw, -⟩
    · exact Or.inl hw
    · exact Or.inr ⟨t, .ready, ht, Or.inl rfl, hw⟩

/-- `os_task_delay` delays the current task, unless it only yields. -/
theorem waits_osTaskDelay {n : Nat} (h : osTaskDelay k n = some k') :
    k'.waits = if n = 0 then k.waits else k.waits.setCurrent k.current fun p => p.delayed n := by
  unfold osTaskDelay at h
  split at h
  · next hn =>
      obtain rfl := Option.some.inj h
      rw [if_pos hn]
      rfl
  · next hn =>
      obtain ⟨c, hc, h⟩ := Option.bind_eq_some_iff.mp h
      obtain rfl := Option.some.inj h
      rw [if_neg hn, hc, waits_osSchedYield, waits_osSchedExitCritical, waits_osTaskAddToBlocked]
      rfl

/-- `os_task_delay_until` does what some `os_task_delay` does, or nothing. -/
theorem waits_osTaskDelayUntil {a b : Nat} {r : Status × Nat × Kernel}
    (h : osTaskDelayUntil k a b = some r) :
    r.2.2.waits = k.waits ∨ ∃ n, r.2.2.waits = k.waits.setCurrent k.current fun p => p.delayed n := by
  unfold osTaskDelayUntil at h
  split at h
  · obtain rfl := Option.some.inj h
    exact Or.inl rfl
  · dsimp only at h
    split at h
    · obtain ⟨k', hk', h⟩ := Option.bind_eq_some_iff.mp h
      obtain rfl := Option.some.inj h
      have hw := waits_osTaskDelay hk'
      split at hw
      · exact Or.inl hw
      · exact Or.inr ⟨_, hw⟩
    · obtain rfl := Option.some.inj h
      exact Or.inl rfl

/-- `os_task_delete(NULL)` marks the current task. -/
theorem waits_osTaskDeleteSelf (h : osTaskDeleteSelf k = some k') :
    k'.waits = k.waits.setCurrent k.current fun p => { p with state := .deleted } := by
  unfold osTaskDeleteSelf at h
  obtain ⟨c, hc, h⟩ := Option.bind_eq_some_iff.mp h
  obtain rfl := Option.some.inj h
  rw [hc]
  exact (waits_setTcb k c { k.tcb c with state := .deleted, pendingDelete := true })

/-- A notification wakes its target exactly when that is BLOCKED with `blocked_reason` ON_NOTIFY. -/
theorem waits_notifyTask (k : Kernel) (t : TaskId) (v : BitVec 32) :
    (notifyTask k t v).2.waits
      = if (k.waits.phases t).state = .blocked ∧ (k.waits.phases t).blockedReason = .onNotify then
          k.waits.set t (k.waits.phases t).notified
        else k.waits := by
  set x : Tcb := { k.tcb t with notifyValue := v, notifyPending := true } with hx
  have hself : (k.setTcb t x).tcb t = x := Function.update_self ..
  have hcond : x.state = .blocked ∧ x.blockedReason = .onNotify ↔
      (k.waits.phases t).state = .blocked ∧ (k.waits.phases t).blockedReason = .onNotify := by
    have hs : (k.waits.phases t).state = .blocked ↔ (k.tcb t).state = .blocked :=
      Tcb.phase_state_eq (by simp) (by simp)
    rw [hs]
    rfl
  unfold notifyTask
  simp only [← hx, hself, hcond]
  split
  · rw [waits_osTaskAddToReady, waits_setTcb, waits_osTaskRemoveFromBlocked, waits_setTcb]
    simp only [Waits.set_set, Waits.phases_set_self]
    congr 1
    show ({ Tcb.phase { (k.setTcb t x).tcb t with
      blockedReason := .none, delayTicks := 0, timedOut := false } with state := .ready } : Phase) = _
    rw [hself]
    rfl
  · exact waits_setTcb_same rfl

/-- `os_task_notify` moves its target as the notification does. -/
theorem waits_osTaskNotify {v : BitVec 32} {r : Kernel × Status} (h : osTaskNotify k t v = some r) :
    r.1.waits = (notifyTask (osSchedEnterCritical k) t v).2.waits := by
  unfold osTaskNotify at h
  dsimp only at h
  split at h
  · obtain ⟨c, -, h⟩ := Option.bind_eq_some_iff.mp h
    obtain rfl := Option.some.inj h
    exact waits_yieldIf ..
  · obtain rfl := Option.some.inj h
    rfl

/-- So does `os_task_notify_from_isr`. -/
theorem waits_osTaskNotifyFromIsr (k : Kernel) (t : TaskId) (v : BitVec 32) :
    (osTaskNotifyFromIsr k t v).1.waits = (notifyTask (osSchedEnterCritical k) t v).2.waits := by
  unfold osTaskNotifyFromIsr
  exact waits_requestSwitchIf ..

/-- Taking a notification moves nobody. -/
@[simp] theorem waits_takeNotification (k : Kernel) (t : TaskId) :
    (takeNotification k t).1.waits = k.waits := waits_setTcb_same rfl

/-- `os_task_notify_wait` returns at once, or the current task goes to `blocked_list`. -/
theorem waits_osTaskNotifyWait {n : Nat} {r : Kernel × Outcome (Status × Option (BitVec 32))}
    (h : osTaskNotifyWait k n = some r) :
    (∃ x, r.2 = .done x) ∧ r.1.waits = k.waits ∨
      r.2 = .blocked ∧ r.1.waits = k.waits.setCurrent k.current fun p =>
        p.notifyWaiting (if n = waitForever then 0 else n) := by
  unfold osTaskNotifyWait at h
  obtain ⟨c, hc, h⟩ := Option.bind_eq_some_iff.mp h
  dsimp only at h
  split at h
  · obtain rfl := Option.some.inj h
    exact Or.inl ⟨⟨_, rfl⟩, waits_takeNotification _ c⟩
  · split at h
    · obtain rfl := Option.some.inj h
      exact Or.inl ⟨⟨_, rfl⟩, rfl⟩
    · obtain rfl := Option.some.inj h
      refine Or.inr ⟨rfl, ?_⟩
      rw [hc, waits_osSchedYield, waits_osSchedExitCritical, waits_osTaskAddToBlocked, waits_setTcb,
        Waits.set_set, Waits.phases_set_self]
      rfl

/-- Returning from the wait for a notification moves nobody. -/
@[simp] theorem waits_osTaskNotifyWaitResume (k : Kernel) (c : TaskId) :
    (osTaskNotifyWaitResume k c).1.waits = k.waits := by
  unfold osTaskNotifyWaitResume
  split
  · exact waits_takeNotification k c
  · rfl

/-- **The tick** advances the phases of the tasks in `blocked_list`, and frees the deleted tasks. -/
theorem TaskListInv.waits_osTaskTick (h : TaskListInv k L) (hk : MiniRTOS.osTaskTick k = some k') :
    k'.waits = { k.waits with
      phases := fun x => if x ∈ L .blocked then (k.waits.phases x).ticked else k.waits.phases x
      live := k.liveTcbs.diff (L .deferred) } := by
  by_cases hcan : k.canaryIntact
  · obtain ⟨k'', hk'', -, ht⟩ := h.osTaskTick hcan
    obtain rfl := Option.some.inj (hk.symm.trans hk'')
    have hv := waits_of_data ht.data
    refine hv.trans ?_
    have hp : (fun x => (k'.tcb x).phase)
        = fun x => if x ∈ L .blocked then (k.waits.phases x).ticked else k.waits.phases x := by
      funext x
      obtain ⟨n, hn⟩ := ht.tcb x
      rw [hn]
      show (tickedTcb k (L .blocked) x).phase = _
      unfold tickedTcb
      split
      · exact Tcb.phase_ticked _
      · rfl
    show Waits.mk _ _ _ _ = Waits.mk _ _ _ _
    rw [hp, ht.live]
    rfl
  · rw [h.osTaskTick_halts hcan] at hk
    cases hk

/-! ## Calls on objects -/

/-- **What a call on a queue does to the phases**: nothing, or it wakes a waiter of the queue, or it
puts the caller to sleep there; an interrupt is no caller. -/
inductive QueueTurn (k : Kernel) (q : Addr) (caller : Option TaskId) (v : Waits) : Prop
  /-- Nobody moves. -/
  | same (h : v = k.waits)
  /-- A waiter of the queue is woken. -/
  | wakes (w : WaitList) (hw : w.obj = .queue q) (h : v = k.wokenWaits w)
  /-- The caller goes to sleep. -/
  | sleeps (w : WaitList) (hw : w.obj = .queue q) (n : Nat) (c : TaskId) (hc : caller = some c)
      (h : v = k.waits.set c ((k.waits.phases c).waiting w n))

/-- Requesting the switch to a woken task moves nobody. -/
theorem waits_preempt {woken : Option TaskId} (h : Queue.preempt k woken = some k') :
    k'.waits = k.waits := by
  unfold Queue.preempt at h
  cases woken with
  | none => rw [Option.some.inj h]
  | some x =>
      obtain ⟨c, -, h⟩ := Option.bind_eq_some_iff.mp h
      obtain rfl := Option.some.inj h
      exact waits_yieldIf ..

/-- The common body of send and receive wakes the first waiter of the other side, or puts its caller to
sleep. -/
theorem waits_exchange {α : Type} {q : Addr} {p : Prop} [Decidable p] {qu : Queue} {w w' : WaitList}
    {a b : α} {n : Nat} {r : Kernel × Outcome α}
    (hc : k.current = some c) (h : Queue.exchange k q p qu w w' a b n = some r)
    (hsend : qu.sendWaitList = (k.queues q).sendWaitList)
    (hrecv : qu.recvWaitList = (k.queues q).recvWaitList) (hw : w.obj = .queue q)
    (hw' : w'.obj = .queue q) : QueueTurn k q (some c) r.1.waits := by
  rcases Queue.exchange_cases h with ⟨-, k', hk', rfl⟩ | ⟨-, rfl⟩ | ⟨-, c', k', hc', hk', rfl⟩
  · refine .wakes w hw ?_
    rw [waits_preempt hk', waits_osSchedExitCritical, waits_wakeTask]
    exact wokenWaits_congr rfl (waitHead_setQueue hsend hrecv w)
  · exact .same rfl
  · refine .sleeps w' hw' n c' (hc.symm.trans hc') ?_
    have hsleep := waits_blockTask hk'
    exact hsleep

/-- So does `os_queue_send`. -/
theorem waits_osQueueSend {q : Addr} {item : Mem} {n : Nat} {r : Kernel × Outcome Status}
    (hc : k.current = some c) (h : osQueueSend k q item n = some r) :
    QueueTurn k q (some c) r.1.waits := by
  rw [osQueueSend_eq_exchange] at h
  exact waits_exchange hc h rfl rfl rfl rfl

/-- `os_queue_send_from_isr` has no caller to put to sleep. -/
theorem waits_osQueueSendFromIsr (k : Kernel) (q : Addr) (item : Mem) :
    QueueTurn k q none (osQueueSendFromIsr k q item).1.waits := by
  unfold osQueueSendFromIsr
  dsimp only
  split
  · refine .wakes (.queueRecv q) rfl ?_
    rw [waits_requestSwitchIf, waits_osSchedExitCritical, Queue.prvWakeTask, waits_wakeTask]
    exact wokenWaits_congr rfl (waitHead_setQueue (by rfl) (by rfl) _)
  · exact .same rfl

/-- `os_queue_receive` wakes the first sender, or puts its caller to sleep. -/
theorem waits_osQueueReceive {q : Addr} {n : Nat}
    {r : Kernel × Outcome (Status × Option (List UInt8))}
    (hc : k.current = some c) (h : osQueueReceive k q n = some r) :
    QueueTurn k q (some c) r.1.waits := by
  rw [osQueueReceive_eq_exchange] at h
  exact waits_exchange hc h rfl rfl rfl rfl

/-- `os_queue_receive_from_isr` has no caller to put to sleep. -/
theorem waits_osQueueReceiveFromIsr (k : Kernel) (q : Addr) :
    QueueTurn k q none (osQueueReceiveFromIsr k q).1.waits := by
  unfold osQueueReceiveFromIsr
  dsimp only
  split
  · refine .wakes (.queueSend q) rfl ?_
    rw [waits_requestSwitchIf, waits_osSchedExitCritical, Queue.prvWakeTask, waits_wakeTask]
    exact wokenWaits_congr rfl (waitHead_setQueue (by rfl) (by rfl) _)
  · exact .same rfl

/-- **What a taking call does**: take a token, fail, or put its caller to sleep. -/
inductive TakeTurn (k : Kernel) (a : Addr) (r : Outcome Status) (v : Waits) : Prop
  /-- A token is taken. -/
  | takes (hpos : 0 < (k.waits.tokens a).1) (hr : r = .done .ok)
      (h : v = k.waits.setTokens a ((k.waits.tokens a).1 - 1, (k.waits.tokens a).2))
  /-- There is none, and the caller does not wait. -/
  | fails (hzero : (k.waits.tokens a).1 = 0) (hr : r = .done .errEmpty) (h : v = k.waits)
  /-- There is none, and the caller goes to sleep. -/
  | sleeps (hzero : (k.waits.tokens a).1 = 0) (hr : r = .blocked) (n : Nat)
      (h : v = k.waits.setCurrent k.current fun p => p.waiting (.sem a) n)

/-- The critical sections of `semaphore.c` that write a count. -/
theorem waits_setSemCount (k : Kernel) (a : Addr) (n : Nat) :
    (osSchedExitCritical ((osSchedEnterCritical k).setSem a
        { (osSchedEnterCritical k).sems a with count := n })).waits
      = k.waits.setTokens a (n, (k.waits.tokens a).2) :=
  waits_setSem (osSchedEnterCritical k) a _

/-- `os_sem_take` takes a token, fails, or puts its caller to sleep. -/
theorem waits_osSemTake {a : Addr} {n : Nat} {r : Kernel × Outcome Status}
    (hc : k.current = some c) (h : osSemTake k a n = some r) : TakeTurn k a r.2 r.1.waits := by
  by_cases hpos : 0 < (k.sems a).count
  · have hpos' : ((osSchedEnterCritical k).sems a).count > 0 := hpos
    rw [osSemTake, if_pos hpos'] at h
    obtain rfl := Option.some.inj h
    exact .takes hpos rfl (waits_setSemCount k a _)
  · have hzero : (k.waits.tokens a).1 = 0 := Nat.eq_zero_of_not_pos hpos
    rw [osSemTake_empty hc hpos] at h
    split at h
    · obtain rfl := Option.some.inj h
      exact .fails hzero rfl rfl
    · obtain ⟨k', hk', rfl⟩ := Option.map_eq_some_iff.mp h
      refine .sleeps hzero rfl n ?_
      rw [hc]
      have hw := waits_blockTask (w := .sem a) hk'
      exact hw

/-- `os_sem_take_from_isr` takes a token or fails. -/
theorem waits_osSemTakeFromIsr (k : Kernel) (a : Addr) :
    TakeTurn k a (.done (osSemTakeFromIsr k a).2) (osSemTakeFromIsr k a).1.waits := by
  unfold osSemTakeFromIsr
  dsimp only
  split
  · next hpos => exact .takes hpos rfl (waits_setSemCount k a _)
  · next hpos => exact .fails (Nat.eq_zero_of_not_pos hpos) rfl rfl

/-- **What a giving call does**: hand the token to the first waiter, count it, or fail. -/
inductive GiveTurn (k : Kernel) (a : Addr) (r : Status) (v : Waits) : Prop
  /-- The token goes to the first waiter. -/
  | handsOff (t : TaskId) (ht : k.waitHead (.sem a) = some t) (hr : r = .ok)
      (h : v = k.waits.set t (k.waits.phases t).woken)
  /-- Nobody waits, and the token is counted. -/
  | counts (hnone : k.waitHead (.sem a) = none) (hlt : (k.waits.tokens a).1 < (k.waits.tokens a).2)
      (hr : r = .ok) (h : v = k.waits.setTokens a ((k.waits.tokens a).1 + 1, (k.waits.tokens a).2))
  /-- Nobody waits, and the count is at its bound. -/
  | fails (hnone : k.waitHead (.sem a) = none) (hr : r = .errFull) (h : v = k.waits)

/-- The first waiter that `prv_wake_task` finds. -/
theorem wakeTask_enter_eq_some {k₂ : Kernel}
    (h : wakeTask (osSchedEnterCritical k) w = (some t, k₂)) :
    k.waitHead w = some t ∧ k₂.waits = k.waits.set t (k.waits.phases t).woken := by
  have hhead : (osSchedEnterCritical k).waitHead w = k.waitHead w := by cases w <;> rfl
  have hw : (wakeTask (osSchedEnterCritical k) w).2.waits = k.wokenWaits w :=
    (waits_wakeTask _ w).trans (wokenWaits_congr rfl hhead)
  rw [h] at hw
  have ht : k.waitHead w = some t := by
    rw [← hhead]
    unfold wakeTask at h
    cases hh : (osSchedEnterCritical k).waitHead w with
    | none =>
        rw [hh] at h
        cases h
    | some x =>
        rw [hh] at h
        exact (Prod.mk.inj h).1
  rw [Kernel.wokenWaits, ht] at hw
  exact ⟨ht, hw⟩

/-- No waiter for `prv_wake_task`. -/
theorem wakeTask_enter_eq_none {k₂ : Kernel}
    (h : wakeTask (osSchedEnterCritical k) w = (none, k₂)) : k.waitHead w = none := by
  have hhead : (osSchedEnterCritical k).waitHead w = k.waitHead w := by cases w <;> rfl
  rw [← hhead]
  unfold wakeTask at h
  cases hh : (osSchedEnterCritical k).waitHead w with
  | none => rfl
  | some x =>
      rw [hh] at h
      cases h

/-- `os_sem_give` hands the token to the first waiter, or counts it. -/
theorem waits_osSemGive {a : Addr} {r : Kernel × Status} (h : osSemGive k a = some r) :
    GiveTurn k a r.2 r.1.waits := by
  unfold osSemGive Sem.prvWakeTask at h
  dsimp only at h
  split at h
  · next t k₂ heq =>
      obtain ⟨ht, hw⟩ := wakeTask_enter_eq_some heq
      obtain ⟨c, -, h⟩ := Option.bind_eq_some_iff.mp h
      obtain rfl := Option.some.inj h
      exact .handsOff t ht rfl ((waits_yieldIf ..).trans hw)
  · next k₂ heq =>
      have hnone := wakeTask_enter_eq_none heq
      split at h
      · next hlt =>
          obtain rfl := Option.some.inj h
          exact .counts hnone hlt rfl (waits_setSemCount k a _)
      · obtain rfl := Option.some.inj h
        exact .fails hnone rfl rfl

/-- So does `os_sem_give_from_isr`. -/
theorem waits_osSemGiveFromIsr (k : Kernel) (a : Addr) :
    GiveTurn k a (osSemGiveFromIsr k a).2 (osSemGiveFromIsr k a).1.waits := by
  unfold osSemGiveFromIsr Sem.prvWakeTask
  dsimp only
  split
  · next t k₂ heq =>
      obtain ⟨ht, hw⟩ := wakeTask_enter_eq_some heq
      exact .handsOff t ht rfl hw
  · next k₂ heq =>
      have hnone := wakeTask_enter_eq_none heq
      split
      · next hlt => exact .counts hnone hlt rfl (waits_setSemCount k a _)
      · exact .fails hnone rfl rfl

/-! ## Event groups -/

/-- The wait of a task is satisfied by the bits `b`. -/
def Phase.satisfied (p : Phase) (b : BitVec 32) : Bool :=
  eventSatisfied b p.eventWaitBits p.eventWaitOptions

/-- The bits that a woken task leaves. -/
def Phase.leaves (p : Phase) (b : BitVec 32) : BitVec 32 :=
  if p.eventWaitOptions &&& eventClearOnExit ≠ 0 then b &&& ~~~p.eventWaitBits else b

/-- The phase of a task that went to sleep in `os_eventgroup_wait_bits`. -/
def Phase.eventWaiting (p : Phase) (e : Addr) (bits options : BitVec 32) (timeout : Nat) : Phase :=
  ({ p with eventWaitBits := bits, eventWaitOptions := options } : Phase).waiting (.eventGroup e) timeout

/-- The pass of `os_eventgroup_set_bits` over the waiters, on phases and bits. -/
def Waits.wakePass (e : Addr) : Waits → List TaskId → Waits
  | v, [] => v
  | v, t :: ts =>
      if (v.phases t).satisfied (v.bits e) then
        wakePass e ((v.setBits e ((v.phases t).leaves (v.bits e))).set t (v.phases t).woken) ts
      else wakePass e v ts

/-- More bits satisfy what fewer bits satisfy. -/
theorem eventSatisfied_mono {b b' wanted options : BitVec 32}
    (hle : ∀ i : Nat, b'.getLsbD i = true → b.getLsbD i = true)
    (h : eventSatisfied b' wanted options = true) : eventSatisfied b wanted options = true := by
  unfold eventSatisfied at h ⊢
  split
  · next hall =>
      rw [if_pos hall, beq_iff_eq] at h
      rw [beq_iff_eq]
      refine BitVec.eq_of_getLsbD_eq fun i hi => ?_
      have hbit := congrArg (fun x : BitVec 32 => x.getLsbD i) h
      simp only [BitVec.getLsbD_and] at hbit ⊢
      cases hw : wanted.getLsbD i with
      | false => simp
      | true =>
          rw [hw, Bool.and_true] at hbit
          rw [hle i hbit, Bool.true_and]
  · next hall =>
      rw [if_neg hall, bne_iff_ne] at h
      rw [bne_iff_ne]
      intro hzero
      refine h (BitVec.eq_of_getLsbD_eq fun i hi => ?_)
      have hbit := congrArg (fun x : BitVec 32 => x.getLsbD i) hzero
      simp only [BitVec.getLsbD_and] at hbit ⊢
      cases hb : b'.getLsbD i with
      | false => simp
      | true =>
          rw [hle i hb] at hbit
          exact hbit

/-- Clearing bits sets none. -/
theorem getLsbD_of_clear {b m : BitVec 32} {i : Nat} (h : (b &&& ~~~m).getLsbD i = true) :
    b.getLsbD i = true := by
  rw [BitVec.getLsbD_and, Bool.and_eq_true] at h
  exact h.1

/-- A woken task leaves no new bits. -/
theorem Phase.getLsbD_of_leaves {p : Phase} {b : BitVec 32} {i : Nat}
    (h : (p.leaves b).getLsbD i = true) : b.getLsbD i = true := by
  unfold Phase.leaves at h
  split at h
  · exact getLsbD_of_clear h
  · exact h

/-- **What the pass over the waiters `l` of a group does**: each of them is woken, or its wait is not
satisfied by the bits the pass ends with. -/
structure Passed (e : Addr) (l : List TaskId) (v v' : Waits) : Prop where
  /-- The live tasks. -/
  live : v'.live = v.live
  /-- The semaphores. -/
  tokens : v'.tokens = v.tokens
  /-- The other groups. -/
  others : ∀ x, x ≠ e → v'.bits x = v.bits x
  /-- Bits are only cleared. -/
  bits : ∀ i : Nat, (v'.bits e).getLsbD i = true → (v.bits e).getLsbD i = true
  /-- Tasks that do not wait here. -/
  apart : ∀ t, t ∉ l → v'.phases t = v.phases t
  /-- The waiters. -/
  waiters : ∀ t ∈ l, v'.phases t = (v.phases t).woken ∨
    v'.phases t = v.phases t ∧ (v.phases t).satisfied (v'.bits e) = false

/-- **One pass is enough.** A waiter that was skipped is not satisfied later in the pass, since bits
are only cleared on the way. -/
theorem Waits.wakePass_passed (e : Addr) (v : Waits) {l : List TaskId} (hnd : l.Nodup) :
    Passed e l v (v.wakePass e l) := by
  induction l generalizing v with
  | nil =>
      exact ⟨rfl, rfl, fun _ _ => rfl, fun _ h => h, fun _ _ => rfl, fun t ht => absurd ht (by simp)⟩
  | cons t l ih =>
      obtain ⟨htl, hnd⟩ := List.nodup_cons.mp hnd
      rw [Waits.wakePass]
      split
      · set v₁ := (v.setBits e ((v.phases t).leaves (v.bits e))).set t (v.phases t).woken with hv₁
        have h := ih v₁ hnd
        have hself : v₁.phases t = (v.phases t).woken := Waits.phases_set_self ..
        have hne : ∀ x, x ≠ t → v₁.phases x = v.phases x := fun x hx => Function.update_of_ne hx _ _
        have hbits : v₁.bits e = (v.phases t).leaves (v.bits e) := Function.update_self ..
        refine ⟨h.live, h.tokens, fun x hx => ?_, fun i hi => ?_, fun x hx => ?_, fun x hx => ?_⟩
        · exact (h.others x hx).trans (Function.update_of_ne hx _ _)
        · have hi₁ := h.bits i hi
          rw [hbits] at hi₁
          exact Phase.getLsbD_of_leaves hi₁
        · rw [List.mem_cons, not_or] at hx
          rw [h.apart x hx.2, hne x hx.1]
        · rcases List.mem_cons.mp hx with rfl | hx
          · rw [h.apart x htl, hself]
            exact Or.inl rfl
          · have hxt : x ≠ t := fun hxt => htl (hxt ▸ hx)
            have hw := h.waiters x hx
            rw [hne x hxt] at hw
            exact hw
      · next hsat =>
          have h := ih v hnd
          refine ⟨h.live, h.tokens, h.others, h.bits, fun x hx => ?_, fun x hx => ?_⟩
          · rw [List.mem_cons, not_or] at hx
            exact h.apart x hx.2
          · rcases List.mem_cons.mp hx with rfl | hx
            · refine Or.inr ⟨h.apart x htl, ?_⟩
              by_contra hlater
              rw [Bool.not_eq_false] at hlater
              exact hsat (eventSatisfied_mono h.bits hlater)
            · exact h.waiters x hx

/-- What `os_eventgroup_set_bits` does with one satisfied waiter. -/
theorem waits_wakeWaiter (k : Kernel) (e : Addr) (t : TaskId) :
    (EventGroup.wakeWaiter k e t).waits
      = (k.waits.setBits e ((k.waits.phases t).leaves (k.waits.bits e))).set t
          (k.waits.phases t).woken := by
  set x : Tcb := { k.tcb t with eventReturnBits := (k.eventGroups e).bits } with hx
  have hself : (k.setTcb t x).tcb t = x := Function.update_self ..
  set k₂ := if x.eventWaitOptions &&& eventClearOnExit ≠ 0 then
      (k.setTcb t x).setEventGroup e
        { k.eventGroups e with bits := (k.eventGroups e).bits &&& ~~~x.eventWaitBits }
    else k.setTcb t x with hk₂
  have hsame : (k.setTcb t x).waits = k.waits := waits_setTcb_same rfl
  have hw₂ : k₂.waits = k.waits.setBits e ((k.waits.phases t).leaves (k.waits.bits e)) := by
    rw [hk₂]
    unfold Phase.leaves
    by_cases hclear : x.eventWaitOptions &&& eventClearOnExit ≠ 0
    · have hclear' : (k.waits.phases t).eventWaitOptions &&& eventClearOnExit ≠ 0 := hclear
      rw [if_pos hclear, if_pos hclear', waits_setEventGroup, hsame]
      rfl
    · have hclear' : ¬ (k.waits.phases t).eventWaitOptions &&& eventClearOnExit ≠ 0 := hclear
      rw [if_neg hclear, if_neg hclear', hsame]
      unfold Waits.setBits
      rw [Function.update_eq_self]
  have htcb₂ : k₂.tcb t = x := by
    rw [hk₂]
    split <;> exact hself
  have hwake : EventGroup.wakeWaiter k e t = osTaskAddToReady
      ((unblockTask k₂ (.eventGroup e) t).setTcb t
        { (unblockTask k₂ (.eventGroup e) t).tcb t with delayTicks := 0, timedOut := false }) t := by
    unfold EventGroup.wakeWaiter
    simp only [← hx, hself, ← hk₂]
  rw [hwake, waits_osTaskAddToReady, waits_setTcb, waits_unblockTask]
  simp only [Waits.set_set, Waits.phases_set_self]
  rw [hw₂]
  congr 1
  have htcb : (unblockTask k₂ (.eventGroup e) t).tcb t
      = { x with blockedOn := none, blockedReason := .none } := by
    rw [tcb_of_data (data_unblockTask k₂ (.eventGroup e) t)]
    show Function.update k₂.tcb t _ t = _
    rw [Function.update_self, htcb₂]
  rw [htcb]
  rfl

/-- **The walk of `os_eventgroup_set_bits` is the pass over the waiters.** -/
theorem TaskListInv.waits_wakeWalk {e : Addr} {rest : List TaskId} {fuel : Nat}
    {r : Kernel × List TaskId} (done woken : List TaskId) (h : TaskListInv k L)
    (hl : L (.wait (.eventGroup e)) = done ++ rest)
    (hr : EventGroup.wakeWalk e fuel k woken rest.head? = some r) :
    r.1.waits = k.waits.wakePass e rest := by
  induction rest generalizing k L done woken fuel with
  | nil =>
      rw [List.head?_nil, EventGroup.wakeWalk] at hr
      rw [← Option.some.inj hr]
      rfl
  | cons t rest ih =>
      cases fuel with
      | zero => cases hr
      | succ fuel =>
          rw [List.head?_cons, EventGroup.wakeWalk, h.next_waiter hl] at hr
          have hcheck : EventGroup.prvCheckCondition k e t
              = (k.waits.phases t).satisfied (k.waits.bits e) := rfl
          rw [hcheck] at hr
          rw [Waits.wakePass]
          split at hr
          · next hsat =>
              obtain ⟨L₁, h₁, -, hl₁⟩ := h.wakeWaiter_mid hl
              rw [if_pos hsat, ← waits_wakeWaiter]
              exact ih done (woken ++ [t]) h₁ hl₁ hr
          · next hsat =>
              rw [if_neg hsat]
              exact ih (done ++ [t]) woken h (by simp [hl]) hr

/-- The critical section of the setting calls. -/
theorem TaskListInv.waits_setAndWake {e : Addr} {bits : BitVec 32} {r : Kernel × List TaskId}
    (h : TaskListInv k L) (hr : EventGroup.setAndWake k e bits = some r) :
    r.1.waits = (k.waits.setBits e (k.waits.bits e ||| bits)).wakePass e (L (.wait (.eventGroup e))) := by
  have h₁ := h.setEventBits (e := e) ((k.eventGroups e).bits ||| bits)
  have hhead := h₁.lists.head (.wait (.eventGroup e))
  unfold EventGroup.setAndWake at hr
  dsimp only at hr
  have hr' : EventGroup.wakeWalk e maxTasks (k.setEventGroup e
      { k.eventGroups e with bits := (k.eventGroups e).bits ||| bits }) []
      (L (.wait (.eventGroup e))).head? = some r := by
    rw [← hhead]
    exact hr
  rw [h₁.waits_wakeWalk [] [] rfl hr', waits_setEventGroup]
  rfl

/-- `os_eventgroup_set_bits` sets the bits and passes over the waiters once. -/
theorem TaskListInv.waits_osEventgroupSetBits {e : Addr} {bits : BitVec 32} {r : Kernel × Status}
    (h : TaskListInv k L) (hr : MiniRTOS.osEventgroupSetBits k e bits = some r) :
    r.1.waits = (k.waits.setBits e (k.waits.bits e ||| bits)).wakePass e (L (.wait (.eventGroup e))) := by
  unfold MiniRTOS.osEventgroupSetBits at hr
  obtain ⟨⟨k₁, woken⟩, hw, hr⟩ := Option.bind_eq_some_iff.mp hr
  have hwaits := h.enterCritical.waits_setAndWake hw
  dsimp only at hr
  split at hr
  · obtain rfl := Option.some.inj hr
    exact hwaits
  · obtain ⟨c, -, hr⟩ := Option.bind_eq_some_iff.mp hr
    obtain rfl := Option.some.inj hr
    exact (waits_yieldIf ..).trans hwaits

/-- So does `os_eventgroup_set_bits_from_isr`. -/
theorem TaskListInv.waits_osEventgroupSetBitsFromIsr {e : Addr} {bits : BitVec 32}
    {r : Kernel × Status} (h : TaskListInv k L)
    (hr : MiniRTOS.osEventgroupSetBitsFromIsr k e bits = some r) :
    r.1.waits = (k.waits.setBits e (k.waits.bits e ||| bits)).wakePass e (L (.wait (.eventGroup e))) := by
  unfold MiniRTOS.osEventgroupSetBitsFromIsr at hr
  obtain ⟨⟨k₁, woken⟩, hw, hr⟩ := Option.bind_eq_some_iff.mp hr
  have hwaits := h.enterCritical.waits_setAndWake hw
  obtain rfl := Option.some.inj hr
  refine Eq.trans ?_ hwaits
  show (if woken.isEmpty then osSchedExitCritical k₁
    else osSchedRequestSwitchFromIsr (osSchedExitCritical k₁)).waits = _
  split <;> rfl

/-- `os_eventgroup_clear_bits` clears the bits, and moves nobody. -/
theorem waits_osEventgroupClearBits (k : Kernel) (e : Addr) (bits : BitVec 32) :
    (osEventgroupClearBits k e bits).1.waits = k.waits.setBits e (k.waits.bits e &&& ~~~bits) :=
  waits_setEventGroup (osSchedEnterCritical k) e _

/-- **What `os_eventgroup_wait_bits` does**: return, with bits cleared or not, or put its caller to
sleep with its condition unmet. -/
inductive EventTurn (k : Kernel) (e : Addr) (bits options : BitVec 32) (v : Waits) : Prop
  /-- It returns, with the bits cleared or not. -/
  | returns (b : BitVec 32) (hb : b = k.waits.bits e ∨ b = k.waits.bits e &&& ~~~bits)
      (h : v = k.waits.setBits e b)
  /-- Its caller goes to sleep. -/
  | sleeps (hun : eventSatisfied (k.waits.bits e) bits options = false) (n : Nat)
      (h : v = k.waits.setCurrent k.current fun p => p.eventWaiting e bits options n)

/-- `prv_block_task` puts the caller to sleep with its bits and options. -/
theorem waits_prvBlockTask {e : Addr} {bits options : BitVec 32} {n : Nat}
    (h : EventGroup.prvBlockTask k e c bits options n = some k') :
    k'.waits = k.waits.set c ((k.waits.phases c).eventWaiting e bits options n) := by
  rw [waits_blockTask (w := .eventGroup e) h, waits_setTcb, Waits.set_set, Waits.phases_set_self]
  rfl

/-- `os_eventgroup_wait_bits` returns, or puts its caller to sleep with its condition unmet. -/
theorem waits_osEventgroupWaitBits {e : Addr} {bits options : BitVec 32} {n : Nat}
    {r : Kernel × Outcome (BitVec 32)} (hc : k.current = some c)
    (h : osEventgroupWaitBits k e bits options n = some r) :
    EventTurn k e bits options r.1.waits := by
  have hsame : k.waits = k.waits.setBits e (k.waits.bits e) := by
    unfold Waits.setBits
    rw [Function.update_eq_self]
  cases hsat : eventSatisfied (k.eventGroups e).bits bits options with
  | true =>
      have hsat' : eventSatisfied ((osSchedEnterCritical k).eventGroups e).bits bits options
          = true := hsat
      rw [osEventgroupWaitBits, if_pos hsat'] at h
      obtain rfl := Option.some.inj h
      dsimp only
      rw [waits_osSchedExitCritical]
      split
      · exact .returns _ (Or.inr rfl) (waits_setEventGroup (osSchedEnterCritical k) e _)
      · exact .returns _ (Or.inl rfl) hsame
  | false =>
      rw [osEventgroupWaitBits_unmet hc hsat] at h
      split at h
      · obtain rfl := Option.some.inj h
        exact .returns _ (Or.inl rfl) hsame
      · obtain ⟨k', hk', rfl⟩ := Option.map_eq_some_iff.mp h
        refine .sleeps hsat n ?_
        rw [hc]
        have hw := waits_prvBlockTask hk'
        exact hw

/-! ## Mutexes -/

/-- A new priority is not part of a phase. -/
@[simp] theorem waits_osTaskSetPriority (k : Kernel) (t : TaskId) (p : Prio) :
    (osTaskSetPriority k t p).waits = k.waits := by
  unfold osTaskSetPriority
  dsimp only
  rw [waits_osSchedExitCritical]
  split
  · next hr =>
      -- a READY task stays READY in its new list
      have hphase : ({ (k.tcb t).phase with state := .ready } : Phase) = (k.tcb t).phase := by
        have hst : (k.tcb t).phase.state = .ready := Tcb.phase_state_ready.mpr (Or.inl hr)
        rw [← hst]
      rw [waits_osTaskAddToReady, waits_setTcb, Waits.set_set, Waits.phases_set_self]
      show k.waits.set t { (k.tcb t).phase with state := .ready } = k.waits
      rw [hphase]
      exact k.waits.set_self t
  · exact waits_setTcb_same rfl

/-- Boosting an owner moves nobody. -/
@[simp] theorem waits_prvBoostPriority (k : Kernel) (m : Addr) (p : Prio) :
    (Mutex.prvBoostPriority k m p).waits = k.waits := by
  unfold Mutex.prvBoostPriority
  split
  · rfl
  · split
    · exact waits_osTaskSetPriority ..
    · rfl

/-- Nor does restoring its priority. -/
@[simp] theorem waits_prvRestorePriority (k : Kernel) (m : Addr) :
    (Mutex.prvRestorePriority k m).waits = k.waits := by
  unfold Mutex.prvRestorePriority
  split
  · rfl
  · exact waits_osTaskSetPriority ..

/-- `os_mutex_lock` changes no phase, or puts its caller to sleep. -/
theorem waits_osMutexLock {m : Addr} {n : Nat} {r : Kernel × Outcome Status}
    (h : osMutexLock k m n = some r) :
    r.1.waits = k.waits ∨
      r.1.waits = k.waits.setCurrent k.current fun p => p.waiting (.mutex m) n := by
  obtain ⟨c, hc, h⟩ := Option.bind_eq_some_iff.mp h
  have hcur : k.current = some c := hc
  split at h
  · obtain rfl := Option.some.inj h
    exact Or.inl rfl
  · split at h
    · obtain rfl := Option.some.inj h
      exact Or.inl rfl
    · dsimp only at h
      split at h
      · obtain rfl := Option.some.inj h
        refine Or.inl ?_
        show (Mutex.prvBoostPriority (osSchedEnterCritical k) m _).waits = k.waits
        rw [waits_prvBoostPriority]
        rfl
      · obtain ⟨k₃, hk₃, h⟩ := Option.bind_eq_some_iff.mp h
        obtain rfl := Option.some.inj h
        refine Or.inr ?_
        have hw := waits_blockTask (w := .mutex m) hk₃
        rw [waits_prvBoostPriority] at hw
        rw [hcur]
        exact hw

/-- The full release wakes the first waiter. -/
theorem waits_release (k : Kernel) (m : Addr) :
    (Mutex.release k m).2.waits = k.wokenWaits (.mutex m) := by
  have hrestore := waits_prvRestorePriority k m
  have hhead : (Mutex.prvRestorePriority k m).waitHead (.mutex m) = k.waitHead (.mutex m) := by
    unfold Mutex.prvRestorePriority
    split
    · rfl
    · exact waitHead_osTaskSetPriority ..
  unfold Mutex.release
  set k₁ := Mutex.prvRestorePriority k m with hk₁
  set k₂ := k₁.setMutex m { k₁.mutexes m with owner := none } with hk₂
  have hhead₂ : k₂.waitHead (.mutex m) = k.waitHead (.mutex m) := by
    rw [← hhead]
    show (Function.update k₁.mutexes m { k₁.mutexes m with owner := none } m).waitList = _
    rw [Function.update_self]
    rfl
  have hw : (wakeTask k₂ (.mutex m)).2.waits = k.wokenWaits (.mutex m) :=
    (waits_wakeTask k₂ (.mutex m)).trans (wokenWaits_congr hrestore hhead₂)
  rw [← hw]
  show (Mutex.prvWakeAndTransfer k₂ m).2.waits = _
  unfold Mutex.prvWakeAndTransfer
  split
  · next heq => rw [heq]
  · next heq =>
      rw [heq]
      rfl

/-- `os_mutex_unlock` changes no phase, or wakes the first waiter. -/
theorem waits_osMutexUnlock {m : Addr} {r : Kernel × Status × Option TaskId}
    (h : osMutexUnlock k m = some r) : r.1.waits = k.waits ∨ r.1.waits = k.wokenWaits (.mutex m) := by
  obtain ⟨c, hc, -⟩ := Option.bind_eq_some_iff.mp h
  have hcur : k.current = some c := hc
  rw [osMutexUnlock_eq hcur] at h
  split at h
  · obtain rfl := Option.some.inj h
    exact Or.inl rfl
  · split at h
    · obtain rfl := Option.some.inj h
      exact Or.inl rfl
    · have hw : (Mutex.release (Mutex.dropLock k m) m).2.waits = k.wokenWaits (.mutex m) :=
        (waits_release _ m).trans (wokenWaits_congr rfl (Mutex.waitHead_dropLock k m))
      dsimp only at h
      split at h
      · obtain rfl := Option.some.inj h
        exact Or.inr hw
      · obtain rfl := Option.some.inj h
        refine Or.inr ?_
        rw [waits_yieldIf]
        exact hw

end MiniRTOS
