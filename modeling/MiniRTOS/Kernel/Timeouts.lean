import MiniRTOS.Kernel.MutexInv

/-! # Timeouts of blocking calls

`prv_block_task` stores the timeout in `delay_ticks` and links the task into the wait list of the
object; `os_task_tick` counts down `delay_ticks` of the tasks in `blocked_list`. A waiting task is in
one list only, so the tick never sees it: no wait ever times out. -/

namespace MiniRTOS

open PtrList Runs ByteMemory

variable {s s' s₁ s₀ : Sys} {L L' : Layout} {op : Op} {c : TaskId} {w : WaitList} {k k' : Kernel}

/-! ## Blocking calls -/

/-- The wait list that a blocking call can enter, and its timeout. -/
def Op.wait : Op → Option (WaitList × Nat)
  | .queueSend q _ t => some (.queueSend q, t)
  | .queueReceive q t => some (.queueRecv q, t)
  | .semTake a t => some (.sem a, t)
  | .mutexLock m t => some (.mutex m, t)
  | .eventWait e _ _ t => some (.eventGroup e, t)
  | _ => none

/-- `c` waits in `w` by its control block. -/
def Kernel.WaitsIn (k : Kernel) (c : TaskId) (w : WaitList) : Prop :=
  (k.tcb c).state = .blocked ∧ (k.tcb c).blockedOn = some w.obj ∧ (k.tcb c).blockedReason = w.reason

/-- `prv_block_task` leaves the task waiting. -/
theorem blockTask_waitsIn {timeout : Nat} (h : blockTask k w c timeout w.reason w.obj = some k') :
    k'.WaitsIn c w := by
  unfold blockTask at h
  obtain ⟨⟨prev, iter⟩, -, h⟩ := Option.bind_eq_some_iff.mp h
  have htcb : ∀ k₃ : Kernel, (linkWaiter k₃ w c prev iter).tcb = k₃.tcb := fun k₃ =>
    tcb_of_data (data_linkWaiter k₃ w c prev iter)
  obtain rfl := Option.some.inj h
  unfold Kernel.WaitsIn
  rw [htcb]
  simp [Kernel.setTcb, osTaskRemoveFromReady]

/-- Yielding at the end of a call changes no control block. -/
theorem Kernel.WaitsIn.yield (h : k.WaitsIn c w) : (osSchedYield (osSchedExitCritical k)).WaitsIn c w := h

/-- A queue call that blocks puts its caller into the wait list. -/
theorem exchange_blocked {α : Type} {q : Addr} {p : Prop} [Decidable p] {qu : Queue} {w w' : WaitList}
    {a b : α} {n : Nat} (hc : k.current = some c)
    (h : Queue.exchange k q p qu w w' a b n = some (k', .blocked)) : k'.WaitsIn c w' := by
  rcases Queue.exchange_cases h with ⟨-, k₁, -, hr⟩ | ⟨-, hr⟩ | ⟨-, c', k₁, hc', hk₁, hr⟩
  · cases (Prod.mk.inj hr).2
  · cases (Prod.mk.inj hr).2
  · obtain rfl : c = c' := Option.some.inj (hc.symm.trans hc')
    obtain rfl := (Prod.mk.inj hr).1
    exact (blockTask_waitsIn hk₁).yield

/-- A send that blocks waits among the senders. -/
theorem osQueueSend_blocked {q : Addr} {item : Mem} {n : Nat} (hc : k.current = some c)
    (h : osQueueSend k q item n = some (k', .blocked)) : k'.WaitsIn c (.queueSend q) :=
  exchange_blocked hc (osQueueSend_eq_exchange k q item n ▸ h)

/-- A receive that blocks waits among the receivers. -/
theorem osQueueReceive_blocked {q : Addr} {n : Nat} (hc : k.current = some c)
    (h : osQueueReceive k q n = some (k', .blocked)) : k'.WaitsIn c (.queueRecv q) :=
  exchange_blocked hc (osQueueReceive_eq_exchange k q n ▸ h)

/-- A take that blocks waits for the semaphore. -/
theorem osSemTake_blocked {a : Addr} {n : Nat} (hc : k.current = some c)
    (h : osSemTake k a n = some (k', .blocked)) : k'.WaitsIn c (.sem a) := by
  by_cases hpos : 0 < (k.sems a).count
  · have hpos' : ((osSchedEnterCritical k).sems a).count > 0 := hpos
    rw [osSemTake, if_pos hpos'] at h
    cases (Prod.mk.inj (Option.some.inj h)).2
  · rw [osSemTake_empty hc hpos] at h
    split at h
    · cases (Prod.mk.inj (Option.some.inj h)).2
    · obtain ⟨k₁, hk₁, h⟩ := Option.map_eq_some_iff.mp h
      obtain rfl := (Prod.mk.inj h).1
      exact (blockTask_waitsIn (w := .sem a) hk₁).yield

/-- A wait that blocks waits for the event group. -/
theorem osEventgroupWaitBits_blocked {e : Addr} {bits options : BitVec 32} {n : Nat}
    (hc : k.current = some c) (h : osEventgroupWaitBits k e bits options n = some (k', .blocked)) :
    k'.WaitsIn c (.eventGroup e) := by
  cases hsat : eventSatisfied (k.eventGroups e).bits bits options with
  | true =>
      have hsat' : eventSatisfied ((osSchedEnterCritical k).eventGroups e).bits bits options
          = true := hsat
      rw [osEventgroupWaitBits, if_pos hsat'] at h
      cases (Prod.mk.inj (Option.some.inj h)).2
  | false =>
      rw [osEventgroupWaitBits_unmet hc hsat] at h
      split at h
      · cases (Prod.mk.inj (Option.some.inj h)).2
      · obtain ⟨k₁, hk₁, h⟩ := Option.map_eq_some_iff.mp h
        obtain rfl := (Prod.mk.inj h).1
        exact (blockTask_waitsIn (w := .eventGroup e) hk₁).yield

/-- A lock that blocks waits for the mutex. -/
theorem osMutexLock_blocked {m : Addr} {n : Nat} (hc : k.current = some c)
    (h : osMutexLock k m n = some (k', .blocked)) : k'.WaitsIn c (.mutex m) := by
  have hcur : (osSchedEnterCritical k).current = some c := hc
  unfold osMutexLock at h
  simp only [hcur, Option.bind_eq_bind, Option.bind_some] at h
  split at h
  · cases (Prod.mk.inj (Option.some.inj h)).2
  · split at h
    · cases (Prod.mk.inj (Option.some.inj h)).2
    · split at h
      · cases (Prod.mk.inj (Option.some.inj h)).2
      · obtain ⟨k₁, hk₁, h⟩ := Option.bind_eq_some_iff.mp h
        obtain rfl := (Prod.mk.inj (Option.some.inj h)).1
        exact (blockTask_waitsIn (w := .mutex m) hk₁).yield

/-- A call that its caller has not left has put it to sleep. -/
theorem Sys.blockingCall_blocked {α : Type} {f : Option (Kernel × Outcome α)} {call : Call}
    {ret : TaskId → Sys → α → Sys} (hc : s.kernel.current = some c) (hidle : s.call c = .idle)
    (hs : (do
      let c ← s.kernel.current
      let (k, r) ← f
      some ((s.after k).outcome c call (ret c) r)) = some s₁)
    (hb : s₁.call c ≠ .idle) (hret : ∀ c s a, (ret c s a).call = s.call) :
    f = some (s₁.kernel, .blocked) := by
  obtain ⟨c', k, r, hc', hr, rfl⟩ := Sys.blockingCall_inv hs
  obtain rfl : c = c' := Option.some.inj (hc.symm.trans hc')
  cases r with
  | done a =>
      rw [Sys.outcome, hret] at hb
      exact absurd hidle hb
  | blocked => exact hr

/-- **A call that blocks leaves its caller waiting** for the object. -/
theorem step_blocks {t : Nat} (hop : op.wait = some (w, t)) (hc : s.kernel.current = some c)
    (hidle : s.call c = .idle) (hs : step s op = some s₁) (hb : s₁.call c ≠ .idle) :
    s₁.kernel.WaitsIn c w := by
  cases op with
  | queueSend q item n =>
      obtain ⟨rfl, rfl⟩ := Prod.mk.inj (Option.some.inj hop)
      exact osQueueSend_blocked hc (Sys.blockingCall_blocked hc hidle hs hb fun _ _ _ => rfl)
  | queueReceive q n =>
      obtain ⟨rfl, rfl⟩ := Prod.mk.inj (Option.some.inj hop)
      exact osQueueReceive_blocked hc (Sys.blockingCall_blocked hc hidle hs hb fun _ _ _ => rfl)
  | semTake a n =>
      obtain ⟨rfl, rfl⟩ := Prod.mk.inj (Option.some.inj hop)
      exact osSemTake_blocked hc (Sys.blockingCall_blocked hc hidle hs hb fun _ _ _ => rfl)
  | mutexLock m n =>
      obtain ⟨rfl, rfl⟩ := Prod.mk.inj (Option.some.inj hop)
      exact osMutexLock_blocked hc (Sys.blockingCall_blocked hc hidle hs hb fun _ _ _ => rfl)
  | eventWait e bits options n =>
      obtain ⟨rfl, rfl⟩ := Prod.mk.inj (Option.some.inj hop)
      exact osEventgroupWaitBits_blocked hc
        (Sys.blockingCall_blocked hc hidle hs hb fun _ _ _ => rfl)
  | _ => cases hop

/-- Blocking calls are made by the current task, outside any other call. -/
theorem Op.Allowed.waiter {t : Nat} (ha : op.Allowed s) (hwait : op.wait = some (w, t))
    (hc : s.kernel.current = some c) :
    c ∈ s.kernel.liveTcbs ∧
      ((s.kernel.tcb c).state = .ready ∨ (s.kernel.tcb c).state = .running) ∧ s.call c = .idle := by
  have hcaller : op.caller = .task := by
    cases op with
    | queueSend | queueReceive | semTake | mutexLock | eventWait => rfl
    | _ => cases hwait
  have hperm := ha.1
  rw [hcaller] at hperm
  obtain ⟨c', hc', hl, hst, hidle⟩ := Sys.Permits.task hperm
  obtain rfl : c = c' := Option.some.inj (hc.symm.trans hc')
  exact ⟨hl, hst, hidle⟩

/-- The caller is still alive. -/
theorem LockInv.caller_live {t : Nat} (h : LockInv s L) (hop : s.ProperUse op)
    (hwait : op.wait = some (w, t)) (hc : s.kernel.current = some c)
    (hs : MiniRTOS.step s op = some s₁) : c ∈ s₁.kernel.liveTcbs := by
  obtain ⟨hl, hst, -⟩ := hop.1.waiter hwait hc
  have hdel : (s.kernel.tcb c).state ≠ .deleted := by
    rcases hst with hst | hst <;> simp [hst]
  by_cases hcalm : op.calm = true
  · have htick : op = .tick → s.kernel.canaryIntact := by
      rintro rfl
      cases hwait
    obtain ⟨s', L', hs', -, hc'⟩ := step_calm h.tasks.lists hop.1 hcalm htick
    obtain rfl : s₁ = s' := Option.some.inj (hs.symm.trans hs')
    exact (hc'.live c hl hdel).1
  · cases op with
    | mutexLock m n =>
        rcases h.lock_layout hc hl hst hs with ⟨-, L', -, hc'⟩ | ⟨-, L', l, r, hq⟩
        · exact (hc'.live c hl hdel).1
        · exact (hq.calm.live c hl hdel).1
    | queueSend | queueReceive | semTake | eventWait => exact absurd rfl hcalm
    | _ => cases hwait

/-! ## Ticks -/

/-- `n` calls of `os_task_tick`. -/
def ticks : Nat → Kernel → Option Kernel
  | 0, k => some k
  | n + 1, k => (osTaskTick k).bind (ticks n)

/-- A tick leaves every wait list alone. -/
theorem TaskListInv.tick_wait (h : TaskListInv k L)
    (hk : MiniRTOS.osTaskTick k = some k') :
    ∃ L', TaskListInv k' L' ∧ ∀ w, L' (.wait w) = L (.wait w) := by
  by_cases hcan : k.canaryIntact
  · obtain ⟨k'', hk'', h', -⟩ := h.osTaskTick hcan
    obtain rfl : k' = k'' := Option.some.inj (hk.symm.trans hk'')
    refine ⟨_, h', fun w => ?_⟩
    rw [Layout.set_of_ne _ _ (by simp)]
    rfl
  · rw [h.osTaskTick_halts hcan] at hk
    cases hk

/-- **However many ticks pass, every wait list stays as it is.** -/
theorem TaskListInv.ticks_wait {n : Nat} (h : TaskListInv k L) (hk : ticks n k = some k') :
    ∃ L', TaskListInv k' L' ∧ ∀ w, L' (.wait w) = L (.wait w) := by
  induction n generalizing k L with
  | zero =>
      obtain rfl := Option.some.inj hk
      exact ⟨L, h, fun _ => rfl⟩
  | succ n ih =>
      obtain ⟨k₁, hk₁, hk⟩ := Option.bind_eq_some_iff.mp hk
      obtain ⟨L₁, h₁, hw₁⟩ := h.tick_wait hk₁
      obtain ⟨L', h', hw'⟩ := ih h₁ hk
      exact ⟨L', h', fun w => (hw' w).trans (hw₁ w)⟩

/-- **The wait of `c` in `w` has timed out**: the task is READY in its ready list, out of the wait
list, with `timed_out` set and `blocked_on` cleared. -/
def Expired (k : Kernel) (c : TaskId) (w : WaitList) : Prop :=
  ∃ L, TaskListInv k L ∧ c ∉ L (.wait w) ∧ c ∈ L (.ready (k.prio c)) ∧ (k.tcb c).state = .ready ∧
    (k.tcb c).timedOut = true ∧ (k.tcb c).blockedOn = none

/-- **The wait of `c` in `w` times out after exactly `n` ticks**, and the other waiters keep their
order. -/
def TimesOut (k : Kernel) (c : TaskId) (w : WaitList) (n : Nat) : Prop :=
  (∃ k', ticks n k = some k' ∧ Expired k' c w ∧
    ∀ L L', TaskListInv k L → TaskListInv k' L' → L' (.wait w) = (L (.wait w)).erase c) ∧
  ∀ i < n, ∀ k', ticks i k = some k' → ¬ Expired k' c w

/-- A task takes an empty semaphore with timeout 3. -/
def semTimeoutTrace : List Op := [.create (taskAt 0x100 3), .selectNext]

end MiniRTOS
