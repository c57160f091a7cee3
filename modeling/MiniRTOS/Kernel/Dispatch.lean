import MiniRTOS.Lib.Dispatch
import MiniRTOS.Kernel.MutexCalls
import MiniRTOS.Kernel.Waits

/-! # Wake-ups and switch requests

What each kernel call does to the two things a preemption depends on: the `Dispatch` state (who is
current, who is READY, at which priority) and the `Signals` (`yield_pending` and the PendSV pending
bit).

* **`Woke W k k'`** — the tasks `W` have become READY, and nothing else has changed for the scheduler.
* **`effect_...`** — for each call, the dispatch state and the signals it leaves. The tests before
  `os_sched_yield` are written out by hand in every call, and they differ. -/

namespace MiniRTOS

open PtrList

variable {k k' k'' : Kernel} {L : Layout} {t c : TaskId} {w : WaitList} {W V : Set TaskId}

/-! ## Dispatch state and signals -/

/-- Who is current, who is READY, and at which priority. -/
def Kernel.dispatch (k : Kernel) : Dispatch TaskId Prio where
  current := k.current
  ready := { t | t ∈ k.liveTcbs ∧ (k.tcb t).state = .ready }
  prio := k.prio

/-- How a context switch can be asked for. -/
@[ext]
structure Signals where
  /-- `scheduler_running`. -/
  running : Bool
  /-- `yield_pending`. -/
  yieldPending : Bool
  /-- The PendSV pending bit. -/
  pendSv : Bool

/-- The signals of a kernel state. -/
def Kernel.signals (k : Kernel) : Signals := ⟨k.schedulerRunning, k.yieldPending, k.pendSv⟩

/-- `os_sched_yield` on the signals. -/
def Signals.yield (g : Signals) : Signals :=
  ⟨g.running, g.running || g.yieldPending, g.running || g.pendSv⟩

/-- `os_sched_request_switch_from_isr` on the signals. -/
def Signals.request (g : Signals) : Signals := { g with yieldPending := true }

/-- Asking for a switch moves nobody. -/
@[simp] theorem dispatch_yieldIf (k : Kernel) (b : Prop) [Decidable b] :
    (if b then osSchedYield k else k).dispatch = k.dispatch := by
  split <;> rfl

/-- The signals after asking for one under a condition. -/
@[simp] theorem signals_yieldIf (k : Kernel) (b : Prop) [Decidable b] :
    (if b then osSchedYield k else k).signals = if b then k.signals.yield else k.signals := by
  split <;> rfl

/-- Nor does asking for one from an interrupt. -/
@[simp] theorem dispatch_requestIf (k : Kernel) (b : Prop) [Decidable b] :
    (if b then osSchedRequestSwitchFromIsr k else k).dispatch = k.dispatch := by
  split <;> rfl

/-- The signals after asking for one from an interrupt under a condition. -/
@[simp] theorem signals_requestIf (k : Kernel) (b : Prop) [Decidable b] :
    (if b then osSchedRequestSwitchFromIsr k else k).signals
      = if b then k.signals.request else k.signals := by
  split <;> rfl

/-! ## The list functions keep the signals -/

/-- The head of a wait list is no signal. -/
theorem signals_setWaitHead (k : Kernel) (h : Option TaskId) (w : WaitList) :
    (k.setWaitHead h w).signals = k.signals := by
  cases w <;> rfl

/-- Taking a task out of a wait list signals nothing. -/
theorem signals_unblockTask (k : Kernel) (w : WaitList) (t : TaskId) :
    (unblockTask k w t).signals = k.signals := by
  unfold unblockTask
  show (if (k.links.prev t).isSome then k else k.setWaitHead (k.links.next t) w).signals = _
  split
  · rfl
  · exact signals_setWaitHead ..

/-- Waking the first waiter signals nothing. -/
theorem signals_wakeTask (k : Kernel) (w : WaitList) : (wakeTask k w).2.signals = k.signals := by
  unfold wakeTask
  cases k.waitHead w with
  | none => rfl
  | some t => exact signals_unblockTask k w t

/-- Blocking a task signals nothing. -/
theorem signals_blockTask {timeout : Nat} {reason : BlockedReason} {owner : Obj}
    (h : blockTask k w t timeout reason owner = some k') : k'.signals = k.signals := by
  obtain ⟨⟨prev, iter⟩, -, h⟩ := Option.bind_eq_some_iff.mp h
  obtain rfl := Option.some.inj h
  unfold linkWaiter
  dsimp only
  split
  · rfl
  · exact signals_setWaitHead ..

/-- Waking one waiter of an event group signals nothing. -/
theorem signals_wakeWaiter (k : Kernel) (e : Addr) (t : TaskId) :
    (EventGroup.wakeWaiter k e t).signals = k.signals := by
  unfold EventGroup.wakeWaiter
  refine (signals_unblockTask _ _ _).trans ?_
  split <;> rfl

/-- Ticking one task signals nothing. -/
theorem signals_tickTask (k : Kernel) (t : TaskId) : (tickTask k t).signals = k.signals := by
  unfold tickTask
  split
  · dsimp only
    split
    · show (if _ then _ else _ : Kernel).signals = _
      split <;> rfl
    · rfl
  · rfl

/-- The walk over `blocked_list` signals nothing. -/
theorem signals_tickWalk {fuel : Nat} {i : Option TaskId} (h : tickWalk fuel k i = some k') :
    k'.signals = k.signals := by
  induction fuel generalizing k i with
  | zero =>
      cases i with
      | none =>
          obtain rfl := Option.some.inj h
          rfl
      | some t => cases h
  | succ fuel ih =>
      cases i with
      | none =>
          obtain rfl := Option.some.inj h
          rfl
      | some t => exact (ih h).trans (signals_tickTask k t)

/-- Freeing the deleted tasks signals nothing. -/
theorem signals_freeDeferred {fuel : Nat} {i : Option TaskId} (h : freeDeferred fuel k i = some k') :
    k'.signals = k.signals := by
  induction fuel generalizing k i with
  | zero =>
      cases i with
      | none =>
          obtain rfl := Option.some.inj h
          rfl
      | some t => cases h
  | succ fuel ih =>
      cases i with
      | none =>
          obtain rfl := Option.some.inj h
          rfl
      | some t =>
          refine (ih h).trans ?_
          show (if (k.tcb t).stackBase ≠ idleTaskStack then _ else k).signals = k.signals
          split <;> rfl

/-- **A tick asks for no switch.** -/
theorem signals_osTaskTick (h : osTaskTick k = some k') : k'.signals = k.signals := by
  obtain ⟨k₁, hwalk, h⟩ := Option.bind_eq_some_iff.mp h
  obtain ⟨k₂, hcheck, hfree⟩ := Option.bind_eq_some_iff.mp h
  have hmark : (updateHighWater k₁).signals = k₁.signals := by
    rcases updateHighWater_cases k₁ with he | ⟨c, n, he⟩
    · rw [he]
    · rw [he]
      rfl
  have hfree' : k'.signals = k₂.signals := by
    refine Eq.trans ?_ (rfl : (osSchedExitCritical
      { osSchedEnterCritical k₂ with deferredDeleteList := none }).signals = _)
    exact signals_freeDeferred hfree
  rw [hfree', osTaskCheckStackOverflow_eq hcheck, hmark, signals_tickWalk hwalk]

/-! ## Waking tasks -/

/-- **The tasks `W` have become READY**, and nothing else has changed for the scheduler. -/
structure Woke (W : Set TaskId) (k k' : Kernel) : Prop where
  /-- The dispatch state. -/
  dispatch : k'.dispatch = k.dispatch.wake W
  /-- The signals. -/
  signals : k'.signals = k.signals
  /-- The live tasks. -/
  live : k'.liveTcbs = k.liveTcbs
  /-- The tasks that could already run. -/
  kept : ∀ x, (k.tcb x).state = .ready ∨ (k.tcb x).state = .running → (k'.tcb x).state = (k.tcb x).state

namespace Woke

/-- Steps that change no control block. -/
theorem of_tcb (htcb : k'.tcb = k.tcb) (hlive : k'.liveTcbs = k.liveTcbs)
    (hcur : k'.current = k.current) (hg : k'.signals = k.signals) : Woke ∅ k k' := by
  refine ⟨?_, hg, hlive, fun x _ => by rw [htcb]⟩
  rw [Dispatch.wake_empty]
  unfold Kernel.dispatch Kernel.prio
  rw [htcb, hlive, hcur]

/-- One after the other. -/
theorem trans (h : Woke W k k') (h' : Woke V k' k'') : Woke (W ∪ V) k k'' := by
  refine ⟨?_, h'.signals.trans h.signals, h'.live.trans h.live, fun x hx => ?_⟩
  · rw [h'.dispatch, h.dispatch, Dispatch.wake_wake]
  · have hx' := h.kept x hx
    rw [← hx'] at hx
    exact (h'.kept x hx).trans hx'

/-- A live task that was BLOCKED or SUSPENDED goes READY. -/
theorem of_update {v : Tcb} (htcb : k'.tcb = Function.update k.tcb t v)
    (hlive : k'.liveTcbs = k.liveTcbs) (hcur : k'.current = k.current)
    (hg : k'.signals = k.signals) (ht : t ∈ k.liveTcbs)
    (hs : (k.tcb t).state ≠ .ready ∧ (k.tcb t).state ≠ .running)
    (hv : v.state = .ready) (hp : v.priority = k.prio t) : Woke {t} k k' := by
  have hprio : k'.prio = k.prio := by
    funext x
    show (k'.tcb x).priority = k.prio x
    rw [htcb, Function.update_apply]
    split
    · next hx => rw [hp, hx]
    · rfl
  refine ⟨?_, hg, hlive, fun x hx => ?_⟩
  · unfold Kernel.dispatch Dispatch.wake
    rw [hcur, hprio]
    congr 1
    ext x
    simp only [Set.mem_ofPred_eq, Set.mem_union, Set.mem_singleton_iff, hlive, htcb]
    by_cases hxt : x = t
    · subst hxt
      simp [ht, hv]
    · simp [hxt]
  · have hne : x ≠ t := by
      rintro rfl
      exact hx.elim hs.1 hs.2
    rw [htcb, Function.update_of_ne hne]

/-- A step that keeps state and priority of every task wakes nobody. -/
theorem of_same {v : Tcb} (hs : v.state = (k.tcb t).state) (hp : v.priority = k.prio t) :
    Woke ∅ k (k.setTcb t v) := by
  have hstate : ∀ x, ((k.setTcb t v).tcb x).state = (k.tcb x).state := by
    intro x
    show (Function.update k.tcb t v x).state = _
    rw [Function.update_apply]
    split
    · next hx => rw [hs, hx]
    · rfl
  have hprio : (k.setTcb t v).prio = k.prio := prio_setTcb hp
  refine ⟨?_, rfl, rfl, fun x _ => hstate x⟩
  rw [Dispatch.wake_empty]
  unfold Kernel.dispatch
  simp only [hprio, hstate]
  rfl

/-- The same, for a step that is known up to the lists. -/
theorem of_data {v : Tcb} (hd : k'.data = (k.setTcb t v).data) (hg : k'.signals = k.signals)
    (ht : t ∈ k.liveTcbs) (hs : (k.tcb t).state ≠ .ready ∧ (k.tcb t).state ≠ .running)
    (hv : v.state = .ready) (hp : v.priority = k.prio t) : Woke {t} k k' :=
  of_update (tcb_of_data hd) (liveTcbs_of_data hd : _) (current_of_data hd : _) hg ht
    hs hv hp

/-- Waking tasks leaves the current one. -/
theorem current (h : Woke W k k') : k'.current = k.current := (congrArg Dispatch.current h.dispatch : _)

/-- It leaves the priorities. -/
theorem prio (h : Woke W k k') (x : TaskId) : k'.prio x = k.prio x :=
  congrFun (congrArg Dispatch.prio h.dispatch : _) x

/-- Before and after bookkeeping. -/
theorem enterCritical (h : Woke W (osSchedEnterCritical k) k') : Woke W k k' :=
  ⟨h.dispatch, h.signals, h.live, h.kept⟩

/-- Woken tasks stay so behind the critical section. -/
theorem exitCritical (h : Woke W k k') : Woke W k (osSchedExitCritical k') :=
  ⟨h.dispatch, h.signals, h.live, h.kept⟩

end Woke

/-- A waiting task is live and BLOCKED. -/
theorem TaskListInv.waitHead_blocked (h : TaskListInv k L) (hw : k.waitHead w = some t) :
    t ∈ k.liveTcbs ∧ (k.tcb t).state = .blocked := by
  have hmem : t ∈ L (.wait w) := by
    have hhead : (L (.wait w)).head? = some t := (h.lists.head (.wait w)).symm.trans hw
    exact List.mem_of_mem_head? hhead
  have hlive := h.live _ t hmem
  exact ⟨hlive, ((h.placed t hlive _).mp hmem).1⟩

/-- The first waiter of a list, if any. -/
def Kernel.firstWaiter (k : Kernel) (w : WaitList) : Set TaskId := { t | k.waitHead w = some t }

/-- The first waiter of a list is more urgent than `c`. -/
def Kernel.headOutranks (k : Kernel) (w : WaitList) (c : TaskId) : Prop :=
  ∃ t ∈ k.waitHead w, k.prio t < k.prio c

/-- Whether the first waiter is more urgent can be decided. -/
instance (k : Kernel) (w : WaitList) (c : TaskId) : Decidable (k.headOutranks w c) :=
  inferInstanceAs (Decidable (∃ t ∈ k.waitHead w, _))

/-- **`prv_wake_task` wakes the first waiter.** -/
theorem woke_wakeTask (h : ∀ t, k.waitHead w = some t → t ∈ k.liveTcbs ∧ (k.tcb t).state = .blocked) :
    Woke (k.firstWaiter w) k (wakeTask k w).2 := by
  cases hw : k.waitHead w with
  | none =>
      have hnone : wakeTask k w = (none, k) := by simp only [wakeTask, hw]
      have hempty : k.firstWaiter w = ∅ := by
        ext x
        simp [Kernel.firstWaiter, hw]
      rw [hnone, hempty]
      exact Woke.of_tcb rfl rfl rfl rfl
  | some t =>
      obtain ⟨hlive, hs⟩ := h t hw
      have hone : k.firstWaiter w = {t} := by
        ext x
        simp [Kernel.firstWaiter, hw, eq_comm]
      rw [hone]
      exact Woke.of_data (data_wakeTask hw) (signals_wakeTask k w) hlive (by simp [hs]) rfl rfl

/-- With a first waiter, its priority decides. -/
theorem Kernel.headOutranks_some (hw : k.waitHead w = some t) (c : TaskId) :
    k.headOutranks w c ↔ k.prio t < k.prio c := by
  simp [Kernel.headOutranks, hw]

/-- Without one, nobody is more urgent. -/
theorem Kernel.headOutranks_none (hw : k.waitHead w = none) (c : TaskId) : ¬ k.headOutranks w c := by
  simp [Kernel.headOutranks, hw]

/-- Without waiters there is no first one. -/
theorem Kernel.firstWaiter_none (hw : k.waitHead w = none) : k.firstWaiter w = ∅ := by
  ext x
  simp [Kernel.firstWaiter, hw]

/-- The task that `prv_wake_task` returns, and the state it leaves, after some bookkeeping `k'`. -/
theorem TaskListInv.wakes (h : TaskListInv k' L) (hk : Woke ∅ k k')
    (hhead : k'.waitHead w = k.waitHead w) :
    ∃ k₂, MiniRTOS.wakeTask k' w = (k.waitHead w, k₂) ∧ Woke (k.firstWaiter w) k k₂ := by
  have hset : k'.firstWaiter w = k.firstWaiter w := by
    unfold Kernel.firstWaiter
    rw [hhead]
  refine ⟨_, Prod.ext ((wakeTask_fst k' w).trans hhead) rfl, ?_⟩
  have hwoke := hk.trans (woke_wakeTask (w := w) fun t ht => h.waitHead_blocked ht)
  rwa [Set.empty_union, hset] at hwoke

/-! ## Calls by tasks -/

/-- **What a call leaves to the scheduler.** -/
structure Effect (d : Dispatch TaskId Prio) (g : Signals) (k : Kernel) : Prop where
  /-- The dispatch state. -/
  dispatch : k.dispatch = d
  /-- The signals. -/
  signals : k.signals = g

/-- A wake-up without a request. -/
theorem Woke.effect (h : Woke W k k') : Effect (k.dispatch.wake W) k.signals k' :=
  ⟨h.dispatch, h.signals⟩

/-- A wake-up and a yield under some condition. -/
theorem Woke.effect_yieldIf (h : Woke W k k') {b b' : Prop} [Decidable b] [Decidable b']
    (hb : b ↔ b') :
    Effect (k.dispatch.wake W) (if b' then k.signals.yield else k.signals)
      (if b then osSchedYield k' else k') := by
  refine ⟨(dispatch_yieldIf ..).trans h.dispatch, ?_⟩
  rw [signals_yieldIf, h.signals]
  simp only [hb]

/-- Entering the critical section wakes nobody. -/
theorem woke_enterCritical (k : Kernel) : Woke ∅ k (osSchedEnterCritical k) :=
  Woke.of_tcb rfl rfl rfl rfl

/-- **`os_sem_give`** yields when the task it woke is more urgent than its caller. -/
theorem effect_osSemGive {a : Addr} (h : TaskListInv k L) (hc : k.current = some c) :
    ∃ r, osSemGive k a = some r ∧
      Effect (k.dispatch.wake (k.firstWaiter (.sem a)))
        (if k.headOutranks (.sem a) c then k.signals.yield else k.signals) r.1 := by
  obtain ⟨k₂, hwake, hwoke⟩ := h.enterCritical.wakes (w := .sem a) (woke_enterCritical k) rfl
  unfold osSemGive Sem.prvWakeTask
  cases hw : k.waitHead (.sem a) with
  | none =>
      rw [Kernel.firstWaiter_none hw, Dispatch.wake_empty, if_neg (Kernel.headOutranks_none hw c)]
      simp only [hwake, hw]
      split
      · refine ⟨_, rfl, ?_⟩
        exact ⟨rfl, rfl⟩
      · refine ⟨_, rfl, ?_⟩
        exact ⟨rfl, rfl⟩
  | some t =>
      have hcur := hwoke.exitCritical.current.trans hc
      simp only [hwake, hw, hcur, Option.bind_eq_bind, Option.bind_some]
      refine ⟨_, rfl, hwoke.exitCritical.effect_yieldIf ?_⟩
      rw [hwoke.exitCritical.prio, hwoke.exitCritical.prio, Kernel.headOutranks_some hw]

/-! ### Queues -/

/-- A ring write wakes nobody. -/
theorem woke_setQueue (k : Kernel) (q : Addr) (v : Queue) :
    Woke ∅ k ((osSchedEnterCritical k).setQueue q v) :=
  Woke.of_tcb rfl rfl rfl rfl

/-- **The test of the queue calls** also asks for a RUNNING caller. -/
theorem effect_preempt (h : Woke (k.firstWaiter w) k k') (hc : k.current = some c)
    (hs : (k.tcb c).state = .ready ∨ (k.tcb c).state = .running) :
    ∃ k'', Queue.preempt k' (k.waitHead w) = some k'' ∧
      Effect (k.dispatch.wake (k.firstWaiter w))
        (if k.headOutranks w c ∧ (k.tcb c).state = .running then k.signals.yield else k.signals)
        k'' := by
  unfold Queue.preempt
  cases hw : k.waitHead w with
  | none =>
      refine ⟨k', rfl, ?_⟩
      rw [if_neg fun hb => Kernel.headOutranks_none hw c hb.1]
      exact h.effect
  | some t =>
      simp only [h.current.trans hc, Option.bind_eq_bind, Option.bind_some]
      refine ⟨_, rfl, h.effect_yieldIf ?_⟩
      rw [h.prio, h.prio, h.kept c hs, Kernel.headOutranks_some hw]

/-- **What a queue call leaves**: its turn wakes the first task of `w`, otherwise it fails or puts its
caller to sleep. -/
structure TurnEffect (turn : Prop) (w : WaitList) (c : TaskId) (k k' : Kernel) : Prop where
  /-- An item is moved. -/
  moved : turn → Effect (k.dispatch.wake (k.firstWaiter w))
    (if k.headOutranks w c ∧ (k.tcb c).state = .running then k.signals.yield else k.signals) k'
  /-- None is. -/
  other : ¬ turn → k'.dispatch = k.dispatch ∨ k'.signals = k.signals.yield

/-- A queue call of a current task that can run wakes the first waiter of the other side, or blocks. -/
theorem effect_exchange {α : Type} {q : Addr} {p : Prop} [Decidable p] {qu : Queue} {w w' : WaitList}
    {a b : α} (timeout : Nat) (h : TaskListInv k L)
    (hsend : qu.sendWaitList = (k.queues q).sendWaitList)
    (hrecv : qu.recvWaitList = (k.queues q).recvWaitList) (hc : k.current = some c)
    (ht : c ∈ k.liveTcbs) (hs : (k.tcb c).state = .ready ∨ (k.tcb c).state = .running) :
    ∃ r, Queue.exchange k q p qu w w' a b timeout = some r ∧ TurnEffect p w c k r.1 := by
  by_cases hp : p
  · have h₁ : TaskListInv ((osSchedEnterCritical k).setQueue q qu) L :=
      h.enterCritical.setQueue hsend hrecv
    obtain ⟨k₂, hwake, hwoke⟩ := h₁.wakes (w := w) (woke_setQueue k q _)
      (waitHead_setQueue hsend hrecv w)
    obtain ⟨k₃, hk₃, heff⟩ := effect_preempt hwoke.exitCritical hc hs
    rw [Queue.exchange_served hp, hwake, hk₃]
    exact ⟨_, rfl, fun _ => heff, fun hno => absurd hp hno⟩
  · rw [Queue.exchange_unserved hc hp]
    split
    · exact ⟨_, rfl, fun hyes => absurd hyes hp, fun _ => Or.inl rfl⟩
    · obtain ⟨k', -, -, -, hk', -⟩ := h.enterCritical.enqueue (w := w') timeout ht hs
      rw [hk']
      have hg : k'.signals = (osSchedEnterCritical k).signals := signals_blockTask hk'
      exact ⟨_, rfl, fun hyes => absurd hyes hp, fun _ => Or.inr (congrArg Signals.yield hg)⟩

/-- A send wakes the first receiver if there is a free slot. -/
theorem effect_osQueueSend {q : Addr} (item : ByteMemory.Mem) (timeout : Nat) (h : TaskListInv k L)
    (hc : k.current = some c) (ht : c ∈ k.liveTcbs)
    (hs : (k.tcb c).state = .ready ∨ (k.tcb c).state = .running) :
    ∃ r, osQueueSend k q item timeout = some r ∧
      TurnEffect ((k.queues q).count < (k.queues q).maxItems) (.queueRecv q) c k r.1 := by
  rw [osQueueSend_eq_exchange]
  exact effect_exchange timeout h rfl rfl hc ht hs

/-- A receive wakes the first sender if there is an item. -/
theorem effect_osQueueReceive {q : Addr} (timeout : Nat) (h : TaskListInv k L)
    (hc : k.current = some c) (ht : c ∈ k.liveTcbs)
    (hs : (k.tcb c).state = .ready ∨ (k.tcb c).state = .running) :
    ∃ r, osQueueReceive k q timeout = some r ∧
      TurnEffect (0 < (k.queues q).count) (.queueSend q) c k r.1 := by
  rw [osQueueReceive_eq_exchange]
  exact effect_exchange timeout h rfl rfl hc ht hs

/-- The ring write of the overwriting calls. -/
theorem woke_overwriteSlot {q : Addr} (item : ByteMemory.Mem) (h : TaskListInv k L) :
    ∃ k₂, Queue.overwriteSlot (osSchedEnterCritical k) q item
        = (if (k.queues q).count = 0 then k.waitHead (.queueRecv q) else none, k₂) ∧
      Woke (if (k.queues q).count = 0 then k.firstWaiter (.queueRecv q) else ∅) k k₂ := by
  unfold Queue.overwriteSlot
  by_cases hz : (k.queues q).count = 0
  · have hz' : ((osSchedEnterCritical k).queues q).count = 0 := hz
    simp only [if_pos hz, if_pos hz']
    have h₁ : TaskListInv ((osSchedEnterCritical k).setQueue q
        { (k.queues q).put item with count := 1 }) L := h.enterCritical.setQueue rfl rfl
    exact h₁.wakes (w := .queueRecv q) (woke_setQueue k q _)
      (waitHead_setQueue (by rfl) (by rfl) _)
  · have hz' : ¬ ((osSchedEnterCritical k).queues q).count = 0 := hz
    simp only [if_neg hz, if_neg hz']
    exact ⟨_, rfl, woke_setQueue k q _⟩

/-- An overwriting send wakes the first receiver if the mailbox was empty. -/
theorem effect_osQueueOverwrite {q : Addr} (item : ByteMemory.Mem) (h : TaskListInv k L)
    (hc : k.current = some c) (hs : (k.tcb c).state = .ready ∨ (k.tcb c).state = .running) :
    TurnEffect ((k.queues q).maxItems = 1 ∧ (k.queues q).count = 0) (.queueRecv q) c k
      (osQueueOverwrite k q item).1 := by
  obtain ⟨k₂, hslot, hwoke⟩ := woke_overwriteSlot (q := q) item h
  unfold osQueueOverwrite
  have hmax : ((osSchedEnterCritical k).queues q).maxItems = (k.queues q).maxItems := rfl
  simp only [hmax, hslot]
  by_cases hone : (k.queues q).maxItems = 1
  · rw [if_neg (not_not.mpr hone)]
    have hcur : (osSchedExitCritical k₂).current = some c := hwoke.current.trans hc
    by_cases hz : (k.queues q).count = 0
    · rw [if_pos hz] at hwoke ⊢
      refine ⟨fun _ => ?_, fun hno => absurd ⟨hone, hz⟩ hno⟩
      cases hw : k.waitHead (.queueRecv q) with
      | none =>
          rw [if_neg fun hb => Kernel.headOutranks_none hw c hb.1]
          exact hwoke.exitCritical.effect
      | some t =>
          simp only [hcur]
          refine hwoke.exitCritical.effect_yieldIf ?_
          rw [hwoke.exitCritical.prio, hwoke.exitCritical.prio, hwoke.exitCritical.kept c hs,
            Kernel.headOutranks_some hw]
    · rw [if_neg hz] at hwoke ⊢
      refine ⟨fun hyes => absurd hyes.2 hz, fun _ => Or.inl ?_⟩
      exact hwoke.exitCritical.dispatch.trans (Dispatch.wake_empty _)
  · rw [if_pos hone]
    exact ⟨fun hyes => absurd hyes.1 hone, fun _ => Or.inl rfl⟩

/-! ### Notifications, resuming, priorities -/

/-- The task waits in `os_task_notify_wait`. -/
def Kernel.awaitsNotify (k : Kernel) (t : TaskId) : Prop :=
  (k.tcb t).state = .blocked ∧ (k.tcb t).blockedReason = .onNotify

/-- Whether a task waits for a notification can be decided. -/
instance (k : Kernel) (t : TaskId) : Decidable (k.awaitsNotify t) := inferInstanceAs (Decidable (_ ∧ _))

/-- **A notification wakes a target that waits for one.** -/
theorem woke_notifyTask (v : BitVec 32) (ht : t ∈ k.liveTcbs) :
    ∃ k₂, notifyTask (osSchedEnterCritical k) t v = (decide (k.awaitsNotify t), k₂) ∧
      Woke (if k.awaitsNotify t then {t} else ∅) k k₂ := by
  set x : Tcb := { k.tcb t with notifyValue := v, notifyPending := true } with hx
  set k₁ := (osSchedEnterCritical k).setTcb t x with hk₁
  have htcb : k₁.tcb = Function.update k.tcb t x := rfl
  have hself : k₁.tcb t = x := Function.update_self ..
  unfold notifyTask
  have hfold : (osSchedEnterCritical k).setTcb t
      { (osSchedEnterCritical k).tcb t with notifyValue := v, notifyPending := true } = k₁ := rfl
  simp only [hfold]
  have hcond : ((k₁.tcb t).state = .blocked ∧ (k₁.tcb t).blockedReason = .onNotify)
      ↔ k.awaitsNotify t := by
    rw [hself]
    exact Iff.rfl
  by_cases hw : k.awaitsNotify t
  · rw [if_pos (hcond.mpr hw), if_pos hw, decide_eq_true hw]
    refine ⟨_, rfl, ?_⟩
    refine Woke.of_update (v := { x with
        blockedReason := .none, delayTicks := 0, timedOut := false, state := .ready })
      ?_ rfl rfl rfl ht (by simp [hw.1]) rfl rfl
    show Function.update (Function.update k₁.tcb t _) t _ = _
    rw [htcb]
    simp only [Function.update_idem]
    congr 1
    simp [Kernel.setTcb, osTaskRemoveFromBlocked, hself]
  · rw [if_neg (hcond.not.mpr hw), if_neg hw, decide_eq_false hw]
    have hsame : Woke ∅ (osSchedEnterCritical k) k₁ := Woke.of_same rfl rfl
    exact ⟨k₁, rfl, hsame.enterCritical⟩

/-- **`os_task_notify`** yields when the task it woke is more urgent than its caller. -/
theorem effect_osTaskNotify (v : BitVec 32) (ht : t ∈ k.liveTcbs) (hc : k.current = some c) :
    ∃ r, osTaskNotify k t v = some r ∧
      Effect (k.dispatch.wake (if k.awaitsNotify t then {t} else ∅))
        (if k.awaitsNotify t ∧ k.prio t < k.prio c then k.signals.yield else k.signals) r.1 := by
  obtain ⟨k₂, hnotify, hwoke⟩ := woke_notifyTask v ht
  have hcur := hwoke.exitCritical.current.trans hc
  unfold osTaskNotify
  simp only [hnotify]
  by_cases hw : k.awaitsNotify t
  · simp only [hw, decide_true, if_true, hcur, Option.bind_eq_bind, Option.bind_some, true_and] at hwoke ⊢
    refine ⟨_, rfl, hwoke.exitCritical.effect_yieldIf ?_⟩
    rw [hwoke.exitCritical.prio, hwoke.exitCritical.prio]
  · simp only [hw, decide_false, Bool.false_eq_true, if_false, false_and] at hwoke ⊢
    exact ⟨_, rfl, hwoke.exitCritical.effect⟩

/-- **`os_task_resume`** wakes a SUSPENDED task, and asks for nothing. -/
theorem woke_osTaskResume (ht : t ∈ k.liveTcbs) :
    Woke (if (k.tcb t).state = .suspended then {t} else ∅) k (osTaskResume k t) := by
  unfold osTaskResume
  have hstate : ((osSchedEnterCritical k).tcb t).state = (k.tcb t).state := rfl
  simp only [hstate]
  by_cases hs : (k.tcb t).state = .suspended
  · rw [if_pos hs, if_pos hs]
    exact Woke.of_data (v := { k.tcb t with state := .ready }) rfl rfl ht (by simp [hs]) rfl rfl
  · rw [if_neg hs, if_neg hs]
    exact (woke_enterCritical k).exitCritical

/-- `os_task_set_priority` writes one field, whatever list the task is in. -/
theorem tcb_osTaskSetPriority (k : Kernel) (t : TaskId) (p : Prio) :
    (osTaskSetPriority k t p).tcb = Function.update k.tcb t { k.tcb t with priority := p } := by
  unfold osTaskSetPriority
  dsimp only
  split
  · next hs =>
      have hs' : (k.tcb t).state = .ready := hs
      show Function.update (Function.update k.tcb t _) t _ = _
      rw [Function.update_idem]
      congr 1
      show { Function.update k.tcb t _ t with state := .ready } = _
      rw [Function.update_self, ← hs']
      rfl
  · rfl

/-- The parts that `os_task_set_priority` does not touch. -/
theorem osTaskSetPriority_frame (k : Kernel) (t : TaskId) (p : Prio) :
    (osTaskSetPriority k t p).liveTcbs = k.liveTcbs ∧ (osTaskSetPriority k t p).current = k.current ∧
      (osTaskSetPriority k t p).signals = k.signals ∧
      ∀ x, ((osTaskSetPriority k t p).tcb x).state = (k.tcb x).state := by
  refine ⟨?_, ?_, ?_, fun x => ?_⟩
  · unfold osTaskSetPriority
    dsimp only
    split <;> rfl
  · unfold osTaskSetPriority
    dsimp only
    split <;> rfl
  · unfold osTaskSetPriority
    dsimp only
    split <;> rfl
  · rw [tcb_osTaskSetPriority, Function.update_apply]
    split
    · next hx => rw [hx]
    · rfl

/-- **`os_task_set_priority`** changes one priority, and asks for nothing. -/
theorem effect_osTaskSetPriority (k : Kernel) (t : TaskId) (p : Prio) :
    Effect (k.dispatch.setPrio t p) k.signals (osTaskSetPriority k t p) := by
  obtain ⟨hlive, hcur, hg, hstate⟩ := osTaskSetPriority_frame k t p
  refine ⟨?_, hg⟩
  have hprio : (osTaskSetPriority k t p).prio = Function.update k.prio t p := by
    funext x
    show ((osTaskSetPriority k t p).tcb x).priority = _
    rw [tcb_osTaskSetPriority, Function.update_apply, Function.update_apply]
    split <;> rfl
  unfold Kernel.dispatch Dispatch.setPrio
  simp only [hprio, hstate, hlive, hcur]

/-! ### Creating a task -/

/-- `os_task_create` accepts its arguments, and the heap gives what it asks for. -/
def CreateArgs.accepted (a : CreateArgs) (k : Kernel) : Prop :=
  a.func.isSome ∧ a.priority < numPriorities ∧ k.taskTable.length < maxTasks ∧ 128 ≤ a.stackSize ∧
    (a.stackBuf.or a.stackBlock).isSome ∧ a.tcbBlock.isSome

/-- Whether a creation is accepted can be decided. -/
instance (a : CreateArgs) (k : Kernel) : Decidable (a.accepted k) := inferInstanceAs (Decidable (_ ∧ _))

/-- A task created at priority `p` is READY, and nothing asks for a switch. -/
theorem effect_initTask {func param : BitVec 32} {p : Prio} {stack : Addr} {size : Nat} :
    Effect ((k.dispatch.setPrio t p).wake {t}) k.signals (initTask k func param p stack size t) := by
  obtain ⟨sp, mem, hpair⟩ : ∃ sp mem, osPortStackInit (prvFillStack k.stackMem stack size) func param
      stack size = (sp, mem) := ⟨_, _, rfl⟩
  have htcb : (initTask k func param p stack size t).tcb
      = Function.update k.tcb t (newTcb stack size p sp) := by
    simp only [initTask, hpair]
    show Function.update (Function.update k.tcb t _) t _ = _
    rw [Function.update_idem]
    congr 1
    show { Function.update k.tcb t _ t with state := .ready } = _
    rw [Function.update_self]
    rfl
  have hlive : (initTask k func param p stack size t).liveTcbs = k.liveTcbs ++ [t] := by
    simp only [initTask, hpair]
    rfl
  have hcur : (initTask k func param p stack size t).current = k.current := by
    simp only [initTask, hpair]
    rfl
  refine ⟨?_, ?_⟩
  · have hprio : (initTask k func param p stack size t).prio = Function.update k.prio t p := by
      funext x
      show ((initTask k func param p stack size t).tcb x).priority = _
      rw [htcb, Function.update_apply, Function.update_apply]
      split <;> rfl
    unfold Kernel.dispatch Dispatch.setPrio Dispatch.wake
    simp only [hprio, hlive, hcur, htcb]
    congr 1
    ext x
    simp only [Set.mem_ofPred_eq, Set.mem_union, Set.mem_singleton_iff, List.mem_append,
      List.mem_singleton]
    by_cases hxt : x = t
    · subst hxt
      simp [newTcb]
    · simp [hxt]
  · simp only [initTask, hpair]
    rfl

/-- **`os_task_create`** asks for no switch. -/
theorem effect_osTaskCreate (k : Kernel) (a : CreateArgs) :
    (¬ a.accepted k → Effect k.dispatch k.signals (osTaskCreate k a).2.2) ∧
      (a.accepted k → ∃ t, ∃ p : Prio, a.tcbBlock = some t ∧ p.val = a.priority ∧
        Effect ((k.dispatch.setPrio t p).wake {t}) k.signals (osTaskCreate k a).2.2) := by
  unfold osTaskCreate CreateArgs.accepted
  rcases hf : a.func with _ | func
  · exact ⟨fun _ => ⟨rfl, rfl⟩, fun hacc => by simp at hacc⟩
  by_cases hp : a.priority < numPriorities
  · simp only [dif_pos hp]
    by_cases hfull : k.taskTable.length ≥ maxTasks
    · rw [if_pos hfull]
      exact ⟨fun _ => ⟨rfl, rfl⟩, fun hacc => absurd hacc.2.2.1 (by omega)⟩
    rw [if_neg hfull]
    by_cases hsize : a.stackSize < 128
    · rw [if_pos hsize]
      exact ⟨fun _ => ⟨rfl, rfl⟩, fun hacc => absurd hacc.2.2.2.1 (by omega)⟩
    rw [if_neg hsize]
    rcases hstack : a.stackBuf.or a.stackBlock with _ | stack
    · exact ⟨fun _ => ⟨rfl, rfl⟩, fun hacc => by simp at hacc⟩
    rcases htcb : a.tcbBlock with _ | t
    · refine ⟨fun _ => ?_, fun hacc => by simp at hacc⟩
      show Effect _ _ (if a.stackBuf.isSome then k else freeStack k stack)
      split <;> exact ⟨rfl, rfl⟩
    · refine ⟨fun hno => absurd ⟨rfl, hp, by omega, by omega, rfl, rfl⟩ hno, fun _ => ?_⟩
      exact ⟨t, ⟨a.priority, hp⟩, rfl, rfl, effect_initTask⟩
  · simp only [dif_neg hp]
    exact ⟨fun _ => ⟨rfl, rfl⟩, fun hacc => absurd hacc.2.1 hp⟩

/-! ### Unlocking a mutex -/

/-- `prv_wake_and_transfer` wakes the first waiter. -/
theorem woke_prvWakeAndTransfer {m : Addr}
    (h : ∀ t, k.waitHead (.mutex m) = some t → t ∈ k.liveTcbs ∧ (k.tcb t).state = .blocked) :
    ∃ k₂, Mutex.prvWakeAndTransfer k m = (k.waitHead (.mutex m), k₂) ∧
      Woke (k.firstWaiter (.mutex m)) k k₂ := by
  have hwoke := woke_wakeTask h
  have hfst := wakeTask_fst k (.mutex m)
  unfold Mutex.prvWakeAndTransfer
  split
  · next k₁ heq =>
      rw [heq] at hfst hwoke
      exact ⟨k₁, Prod.ext hfst rfl, hwoke⟩
  · next t k₁ heq =>
      rw [heq] at hfst hwoke
      exact ⟨_, Prod.ext hfst rfl, hwoke.dispatch, hwoke.signals, hwoke.live, hwoke.kept⟩

/-- **The full release**: the owner falls back to the priority the mutex remembers, and the first
waiter is woken. Nothing is asked of the lists. -/
theorem effect_release {m : Addr} (ho : (k.mutexes m).owner = some c)
    (h : ∀ t, k.waitHead (.mutex m) = some t → t ∈ k.liveTcbs ∧ (k.tcb t).state = .blocked) :
    ∃ k₂, Mutex.release k m = (k.waitHead (.mutex m), k₂) ∧
      Effect ((k.dispatch.setPrio c (k.mutexes m).originalPrio).wake (k.firstWaiter (.mutex m)))
        k.signals k₂ := by
  have hrestore : Mutex.prvRestorePriority k m = osTaskSetPriority k c (k.mutexes m).originalPrio := by
    unfold Mutex.prvRestorePriority
    rw [ho]
  set k₁ := osTaskSetPriority k c (k.mutexes m).originalPrio with hk₁
  have hset : Effect (k.dispatch.setPrio c (k.mutexes m).originalPrio) k.signals k₁ :=
    effect_osTaskSetPriority k c _
  obtain ⟨hlive, -, -, hstate⟩ := osTaskSetPriority_frame k c (k.mutexes m).originalPrio
  set k₂ := k₁.setMutex m { k₁.mutexes m with owner := none } with hk₂
  have hhead : k₂.waitHead (.mutex m) = k.waitHead (.mutex m) := by
    show (Function.update k₁.mutexes m _ m).waitList = _
    rw [Function.update_self]
    exact waitHead_osTaskSetPriority k c _ (.mutex m)
  obtain ⟨k₃, hk₃, hwoke⟩ := woke_prvWakeAndTransfer (k := k₂) (m := m) fun t ht => by
    obtain ⟨hl, hb⟩ := h t (hhead ▸ ht)
    refine ⟨?_, (hstate t).trans hb⟩
    show t ∈ k₁.liveTcbs
    rw [hk₁, hlive]
    exact hl
  have hfirst : k₂.firstWaiter (.mutex m) = k.firstWaiter (.mutex m) := by
    unfold Kernel.firstWaiter
    rw [hhead]
  have hdispatch : k₂.dispatch = k.dispatch.setPrio c (k.mutexes m).originalPrio := hset.dispatch
  refine ⟨k₃, ?_, ?_, hwoke.signals.trans hset.signals⟩
  · unfold Mutex.release
    rw [hrestore, ← hhead]
    exact hk₃
  · rw [hwoke.dispatch, hdispatch, hfirst]

/-- **`os_mutex_unlock`** compares the task it woke with the restored priority of its caller, and does
not look at other READY tasks. -/
theorem effect_osMutexUnlock {m : Addr} (h : TaskListInv k L) (hc : k.current = some c)
    (hs : (k.tcb c).state = .ready ∨ (k.tcb c).state = .running) :
    ∃ r, osMutexUnlock k m = some r ∧
      (¬ ((k.mutexes m).owner = some c ∧ (k.mutexes m).lastLock) →
        Effect k.dispatch k.signals r.1) ∧
      ((k.mutexes m).owner = some c ∧ (k.mutexes m).lastLock →
        Effect ((k.dispatch.setPrio c (k.mutexes m).originalPrio).wake (k.firstWaiter (.mutex m)))
          (if ∃ t ∈ k.waitHead (.mutex m), k.prio t < (k.mutexes m).originalPrio
            then k.signals.yield else k.signals) r.1) := by
  rw [osMutexUnlock_eq hc]
  split
  · next hne => exact ⟨_, rfl, fun _ => ⟨rfl, rfl⟩, fun hyes => absurd hyes.1 hne⟩
  · next hne =>
      have ho : (k.mutexes m).owner = some c := not_not.mp hne
      set k₂ := Mutex.dropLock k m with hk₂
      have hm₂ := Mutex.mutexes_dropLock k m
      have hhead : k₂.waitHead (.mutex m) = k.waitHead (.mutex m) := Mutex.waitHead_dropLock k m
      split
      · next hmore => exact ⟨_, rfl, fun _ => ⟨rfl, rfl⟩, fun hyes => absurd hyes.2 hmore⟩
      · next hz =>
          have hlast : (k.mutexes m).lastLock := not_not.mp hz
          have hblocked : ∀ t, k₂.waitHead (.mutex m) = some t →
              t ∈ k.liveTcbs ∧ (k.tcb t).state = .blocked :=
            fun t ht => h.waitHead_blocked (hhead.symm.trans ht)
          obtain ⟨k₃, hk₃, heff⟩ := effect_release (k := k₂) (m := m) (c := c) (by rw [hm₂]; exact ho)
            hblocked
          have hfirst : k₂.firstWaiter (.mutex m) = k.firstWaiter (.mutex m) := by
            unfold Kernel.firstWaiter
            rw [hhead]
          have horig : (k₂.mutexes m).originalPrio = (k.mutexes m).originalPrio := by rw [hm₂]
          rw [hfirst, horig] at heff
          have hprio : ∀ x, (osSchedExitCritical k₃).prio x
              = Function.update k.prio c (k.mutexes m).originalPrio x :=
            fun x => congrFun (congrArg Dispatch.prio heff.dispatch : _) x
          rw [hk₃, hhead]
          cases hw : k.waitHead (.mutex m) with
          | none =>
              refine ⟨_, rfl, fun hno => absurd ⟨ho, hlast⟩ hno, fun _ => ?_⟩
              rw [if_neg (by simp)]
              exact ⟨heff.dispatch, heff.signals⟩
          | some t =>
              have htc : t ≠ c := by
                rintro rfl
                have hb := (h.waitHead_blocked hw).2
                simp [hb] at hs
              refine ⟨_, rfl, fun hno => absurd ⟨ho, hlast⟩ hno, fun _ => ?_⟩
              simp only [hprio, Function.update_self, Function.update_of_ne htc, Option.mem_def,
                Option.some.injEq, exists_eq_left']
              refine ⟨(dispatch_yieldIf ..).trans heff.dispatch, ?_⟩
              rw [signals_yieldIf]
              have hg : (osSchedExitCritical k₃).signals = k.signals := heff.signals
              rw [hg]

/-! ### Setting event bits -/

/-- **The waiters that a call of `os_eventgroup_set_bits` wakes**, from the waiter `i` and the bits `b`
on: a waiter with CLEAR_ON_EXIT leaves fewer bits to those behind it. -/
def EventGroup.satisfiedWaiters (k : Kernel) : Nat → BitVec 32 → Option TaskId → List TaskId
  | _, _, none => []
  | 0, _, some _ => []
  | fuel + 1, b, some t =>
      if (k.tcb t).phase.satisfied b then
        t :: satisfiedWaiters k fuel ((k.tcb t).phase.leaves b) (k.links.next t)
      else satisfiedWaiters k fuel b (k.links.next t)

/-- The waiters of `e` that setting `bits` wakes. -/
def Kernel.eventWakes (k : Kernel) (e : Addr) (bits : BitVec 32) : List TaskId :=
  EventGroup.satisfiedWaiters k maxTasks ((k.eventGroups e).bits ||| bits) (k.waitHead (.eventGroup e))

/-- Only the waiters themselves are looked at. -/
theorem satisfiedWaiters_congr {rest : List TaskId} (hp : Path k.links.next rest none)
    (hp' : Path k'.links.next rest none) (hph : ∀ x ∈ rest, (k'.tcb x).phase = (k.tcb x).phase)
    (fuel : Nat) (b : BitVec 32) :
    EventGroup.satisfiedWaiters k' fuel b rest.head?
      = EventGroup.satisfiedWaiters k fuel b rest.head? := by
  induction rest generalizing fuel b with
  | nil => cases fuel <;> rfl
  | cons t rest ih =>
      cases fuel with
      | zero => rfl
      | succ fuel =>
          have hnext : k.links.next t = rest.head? := by simpa using hp.1
          have hnext' : k'.links.next t = rest.head? := by simpa using hp'.1
          have ih' := ih hp.2 hp'.2 fun x hx => hph x (List.mem_cons_of_mem _ hx)
          rw [List.head?_cons, EventGroup.satisfiedWaiters, EventGroup.satisfiedWaiters, hnext, hnext',
            hph t (List.mem_cons_self ..), ih', ih']

/-- Waking a waiter of an event group, wherever it stands. -/
theorem woke_wakeWaiter {e : Addr} (ht : t ∈ k.liveTcbs) (hs : (k.tcb t).state = .blocked) :
    Woke {t} k (EventGroup.wakeWaiter k e t) := by
  have hview := view_wakeWaiter k e t
  set x : Tcb := { k.tcb t with eventReturnBits := (k.eventGroups e).bits } with hx
  set k₂ := if ((k.setTcb t x).tcb t).eventWaitOptions &&& eventClearOnExit ≠ 0 then
      (k.setTcb t x).setEventGroup e { k.eventGroups e with
        bits := (k.eventGroups e).bits &&& ~~~((k.setTcb t x).tcb t).eventWaitBits }
    else k.setTcb t x with hk₂
  have htcb₂ : k₂.tcb = Function.update k.tcb t x := by
    rw [hk₂]
    split <;> rfl
  have htcb₃ : (unblockTask k₂ (.eventGroup e) t).tcb
      = Function.update k.tcb t { x with blockedOn := none, blockedReason := .none } := by
    rw [tcb_of_data (data_unblockTask k₂ (.eventGroup e) t)]
    show Function.update k₂.tcb t _ = _
    rw [htcb₂, Function.update_self, Function.update_idem]
  refine Woke.of_update (v := { x with
      blockedOn := none, blockedReason := .none, delayTicks := 0, timedOut := false, state := .ready })
    ?_ (congrArg View.live hview : _) (congrArg View.current hview : _) (signals_wakeWaiter k e t) ht
    (by simp [hs]) rfl rfl
  show Function.update (Function.update (unblockTask k₂ (.eventGroup e) t).tcb t _) t _ = _
  rw [htcb₃, Function.update_idem, Function.update_idem]
  simp only [Kernel.setTcb, Function.update_self]

/-- **The walk of `os_eventgroup_set_bits` wakes the satisfied waiters.** -/
theorem woke_wakeWalk {e : Addr} {rest : List TaskId} {fuel : Nat} {r : Kernel × List TaskId}
    (done woken : List TaskId) (h : TaskListInv k L)
    (hl : L (.wait (.eventGroup e)) = done ++ rest)
    (hr : EventGroup.wakeWalk e fuel k woken rest.head? = some r) :
    r.2 = woken ++ EventGroup.satisfiedWaiters k fuel (k.eventGroups e).bits rest.head? ∧
      Woke { t | t ∈ EventGroup.satisfiedWaiters k fuel (k.eventGroups e).bits rest.head? } k r.1 := by
  induction rest generalizing k L done woken fuel with
  | nil =>
      have hnil : EventGroup.satisfiedWaiters k fuel (k.eventGroups e).bits ([] : List TaskId).head? = [] := by
        cases fuel <;> rfl
      rw [List.head?_nil, EventGroup.wakeWalk] at hr
      rw [hnil, ← Option.some.inj hr]
      refine ⟨(List.append_nil _).symm, ?_⟩
      simpa using (Woke.of_tcb rfl rfl rfl rfl : Woke ∅ k k)
  | cons t rest ih =>
      have hmem : t ∈ L (.wait (.eventGroup e)) := by simp [hl]
      have hlive := h.live _ t hmem
      have hblocked : (k.tcb t).state = .blocked := ((h.placed t hlive _).mp hmem).1
      have hseg : k.links.Seg none (done ++ t :: rest) none :=
        hl ▸ h.lists.seg (.wait (.eventGroup e)) (by simp)
      have hpath : Path k.links.next rest none := ((path_append _ _ _ _).mp hseg.path).2.2
      have hnext := h.next_waiter hl
      have hnd := hl ▸ h.lists.nodup (.wait (.eventGroup e))
      cases fuel with
      | zero => cases hr
      | succ fuel =>
          have hcheck : EventGroup.prvCheckCondition k e t
              = (k.tcb t).phase.satisfied (k.eventGroups e).bits := rfl
          rw [List.head?_cons, EventGroup.wakeWalk, hnext, hcheck] at hr
          rw [List.head?_cons, EventGroup.satisfiedWaiters, hnext]
          split at hr
          · next hsat =>
              obtain ⟨L₁, h₁, -, hl₁⟩ := h.wakeWaiter_mid hl
              have hwaits := waits_wakeWaiter k e t
              set k₁ := EventGroup.wakeWaiter k e t with hk₁
              have htr : t ∉ rest := (List.nodup_cons.mp (List.nodup_append.mp hnd).2.1).1
              have hseg₁ : k₁.links.Seg none (done ++ rest) none :=
                hl₁ ▸ h₁.lists.seg (.wait (.eventGroup e)) (by simp)
              have hpath₁ : Path k₁.links.next rest none := ((path_append _ _ _ _).mp hseg₁.path).2
              have hph : ∀ x ∈ rest, (k₁.tcb x).phase = (k.tcb x).phase := fun x hx => by
                have hxt : x ≠ t := fun hxt => htr (hxt ▸ hx)
                have hphase := congrFun (congrArg Waits.phases hwaits) x
                exact hphase.trans (Function.update_of_ne hxt _ _)
              have hbits : (k₁.eventGroups e).bits = (k.tcb t).phase.leaves (k.eventGroups e).bits := by
                have hbit := congrFun (congrArg Waits.bits hwaits) e
                exact hbit.trans (Function.update_self ..)
              obtain ⟨hlist, hwoke⟩ := ih done (woken ++ [t]) h₁ hl₁ hr
              rw [hbits, satisfiedWaiters_congr hpath hpath₁ hph] at hlist hwoke
              rw [if_pos hsat]
              refine ⟨by rw [hlist, List.append_assoc, List.singleton_append], ?_⟩
              have htrans := (woke_wakeWaiter (e := e) hlive hblocked).trans hwoke
              convert htrans using 1
              ext x
              simp
          · next hsat =>
              rw [if_neg hsat]
              exact ih (done ++ [t]) woken h (by simp [hl]) hr

/-- The critical section of the setting calls. -/
theorem woke_setAndWake {e : Addr} (bits : BitVec 32) (h : TaskListInv k L) :
    ∃ k₂, EventGroup.setAndWake (osSchedEnterCritical k) e bits = some (k₂, k.eventWakes e bits) ∧
      Woke { t | t ∈ k.eventWakes e bits } k k₂ := by
  obtain ⟨⟨k₂, woken⟩, hr, -⟩ := EventGroup.setAndWake_inv (e := e) bits h.enterCritical
  have h₁ := h.enterCritical.setEventBits (e := e) ((k.eventGroups e).bits ||| bits)
  set k₁ := (osSchedEnterCritical k).setEventGroup e
    { (osSchedEnterCritical k).eventGroups e with bits := (k.eventGroups e).bits ||| bits } with hk₁
  have hhead := h₁.lists.head (.wait (.eventGroup e))
  have hhead' : k.waitHead (.eventGroup e) = (L (.wait (.eventGroup e))).head? :=
    h.lists.head (.wait (.eventGroup e))
  have hbits : (k₁.eventGroups e).bits = (k.eventGroups e).bits ||| bits := by
    show (Function.update k.eventGroups e _ e).bits = _
    rw [Function.update_self]
  have hr' : EventGroup.wakeWalk e maxTasks k₁ [] (L (.wait (.eventGroup e))).head?
      = some (k₂, woken) := by
    rw [← hhead]
    exact hr
  obtain ⟨hlist, hwoke⟩ := woke_wakeWalk [] [] h₁ rfl hr'
  have hsame : EventGroup.satisfiedWaiters k₁ maxTasks (k₁.eventGroups e).bits
      (L (.wait (.eventGroup e))).head? = k.eventWakes e bits := by
    have hpath := (h.lists.seg (.wait (.eventGroup e)) (by simp)).path
    have hpath₁ : Path k₁.links.next (L (.wait (.eventGroup e))) none := hpath
    rw [hbits, satisfiedWaiters_congr hpath hpath₁ fun _ _ => rfl, ← hhead']
    rfl
  rw [hsame] at hlist hwoke
  have hlist' : woken = k.eventWakes e bits := hlist
  refine ⟨k₂, by rw [hr, hlist'], ?_⟩
  · have hbook : Woke ∅ k k₁ := Woke.of_tcb rfl rfl rfl rfl
    have htrans := hbook.trans hwoke
    rwa [Set.empty_union] at htrans

/-- **`os_eventgroup_set_bits`** yields when a task it woke is more urgent than its caller. -/
theorem effect_osEventgroupSetBits {e : Addr} (bits : BitVec 32) (h : TaskListInv k L)
    (hc : k.current = some c) :
    ∃ r, osEventgroupSetBits k e bits = some r ∧
      Effect (k.dispatch.wake { t | t ∈ k.eventWakes e bits })
        (if ∃ t ∈ k.eventWakes e bits, k.prio t < k.prio c then k.signals.yield else k.signals)
        r.1 := by
  obtain ⟨k₂, hset, hwoke⟩ := woke_setAndWake (e := e) bits h
  have hcur := hwoke.exitCritical.current.trans hc
  unfold osEventgroupSetBits
  simp only [hset, Option.bind_eq_bind, Option.bind_some]
  split
  · next hempty =>
      refine ⟨_, rfl, ?_⟩
      rw [List.isEmpty_iff] at hempty
      rw [if_neg (by simp [hempty])]
      exact hwoke.exitCritical.effect
  · rw [hcur]
    refine ⟨_, rfl, hwoke.exitCritical.effect_yieldIf ?_⟩
    simp [hwoke.exitCritical.prio]

/-! ## Calls from interrupts -/

/-- **What a call from an interrupt leaves**: tasks woken, and `yield_pending` set when there are
any. -/
structure Requested (W : Set TaskId) (k k' : Kernel) : Prop where
  /-- The dispatch state. -/
  dispatch : k'.dispatch = k.dispatch.wake W
  /-- The PendSV bit is left alone. -/
  pendSv : k'.pendSv = k.pendSv
  /-- A wake-up is noted. -/
  yieldPending : W.Nonempty → k'.yieldPending = true

/-- A wake-up, with a request when somebody was woken. -/
theorem Woke.requestIf (h : Woke W k k') {b : Prop} [Decidable b] (hb : W.Nonempty → b) :
    Requested W k (if b then osSchedRequestSwitchFromIsr k' else k') := by
  have hpend : k'.pendSv = k.pendSv := congrArg Signals.pendSv h.signals
  refine ⟨(dispatch_requestIf ..).trans h.dispatch, ?_, fun hne => ?_⟩
  · split <;> exact hpend
  · rw [if_pos (hb hne)]
    rfl

/-- Nobody is woken. -/
theorem Woke.requested (h : Woke ∅ k k') : Requested ∅ k k' :=
  ⟨h.dispatch, congrArg Signals.pendSv h.signals, fun hne => absurd hne Set.not_nonempty_empty⟩

/-- A take from an interrupt makes nobody READY. -/
theorem requested_osSemTakeFromIsr (k : Kernel) (a : Addr) : Requested ∅ k (osSemTakeFromIsr k a).1 := by
  refine Woke.requested (Woke.of_tcb ?_ ?_ ?_ ?_)
  all_goals
    unfold osSemTakeFromIsr
    dsimp only
    split <;> rfl

/-- A give from an interrupt makes the first waiter READY. -/
theorem requested_osSemGiveFromIsr {a : Addr} (h : TaskListInv k L) :
    Requested (k.firstWaiter (.sem a)) k (osSemGiveFromIsr k a).1 := by
  obtain ⟨k₂, hwake, hwoke⟩ := h.enterCritical.wakes (w := .sem a) (woke_enterCritical k) rfl
  unfold osSemGiveFromIsr Sem.prvWakeTask
  cases hw : k.waitHead (.sem a) with
  | none =>
      simp only [hwake, hw]
      rw [Kernel.firstWaiter_none hw]
      split
      · exact Woke.requested ⟨(Dispatch.wake_empty _).symm, rfl, rfl, fun _ _ => rfl⟩
      · exact (woke_enterCritical k).exitCritical.requested
  | some t =>
      simp only [hwake, hw]
      have hreq := hwoke.exitCritical.requestIf (b := True) fun _ => trivial
      rwa [if_pos trivial] at hreq

/-- The tail of the queue calls from interrupts. -/
theorem requested_woken (h : Woke (k.firstWaiter w) k k') :
    Requested (k.firstWaiter w) k
      (if (k.waitHead w).isSome then osSchedRequestSwitchFromIsr k' else k') :=
  h.requestIf fun ⟨t, ht⟩ => by rw [(ht : k.waitHead w = some t)]; rfl

/-- A send from an interrupt makes the first receiver READY if there is a free slot. -/
theorem requested_osQueueSendFromIsr {q : Addr} (item : ByteMemory.Mem) (h : TaskListInv k L) :
    Requested (if (k.queues q).count < (k.queues q).maxItems then k.firstWaiter (.queueRecv q) else ∅) k
      (osQueueSendFromIsr k q item).1 := by
  unfold osQueueSendFromIsr Queue.prvWakeTask
  by_cases hroom : (k.queues q).count < (k.queues q).maxItems
  · have hroom' : ((osSchedEnterCritical k).queues q).count
        < ((osSchedEnterCritical k).queues q).maxItems := hroom
    have h₁ : TaskListInv ((osSchedEnterCritical k).setQueue q ((k.queues q).put item)) L :=
      h.enterCritical.setQueue rfl rfl
    obtain ⟨k₂, hwake, hwoke⟩ := h₁.wakes (w := .queueRecv q) (woke_setQueue k q _)
      (waitHead_setQueue (by rfl) (by rfl) _)
    have hwake' : wakeTask ((osSchedEnterCritical k).setQueue q
        (((osSchedEnterCritical k).queues q).put item)) (.queueRecv q) = _ := hwake
    simp only [if_pos hroom, if_pos hroom', hwake']
    exact requested_woken hwoke.exitCritical
  · have hroom' : ¬ ((osSchedEnterCritical k).queues q).count
        < ((osSchedEnterCritical k).queues q).maxItems := hroom
    simp only [if_neg hroom, if_neg hroom']
    exact (woke_enterCritical k).exitCritical.requested

/-- A receive from an interrupt makes the first sender READY if there is an item. -/
theorem requested_osQueueReceiveFromIsr {q : Addr} (h : TaskListInv k L) :
    Requested (if 0 < (k.queues q).count then k.firstWaiter (.queueSend q) else ∅) k
      (osQueueReceiveFromIsr k q).1 := by
  unfold osQueueReceiveFromIsr Queue.prvWakeTask
  by_cases hitem : 0 < (k.queues q).count
  · have hitem' : ((osSchedEnterCritical k).queues q).count > 0 := hitem
    have h₁ : TaskListInv ((osSchedEnterCritical k).setQueue q (k.queues q).pop) L :=
      h.enterCritical.setQueue rfl rfl
    obtain ⟨k₂, hwake, hwoke⟩ := h₁.wakes (w := .queueSend q) (woke_setQueue k q _)
      (waitHead_setQueue (by rfl) (by rfl) _)
    have hwake' : wakeTask ((osSchedEnterCritical k).setQueue q
        ((osSchedEnterCritical k).queues q).pop) (.queueSend q) = _ := hwake
    simp only [if_pos hitem, if_pos hitem', hwake']
    exact requested_woken hwoke.exitCritical
  · have hitem' : ¬ ((osSchedEnterCritical k).queues q).count > 0 := hitem
    simp only [if_neg hitem, if_neg hitem']
    exact (woke_enterCritical k).exitCritical.requested

/-- An overwriting send from an interrupt makes the first receiver READY if the mailbox was empty. -/
theorem requested_osQueueOverwriteFromIsr {q : Addr} (item : ByteMemory.Mem) (h : TaskListInv k L) :
    Requested (if (k.queues q).maxItems = 1 ∧ (k.queues q).count = 0 then k.firstWaiter (.queueRecv q)
      else ∅) k (osQueueOverwriteFromIsr k q item).1 := by
  obtain ⟨k₂, hslot, hwoke⟩ := woke_overwriteSlot (q := q) item h
  unfold osQueueOverwriteFromIsr
  have hmax : ((osSchedEnterCritical k).queues q).maxItems = (k.queues q).maxItems := rfl
  simp only [hmax, hslot]
  by_cases hone : (k.queues q).maxItems = 1
  · rw [if_neg (not_not.mpr hone)]
    by_cases hz : (k.queues q).count = 0
    · simp only [hone, hz, and_self, if_true] at hwoke ⊢
      exact requested_woken hwoke.exitCritical
    · simp only [hone, hz, and_false, if_false] at hwoke ⊢
      exact hwoke.exitCritical.requested
  · simp only [hone, false_and, if_false, ne_eq, not_false_eq_true, if_true]
    exact (woke_enterCritical k).exitCritical.requested

/-- A notification from an interrupt makes its target READY if that one waits for it. -/
theorem requested_osTaskNotifyFromIsr (v : BitVec 32) (ht : t ∈ k.liveTcbs) :
    Requested (if k.awaitsNotify t then {t} else ∅) k (osTaskNotifyFromIsr k t v).1 := by
  obtain ⟨k₂, hnotify, hwoke⟩ := woke_notifyTask v ht
  unfold osTaskNotifyFromIsr
  simp only [hnotify, decide_eq_true_eq]
  have hreq := hwoke.requestIf (b := k.awaitsNotify t) fun ⟨x, hx⟩ => by
    by_contra hno
    rw [if_neg hno] at hx
    exact hx
  exact ⟨hreq.dispatch, hreq.pendSv, hreq.yieldPending⟩

/-- Bits set from an interrupt make those waiters READY that they satisfy. -/
theorem requested_osEventgroupSetBitsFromIsr {e : Addr} (bits : BitVec 32) (h : TaskListInv k L) :
    ∃ r, osEventgroupSetBitsFromIsr k e bits = some r ∧
      Requested { t | t ∈ k.eventWakes e bits } k r.1 := by
  obtain ⟨k₂, hset, hwoke⟩ := woke_setAndWake (e := e) bits h
  unfold osEventgroupSetBitsFromIsr
  simp only [hset, Option.bind_eq_bind, Option.bind_some]
  refine ⟨_, rfl, ?_⟩
  have hreq := hwoke.exitCritical.requestIf (b := ¬ (k.eventWakes e bits).isEmpty = true)
    fun ⟨t, ht⟩ hempty => by
      rw [List.isEmpty_iff] at hempty
      rw [Set.mem_ofPred_eq, hempty] at ht
      exact List.not_mem_nil ht
  rwa [ite_not] at hreq

/-! ## The tick -/

/-- The tasks whose delay ends at the next tick. -/
def Kernel.expired (k : Kernel) : Set TaskId :=
  { t | t ∈ k.liveTcbs ∧ (k.tcb t).state = .blocked ∧ (k.tcb t).blockedOn = none ∧
    (k.tcb t).delayTicks = 1 }

/-- Who is READY after the tick. -/
theorem TaskListInv.ready_ticked (h : TaskListInv k L) (hticked : Ticked k k' L)
    (ht : t ∈ k.liveTcbs) :
    (k'.tcb t).state = .ready ↔ (k.tcb t).state = .ready ∨ t ∈ k.expired := by
  have hplace := h.placed t ht .blocked
  rw [hticked.state]
  by_cases hb : t ∈ L .blocked
  · obtain ⟨hs, ho⟩ := hplace.mp hb
    simp [Kernel.expired, ht, hs, ho, hb]
  · rw [if_neg fun hand => hb hand.1]
    refine (or_iff_left ?_).symm
    rintro ⟨-, hs, ho, -⟩
    exact hb (hplace.mpr ⟨hs, ho⟩)

/-- **`os_task_tick` wakes the tasks whose delay ends.** -/
theorem dispatch_osTaskTick (h : TaskListInv k L) (hk : osTaskTick k = some k') :
    k'.dispatch = k.dispatch.wake k.expired := by
  have hcan : k.canaryIntact := by
    by_contra hcan
    rw [h.osTaskTick_halts hcan] at hk
    cases hk
  obtain ⟨k₁, hk₁, -, hticked⟩ := h.osTaskTick hcan
  obtain rfl : k₁ = k' := Option.some.inj (hk₁.symm.trans hk)
  have hcur : k₁.current = k.current := (congrArg Kernel.current hticked.data : _)
  have hprio : k₁.prio = k.prio := by
    funext x
    obtain ⟨n, hn⟩ := hticked.fields x
    show (k₁.tcb x).priority = _
    rw [hn]
    rfl
  have hready : ∀ x, x ∈ k₁.liveTcbs ∧ (k₁.tcb x).state = .ready ↔
      (x ∈ k.liveTcbs ∧ (k.tcb x).state = .ready) ∨ x ∈ k.expired := by
    intro x
    have hlive : x ∈ k₁.liveTcbs ↔ x ∈ k.liveTcbs ∧ x ∉ L .deferred := by
      rw [hticked.live]
      exact List.Nodup.mem_sdiff_iff h.liveNodup
    rw [hlive]
    constructor
    · rintro ⟨⟨hx, -⟩, hs⟩
      exact ((h.ready_ticked hticked hx).mp hs).imp_left fun hs => ⟨hx, hs⟩
    · -- a task that goes READY was not on the deferred-delete list
      rintro (⟨hx, hs⟩ | hx)
      · refine ⟨⟨hx, fun hd => ?_⟩, (h.ready_ticked hticked hx).mpr (Or.inl hs)⟩
        have hdel : (k.tcb x).state = .deleted := (h.placed x hx .deferred).mp hd
        simp [hs] at hdel
      · refine ⟨⟨hx.1, fun hd => ?_⟩, (h.ready_ticked hticked hx.1).mpr (Or.inr hx)⟩
        have hdel : (k.tcb x).state = .deleted := (h.placed x hx.1 .deferred).mp hd
        simp [hx.2.1] at hdel
  unfold Kernel.dispatch Dispatch.wake
  rw [hcur, hprio]
  congr 1
  ext x
  exact hready x

end MiniRTOS
