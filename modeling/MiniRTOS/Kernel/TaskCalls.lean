import Mathlib.Data.List.Lattice
import MiniRTOS.Kernel.TaskInv
import MiniRTOS.Kernel.Notify

/-! # The task calls on layouts

For each function of `task.c`, `scheduler.c` and `notify.c`: it returns (the walks have fuel enough),
it keeps the task list invariant, and the layout and the control blocks after it. -/

namespace MiniRTOS

open PtrList

variable {k k' : Kernel} {L L' : Layout} {t c : TaskId} {w : WaitList}

/-! ## Bookkeeping -/

/-- Whoever owns the memory at `t` writes it. -/
def Kernel.scribble (k : Kernel) (t : TaskId) (v : Tcb) (nx pv : Option TaskId) : Kernel :=
  (k.setLinks ((k.links.setNext t nx).setPrev t pv)).setTcb t v

namespace TaskListInv

/-- Entering a critical section keeps the invariant. -/
theorem enterCritical (h : TaskListInv k L) : TaskListInv (osSchedEnterCritical k) L :=
  h.of_data h.lists.enterCritical (data_osSchedEnterCritical k)

/-- So does leaving one. -/
theorem exitCritical (h : TaskListInv k L) : TaskListInv (osSchedExitCritical k) L :=
  h.of_data h.lists.exitCritical (data_osSchedExitCritical k)

/-- So does asking for a switch. -/
theorem yield (h : TaskListInv k L) : TaskListInv (osSchedYield k) L :=
  h.of_data h.lists.yield (data_osSchedYield k)

/-- So does asking for one from an interrupt. -/
theorem requestSwitch (h : TaskListInv k L) : TaskListInv (osSchedRequestSwitchFromIsr k) L :=
  h.of_data h.lists.requestSwitch (data_osSchedRequestSwitchFromIsr k)

/-- Memory that is no live control block can be rewritten freely. -/
theorem scribble (h : TaskListInv k L) (ht : t ∉ k.liveTcbs) (v : Tcb) (nx pv : Option TaskId) :
    TaskListInv (k.scribble t v nx pv) L := by
  have hnot : ∀ P, t ∉ L P := fun P hP => ht (h.live P t hP)
  have hne : ∀ x ∈ k.liveTcbs, x ≠ t := fun x hx hxt => ht (hxt ▸ hx)
  have hlists : ListsOk (k.setLinks ((k.links.setNext t nx).setPrev t pv)) L := by
    refine h.lists.relink hnot (fun x hx => ?_) (fun x hx => ?_) rfl rfl (listHead_setLinks k _)
    · exact Function.update_of_ne hx _ _
    · exact Function.update_of_ne hx _ _
  refine ⟨hlists.setTcb t v, h.live, fun x hx P => ?_, fun x hx => ?_, h.liveNodup, h.liveCount,
    h.tableBound⟩
  · show _ ↔ (Function.update k.tcb t v x).Fits P
    rw [Function.update_of_ne (hne x hx)]
    exact h.placed x hx P
  · show (Function.update k.tcb t v x).Coherent
    rw [Function.update_of_ne (hne x hx)]
    exact h.coherent x hx

end TaskListInv

/-! ## Calm calls -/

/-- A calm step to a state that follows some layout. -/
def CalmInv (k : Kernel) (L : Layout) (k' : Kernel) : Prop :=
  ∃ L', TaskListInv k' L' ∧ Calm k L k' L'

namespace CalmInv

/-- Calm steps follow one another. -/
theorem trans {k'' : Kernel} (h : CalmInv k L k')
    (h' : ∀ L', TaskListInv k' L' → CalmInv k' L' k'') : CalmInv k L k'' := by
  obtain ⟨L₁, h₁, c₁⟩ := h
  obtain ⟨L₂, h₂, c₂⟩ := h' L₁ h₁
  exact ⟨L₂, h₂, c₁.trans c₂⟩

/-- A call whose body is a critical section. -/
theorem enterCritical (h : CalmInv (osSchedEnterCritical k) L k') : CalmInv k L k' :=
  h.imp fun _ h' => ⟨h'.1, h'.2.after_data (data_osSchedEnterCritical k)⟩

/-- A calm step may end with leaving a critical section. -/
theorem exitCritical (h : CalmInv k L k') : CalmInv k L (osSchedExitCritical k') :=
  h.imp fun _ h' => ⟨h'.1.exitCritical, h'.2.then_data (data_osSchedExitCritical k')⟩

/-- It may end with a request to switch. -/
theorem yield (h : CalmInv k L k') : CalmInv k L (osSchedYield k') :=
  h.imp fun _ h' => ⟨h'.1.yield, h'.2.then_data (data_osSchedYield k')⟩

/-- It may end with one from an interrupt. -/
theorem requestSwitch (h : CalmInv k L k') : CalmInv k L (osSchedRequestSwitchFromIsr k') :=
  h.imp fun _ h' => ⟨h'.1.requestSwitch, h'.2.then_data (data_osSchedRequestSwitchFromIsr k')⟩

/-- A call that ends in a yield under some condition. -/
theorem yieldIf (h : CalmInv k L k') (b : Prop) [Decidable b] :
    CalmInv k L (if b then osSchedYield k' else k') := by
  split
  · exact h.yield
  · exact h

/-- A call that ends in a switch request under some condition. -/
theorem requestSwitchIf (h : CalmInv k L k') (b : Prop) [Decidable b] :
    CalmInv k L (if b then osSchedRequestSwitchFromIsr k' else k') := by
  split
  · exact h.requestSwitch
  · exact h

/-- The state itself. -/
theorem refl (h : TaskListInv k L) : CalmInv k L k := ⟨L, h, Calm.refl k L⟩

/-- The current task stays the same. -/
theorem current (h : CalmInv k L k') : k'.current = k.current := by
  obtain ⟨_, _, hcalm⟩ := h
  exact hcalm.current

end CalmInv

/-- Rewriting fields that do not name a list. -/
theorem TaskListInv.calm_setTcb {v : Tcb} (h : TaskListInv k L)
    (hf : ∀ P, v.Fits P ↔ (k.tcb t).Fits P) (hcoh : (k.tcb t).Coherent → v.Coherent)
    (hs : v.state = (k.tcb t).state) (hto : v.timedOut = true → (k.tcb t).timedOut = true) :
    CalmInv k L (k.setTcb t v) :=
  ⟨L, h.setTcb hf hcoh, Calm.of_tcb rfl (fun _ => rfl) (fun hr => hs ▸ hr) (fun hr => hs ▸ hr) hto⟩

/-! ## Creating a task -/

/-- **Creating a task keeps the invariant**, when the heap's answer is not a live control block. -/
theorem TaskListInv.initTask {func param : BitVec 32} {prio : Prio} {stack : Addr} {size : Nat}
    (h : TaskListInv k L) (ht : t ∉ k.liveTcbs) (hfull : k.taskTable.length < maxTasks) :
    CalmInv k L (initTask k func param prio stack size t) := by
  obtain ⟨sp, mem, hpair⟩ : ∃ sp mem, osPortStackInit (prvFillStack k.stackMem stack size) func param
      stack size = (sp, mem) := ⟨_, _, rfl⟩
  have hnot : ∀ P, t ∉ L P := fun P hP => ht (h.live P t hP)
  set k₁ : Kernel := { k with
    stackMem := mem
    tcb := Function.update k.tcb t (newTcb stack size prio sp)
    links := (k.links.setNext t none).setPrev t none
    liveTcbs := k.liveTcbs ++ [t]
    taskTable := k.taskTable ++ [t] } with hk₁
  have hk : MiniRTOS.initTask k func param prio stack size t = osTaskAddToReady k₁ t := by
    simp only [MiniRTOS.initTask, hpair, hk₁]
  have hprio : k₁.prio t = prio := by simp [hk₁, Kernel.prio, newTcb]
  have hlists : ListsOk k₁ L := by
    refine (h.scribble ht (newTcb stack size prio sp) none none).lists.congr rfl rfl rfl fun P => ?_
    cases P with
    | wait w => cases w <;> rfl
    | _ => rfl
  have hadd := osTaskAddToReady_lists hlists hnot
  rw [hprio] at hadd
  have htcb : (osTaskAddToReady k₁ t).tcb
      = Function.update k.tcb t (newTcb stack size prio sp) := by
    show Function.update (Function.update k.tcb t _) t _ = _
    rw [Function.update_idem]
    congr 1
    show { Function.update k.tcb t (newTcb stack size prio sp) t with state := .ready } = _
    rw [Function.update_self]
    rfl
  have hmem : ∀ P x, x ∈ L.set (.ready prio) (L (.ready prio) ++ [t]) P ↔
      x ∈ L P ∨ x = t ∧ P = .ready prio := by
    intro P x
    rw [Layout.set_apply]
    split
    · next hP => simp [hP]
    · next hP => simp [hP]
  have hne : ∀ x ∈ k.liveTcbs, x ≠ t := fun x hx hxt => ht (hxt ▸ hx)
  -- the new task is READY, so what is known of a live task in another state is known of an old one
  have hold : ∀ x ∈ k.liveTcbs ++ [t], ((osTaskAddToReady k₁ t).tcb x).state ≠ .ready ∨
      ((osTaskAddToReady k₁ t).tcb x).timedOut = true →
      x ∈ k.liveTcbs ∧ (osTaskAddToReady k₁ t).tcb x = k.tcb x := by
    intro x hx hs
    rcases List.mem_append.mp hx with hx | hx
    · exact ⟨hx, by rw [htcb, Function.update_of_ne (hne x hx)]⟩
    · obtain rfl := List.mem_singleton.mp hx
      rw [htcb, Function.update_self] at hs
      rcases hs with hs | hs
      · exact absurd rfl hs
      · cases hs
  rw [hk]
  refine ⟨L.set (.ready prio) (L (.ready prio) ++ [t]), ⟨hadd, fun P x hx => ?_, fun x hx P => ?_,
    fun x hx => ?_, ?_, ?_, ?_⟩, ⟨fun m => L.set_wait (by simp) _ (.mutex m), rfl, fun x hx hs => ?_,
    fun x hx hs => ?_, fun x hx hs => ?_⟩, fun w => by rw [L.set_wait (by simp)]⟩
  · show x ∈ k.liveTcbs ++ [t]
    rcases (hmem P x).mp hx with hx | ⟨rfl, -⟩
    · exact List.mem_append_left _ (h.live P x hx)
    · simp
  · rw [hmem, htcb]
    rcases List.mem_append.mp hx with hx | hx
    · have hxt : x ≠ t := fun hxt => ht (hxt ▸ hx)
      rw [Function.update_of_ne hxt, ← h.placed x hx P]
      simp [hxt]
    · obtain rfl := List.mem_singleton.mp hx
      rw [Function.update_self, Tcb.fits_ready (Or.inl rfl)]
      simp [hnot P, newTcb]
  · rw [htcb]
    rcases List.mem_append.mp hx with hx | hx
    · rw [Function.update_of_ne fun hxt : x = t => ht (hxt ▸ hx)]
      exact h.coherent x hx
    · obtain rfl := List.mem_singleton.mp hx
      rw [Function.update_self]
      exact Or.inl rfl
  · show (k.liveTcbs ++ [t]).Nodup
    rw [List.nodup_append_comm]
    exact List.nodup_cons.mpr ⟨ht, h.liveNodup⟩
  · show (k.liveTcbs ++ [t]).length ≤ (k.taskTable ++ [t]).length
    have := h.liveCount
    simp only [List.length_append, List.length_singleton]
    omega
  · show (k.taskTable ++ [t]).length ≤ maxTasks
    simp only [List.length_append, List.length_singleton]
    omega
  · rw [htcb, Function.update_of_ne (hne x hx)]
    exact ⟨List.mem_append_left _ hx, hs⟩
  · obtain ⟨hx', hsame⟩ := hold x hx (Or.inl (by simp [hs]))
    exact ⟨hx', hsame ▸ hs⟩
  · obtain ⟨hx', hsame⟩ := hold x hx (Or.inr hs)
    exact ⟨hx', hsame ▸ hs⟩

/-- `os_task_create` keeps the invariant. -/
theorem TaskListInv.osTaskCreate (h : TaskListInv k L) (a : CreateArgs)
    (hheap : ∀ t, a.tcbBlock = some t → t ∉ k.liveTcbs) :
    CalmInv k L (osTaskCreate k a).2.2 ∧
      ∀ t, (MiniRTOS.osTaskCreate k a).2.1 = some t →
        t ∈ (MiniRTOS.osTaskCreate k a).2.2.liveTcbs := by
  rcases osTaskCreate_cases k a with
    ⟨func, p, stack, t, -, -, hroom, -, -, ht, hok⟩ | ⟨r, k', -, -, hk', hno⟩
  · rw [hok]
    refine ⟨h.initTask (hheap t ht) (by omega), fun x hx => ?_⟩
    rw [CreateArgs.handle_eq hx]
    show t ∈ k.liveTcbs ++ [t]
    simp
  · rw [hno]
    refine ⟨?_, by simp⟩
    rcases hk' with rfl | ⟨stack, -, rfl⟩
    · exact CalmInv.refl h
    · -- the heap has no room for the control block: the stack goes back
      refine ⟨L, ⟨h.lists.congr rfl rfl rfl fun P => by cases P <;> rfl, h.live, h.placed,
        h.coherent, h.liveNodup, h.liveCount, h.tableBound⟩,
        ⟨fun _ => rfl, rfl, fun _ hx hs => ⟨hx, hs⟩, fun _ hx hs => ⟨hx, hs⟩,
          fun _ hx hs => ⟨hx, hs⟩⟩, fun _ => List.Sublist.refl _⟩

/-! ## Suspending and resuming -/

/-- `os_task_suspend` of a live task keeps the invariant. -/
theorem TaskListInv.osTaskSuspend (h : TaskListInv k L) (ht : t ∈ k.liveTcbs) :
    CalmInv k L (osTaskSuspend k t) := by
  unfold MiniRTOS.osTaskSuspend
  by_cases hs : ((osSchedEnterCritical k).tcb t).state = .ready ∨
      ((osSchedEnterCritical k).tcb t).state = .running
  · simp only [if_pos hs]
    refine CalmInv.yieldIf (CalmInv.exitCritical (CalmInv.enterCritical
      ⟨_, h.enterCritical.suspend ht hs, ?_⟩)) _
    exact Calm.of_tcb rfl (L.remove_wait (by simp) t) (fun hr => by cases hr)
      (fun hr => by cases hr) id
  · simp only [if_neg hs]
    exact (CalmInv.refl h.enterCritical).exitCritical.enterCritical.yieldIf _

/-- `os_task_create_suspended` keeps the invariant. -/
theorem TaskListInv.osTaskCreateSuspended (h : TaskListInv k L) (a : CreateArgs)
    (hheap : ∀ t, a.tcbBlock = some t → t ∉ k.liveTcbs) :
    CalmInv k L (osTaskCreateSuspended k a).2.2 := by
  obtain ⟨h', hlive⟩ := h.osTaskCreate a hheap
  unfold MiniRTOS.osTaskCreateSuspended
  split
  · next t k₁ heq =>
      rw [heq] at h' hlive
      exact h'.trans fun L' h'' => h''.osTaskSuspend (hlive t rfl)
  · exact h'

/-- `os_task_resume` of a live task keeps the invariant. -/
theorem TaskListInv.osTaskResume (h : TaskListInv k L) (ht : t ∈ k.liveTcbs) :
    CalmInv k L (osTaskResume k t) := by
  unfold MiniRTOS.osTaskResume
  dsimp only
  split
  · next hs =>
      refine CalmInv.exitCritical (CalmInv.enterCritical ⟨_, h.enterCritical.resume ht hs, ?_⟩)
      exact Calm.of_tcb (data_osTaskAddToReady _ t) (L.set_wait (by simp) _) (fun hr => by cases hr)
        (fun hr => by cases hr) id
  · exact (CalmInv.refl h.enterCritical).exitCritical.enterCritical

/-! ## Delays -/

/-- Moving a task to `blocked_list`. -/
theorem TaskListInv.calm_addToBlocked {timeout : Nat} (h : TaskListInv k L) (ht : t ∈ k.liveTcbs)
    (hs : (k.tcb t).state = .ready ∨ (k.tcb t).state = .running) :
    CalmInv k L (osTaskAddToBlocked k t timeout) := by
  refine ⟨_, h.addToBlocked ht hs, Calm.of_tcb (data_osTaskAddToBlocked k t timeout) (fun w => ?_)
    (fun hr => by cases hr) (fun hr => by cases hr) id⟩
  rw [Layout.set_wait _ (by simp), Layout.remove_wait _ (by simp)]

/-- `os_task_delay` of a READY or RUNNING current task returns and keeps the invariant. -/
theorem TaskListInv.osTaskDelay (ticks : Nat) (h : TaskListInv k L) (hc : k.current = some c)
    (ht : c ∈ k.liveTcbs) (hs : (k.tcb c).state = .ready ∨ (k.tcb c).state = .running) :
    ∃ k', osTaskDelay k ticks = some k' ∧ CalmInv k L k' := by
  unfold MiniRTOS.osTaskDelay
  by_cases hz : ticks = 0
  · rw [if_pos hz]
    exact ⟨_, rfl, (CalmInv.refl h).yield⟩
  · rw [if_neg hz, hc]
    exact ⟨_, rfl, (h.enterCritical.calm_addToBlocked ht hs).enterCritical.exitCritical.yield⟩

/-- `os_task_delay_until` likewise. -/
theorem TaskListInv.osTaskDelayUntil (previous period : Nat) (h : TaskListInv k L)
    (hc : k.current = some c) (ht : c ∈ k.liveTcbs)
    (hs : (k.tcb c).state = .ready ∨ (k.tcb c).state = .running) :
    ∃ r, osTaskDelayUntil k previous period = some r ∧ CalmInv k L r.2.2 := by
  unfold MiniRTOS.osTaskDelayUntil
  split
  · exact ⟨_, rfl, CalmInv.refl h⟩
  · dsimp only
    split
    · obtain ⟨k', hk', h'⟩ := h.osTaskDelay (((previous + period) % 2 ^ 32 + 2 ^ 32
        - k.systemTick) % 2 ^ 32) hc ht hs
      rw [hk']
      exact ⟨_, rfl, h'⟩
    · exact ⟨_, rfl, CalmInv.refl h⟩

/-! ## Notifications -/

/-- A task blocked in `os_task_notify_wait` is in `blocked_list`. -/
theorem TaskListInv.mem_blocked_of_onNotify (h : TaskListInv k L) (ht : t ∈ k.liveTcbs)
    (hs : (k.tcb t).state = .blocked) (hr : (k.tcb t).blockedReason = .onNotify) :
    t ∈ L .blocked := by
  have hb : (k.tcb t).blockedOn = none := by
    rcases h.coherent t ht with hc | ⟨-, w, -, hw⟩
    · exact hc
    · rw [hr] at hw
      cases w <;> simp [WaitList.reason] at hw
  exact (h.placed t ht _).mpr ⟨hs, hb⟩

/-- Storing a notification, and waking a target that waits for it, keeps the invariant. -/
theorem TaskListInv.notifyTask (value : BitVec 32) (h : TaskListInv k L) (ht : t ∈ k.liveTcbs) :
    CalmInv k L (notifyTask k t value).2 := by
  set v : Tcb := { k.tcb t with notifyValue := value, notifyPending := true } with hv
  have h₁ : TaskListInv (k.setTcb t v) L := h.setTcb (fun P => by cases P <;> rfl) fun hc => hc
  have hcalm₁ : Calm k L (k.setTcb t v) L := Calm.of_tcb rfl (fun _ => rfl) id id id
  have htcb : (k.setTcb t v).tcb t = v := Function.update_self ..
  unfold MiniRTOS.notifyTask
  dsimp only
  rw [← hv]
  split
  · next hs =>
      have hmem := h₁.mem_blocked_of_onNotify ht hs.1 hs.2
      have hb : v.blockedOn = none := by
        have := ((h₁.placed t ht .blocked).mp hmem).2
        rwa [htcb] at this
      have hl := (osTaskRemoveFromBlocked_lists h₁.lists hmem).setTcb t
        { (osTaskRemoveFromBlocked (k.setTcb t v) t).tcb t with
          blockedReason := .none, delayTicks := 0, timedOut := false }
      obtain ⟨h', hd'⟩ := h₁.toReady hmem hl rfl (by
        show ((k.setTcb t v).tcb t).blockedOn = none
        rw [htcb]
        exact hb)
      refine ⟨_, h', hcalm₁.trans (Calm.of_tcb hd' (fun w => ?_) (fun hr => by cases hr)
        (fun hr => by cases hr) fun hr => by cases hr)⟩
      rw [Layout.set_wait _ (by simp), Layout.remove_wait _ (by simp)]
  · exact ⟨L, h₁, hcalm₁⟩

/-- `os_task_notify` returns and keeps the invariant. -/
theorem TaskListInv.osTaskNotify (value : BitVec 32) (h : TaskListInv k L) (ht : t ∈ k.liveTcbs)
    (hc : k.current = some c) : ∃ r, osTaskNotify k t value = some r ∧ CalmInv k L r.1 := by
  have h' := (h.enterCritical.notifyTask value ht).enterCritical.exitCritical
  unfold MiniRTOS.osTaskNotify
  dsimp only
  split
  · rw [h'.current.trans hc]
    exact ⟨_, rfl, h'.yieldIf _⟩
  · exact ⟨_, rfl, h'⟩

/-- `os_task_notify_from_isr` keeps the invariant. -/
theorem TaskListInv.osTaskNotifyFromIsr {value : BitVec 32} (h : TaskListInv k L)
    (ht : t ∈ k.liveTcbs) : CalmInv k L (osTaskNotifyFromIsr k t value).1 :=
  ((h.enterCritical.notifyTask value ht).enterCritical.requestSwitchIf _).exitCritical

/-- Taking a notification keeps the invariant. -/
theorem TaskListInv.takeNotification (h : TaskListInv k L) :
    CalmInv k L (takeNotification k t).1 :=
  h.calm_setTcb (fun P => by cases P <;> rfl) (fun hc => hc) rfl id

/-- `os_task_notify_wait` of a READY or RUNNING current task returns or blocks, and keeps the
invariant. -/
theorem TaskListInv.osTaskNotifyWait (timeout : Nat) (h : TaskListInv k L)
    (hc : k.current = some c) (ht : c ∈ k.liveTcbs)
    (hs : (k.tcb c).state = .ready ∨ (k.tcb c).state = .running) :
    ∃ r, osTaskNotifyWait k timeout = some r ∧ CalmInv k L r.1 := by
  unfold MiniRTOS.osTaskNotifyWait
  rw [hc]
  dsimp only [Option.bind_eq_bind, Option.bind_some]
  split
  · exact ⟨_, rfl, (h.enterCritical.takeNotification (t := c)).enterCritical.exitCritical⟩
  · split
    · exact ⟨_, rfl, (CalmInv.refl h.enterCritical).enterCritical.exitCritical⟩
    · set v : Tcb := { k.tcb c with blockedReason := .onNotify, timedOut := false } with hv
      have hb := h.blockedOn_eq_none ht (by rcases hs with hs | hs <;> simp [hs])
      have h₁ : CalmInv (osSchedEnterCritical k) L ((osSchedEnterCritical k).setTcb c v) := by
        refine h.enterCritical.calm_setTcb (fun P => ?_) (fun _ => Or.inl hb) rfl fun hr => by cases hr
        have hs' : v.state = .ready ∨ v.state = .running := hs
        rw [Tcb.fits_ready hs']
        exact (Tcb.fits_ready hs P).symm
      have htcb : ((osSchedEnterCritical k).setTcb c v).tcb c = v := Function.update_self ..
      refine ⟨_, rfl, CalmInv.yield (CalmInv.exitCritical (CalmInv.enterCritical
        (h₁.trans fun L' h' => h'.calm_addToBlocked ht ?_)))⟩
      rw [htcb]
      exact hs

/-- `os_task_notify_wait` after its `os_sched_yield()` keeps the invariant. -/
theorem TaskListInv.osTaskNotifyWaitResume (h : TaskListInv k L) :
    CalmInv k L (osTaskNotifyWaitResume k c).1 := by
  unfold MiniRTOS.osTaskNotifyWaitResume
  split
  · exact h.takeNotification
  · exact CalmInv.refl h

end MiniRTOS
