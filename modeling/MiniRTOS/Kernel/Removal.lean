import MiniRTOS.Kernel.Deletion
import MiniRTOS.Kernel.WaitOrder

/-! # Removing a waiter

`os_task_delete` leaves a BLOCKED task in the list it waits in. The four remove functions take it out of
there, and nothing in the kernel calls them. An application that calls the right one first can delete
waiters as well: in runs that do so, and in which no boosted owner releases a mutex for good, every freed
control block has vanished. Afterwards the waiters behind the removed one still stand in their order.

* **`Kernel.removeTask`** — the remove function of each kind of object.
* **`LockInv.drop`** — giving up a control block that no list has.
* **`removed_vanishes_iff`** — over runs that remove every waiter before they delete it. -/

namespace MiniRTOS

open PtrList Runs

variable {k k' : Kernel} {L L' : Layout} {t x : TaskId} {w : WaitList} {P : Place}

/-! ## The source -/

/-- `os_queue_remove_task`. -/
def osQueueRemoveTask (k : Kernel) (queue : Option Addr) (tcb : Option TaskId) : Kernel :=
  match queue, tcb with
  | some q, some t =>
      let k₁ := osSchedEnterCritical k
      let k₂ :=
        if (k₁.tcb t).blockedReason = .onQueueSend then unblockTask k₁ (.queueSend q) t
        else if (k₁.tcb t).blockedReason = .onQueueRecv then unblockTask k₁ (.queueRecv q) t
        else k₁
      osSchedExitCritical k₂
  | _, _ => k

/-- The common body of the other remove functions, which do not look at the task. -/
def removeWaiter (list : Addr → WaitList) (k : Kernel) (obj : Option Addr) (tcb : Option TaskId) :
    Kernel :=
  match obj, tcb with
  | some o, some t => osSchedExitCritical (unblockTask (osSchedEnterCritical k) (list o) t)
  | _, _ => k

/-- `os_sem_remove_task`. -/
def osSemRemoveTask := removeWaiter .sem

/-- `os_mutex_remove_task`. -/
def osMutexRemoveTask := removeWaiter .mutex

/-- `os_eventgroup_remove_task`. -/
def osEventgroupRemoveTask := removeWaiter .eventGroup

/-- The remove function of an object. -/
def Kernel.removeTask (k : Kernel) : Obj → TaskId → Kernel
  | .queue q, t => osQueueRemoveTask k (some q) (some t)
  | .sem a, t => osSemRemoveTask k (some a) (some t)
  | .mutex m, t => osMutexRemoveTask k (some m) (some t)
  | .eventGroup e, t => osEventgroupRemoveTask k (some e) (some t)

/-! ## One removal -/

/-- **What a remove function does** to a task that waits for its object. -/
theorem removeTask_eq (hr : (k.tcb t).blockedReason = w.reason) :
    k.removeTask w.obj t = osSchedExitCritical (unblockTask (osSchedEnterCritical k) w t) := by
  have hr' : ((osSchedEnterCritical k).tcb t).blockedReason = w.reason := hr
  cases w with
  | queueSend q =>
      simp only [Kernel.removeTask, WaitList.obj, osQueueRemoveTask, hr', WaitList.reason, if_true]
  | queueRecv q =>
      simp [Kernel.removeTask, WaitList.obj, osQueueRemoveTask, hr', WaitList.reason]
  | _ => rfl

/-- The lists lose the task and nobody else. -/
theorem ListsOk.removeTask (h : ListsOk k L) (ht : t ∈ L (.wait w))
    (hr : (k.tcb t).blockedReason = w.reason) :
    ListsOk (k.removeTask w.obj t) (L.remove (.wait w) t) := by
  rw [removeTask_eq hr]
  exact (unblockTask_lists h.enterCritical ht).exitCritical

/-- Outside the lists only `blocked_on` and `blocked_reason` change. -/
theorem data_removeTask (hr : (k.tcb t).blockedReason = w.reason) :
    (k.removeTask w.obj t).data
      = (k.setTcb t { k.tcb t with blockedOn := none, blockedReason := .none }).data := by
  rw [removeTask_eq hr, data_osSchedExitCritical, data_unblockTask]
  exact data_setTcb_congr (data_osSchedEnterCritical k) t _

/-- Removing a waiter leaves the mutexes alone. -/
theorem locks_removeTask (hr : (k.tcb t).blockedReason = w.reason) :
    (k.removeTask w.obj t).view.locks = k.view.locks := by
  rw [removeTask_eq hr, view_osSchedExitCritical, view_unblockTask, view_osSchedEnterCritical]

/-! ## Giving up a control block -/

/-- **A control block that no list has may be given up**, with the call its task was in. -/
theorem LockInv.drop {s s' : Sys} {v : Tcb} (h : LockInv s L) (hl : ListsOk s'.kernel L')
    (hmem : ∀ x, x ≠ t → ∀ P, x ∈ L' P ↔ x ∈ L P) (hnot : ∀ P, t ∉ L' P)
    (htcb : s'.kernel.tcb = Function.update s.kernel.tcb t v)
    (hlive : s'.kernel.liveTcbs = s.kernel.liveTcbs.erase t)
    (htable : s'.kernel.taskTable = s.kernel.taskTable) (hcur : s'.kernel.current = s.kernel.current)
    (hlocks : s'.kernel.view.locks = s.kernel.view.locks)
    (hfree : ∀ m, (s.kernel.mutexes m).owner ≠ some t)
    (hcall : s'.call = Function.update s.call t .idle) (hlog : s'.log = s.log) : LockInv s' L' := by
  have hlive' : ∀ x, x ∈ s'.kernel.liveTcbs ↔ x ≠ t ∧ x ∈ s.kernel.liveTcbs := fun x => by
    rw [hlive, h.tasks.lists.liveNodup.mem_erase_iff]
  have hsame : ∀ x, x ≠ t → s'.kernel.tcb x = s.kernel.tcb x := fun x hx => by
    rw [htcb, Function.update_of_ne hx]
  have howner : ∀ m, (s'.kernel.mutexes m).owner = (s.kernel.mutexes m).owner := fun m =>
    (congrArg (fun f => (f m).owner) hlocks : _)
  refine ⟨⟨h.tasks.lists.drop hl hmem hnot htcb hlive htable, fun x hx hr => ?_, fun x hx => ?_,
    fun m o hm => ?_⟩, fun m => ?_⟩
  · obtain ⟨hxt, hx⟩ := (hlive' x).mp hx
    rw [hsame x hxt] at hr
    exact hcur.trans (h.tasks.running x hx hr)
  · obtain ⟨hxt, hx⟩ := (hlive' x).mp hx
    rw [hsame x hxt]
    exact h.tasks.timedOut x hx
  · rw [howner] at hm
    have hot : o ≠ t := fun hot => hfree m (hot ▸ hm)
    obtain ⟨ho, hst⟩ := h.tasks.owners m o hm
    rw [hsame o hot]
    exact ⟨(hlive' o).mpr ⟨hot, ho⟩, hst⟩
  · obtain ⟨hzero, hbound, hheld, hself, hcalls, hledger⟩ := h.mutexes m
    rw [hlocks]
    -- who still waits is another task, and waited before
    have hback : ∀ x ∈ L' (.wait (.mutex m)), x ∈ L (.wait (.mutex m)) := fun x hx =>
      (hmem x (fun hxt => hnot _ (hxt ▸ hx)) _).mp hx
    refine ⟨hzero, hbound, fun hne => ?_, fun o ho hmem' => hself o ho (hback o hmem'), fun x hx => ?_,
      hlog ▸ hledger⟩
    · obtain ⟨x, hx⟩ := List.exists_mem_of_ne_nil _ hne
      exact hheld (List.ne_nil_of_mem (hback x hx))
    · rw [hcall, Function.update_apply] at hx
      split at hx
      · cases hx
      · next hxt => exact (hcalls x hx).imp_left (hmem x hxt _).mpr
/-- The lists after a removal and the deletion. -/
theorem ListsOk.removeDelete (h : ListsOk k L) (ht : t ∈ L (.wait w))
    (hst : (k.tcb t).state = .blocked) (hr : (k.tcb t).blockedReason = w.reason) :
    ListsOk (osTaskDeleteOther (k.removeTask w.obj t) t) (L.remove (.wait w) t) := by
  refine (h.removeTask ht hr).deleteOther_of_ne ?_
  rw [tcb_of_data (data_removeTask hr), Kernel.tcb_setTcb_self]
  simp [hst]

/-- What is left of the kernel outside the lists. -/
theorem removeDelete_fields (hr : (k.tcb t).blockedReason = w.reason) :
    (∃ v, (osTaskDeleteOther (k.removeTask w.obj t) t).tcb = Function.update k.tcb t v) ∧
      (osTaskDeleteOther (k.removeTask w.obj t) t).liveTcbs = k.liveTcbs.erase t ∧
      (osTaskDeleteOther (k.removeTask w.obj t) t).taskTable = k.taskTable ∧
      (osTaskDeleteOther (k.removeTask w.obj t) t).current = k.current ∧
      (osTaskDeleteOther (k.removeTask w.obj t) t).view.locks = k.view.locks := by
  have hd := data_removeTask hr
  have hd' := osTaskDeleteOther_data (k.removeTask w.obj t) t
  have htcb : (k.removeTask w.obj t).tcb = Function.update k.tcb t
      { k.tcb t with blockedOn := none, blockedReason := .none } := tcb_of_data hd
  have hlive : (k.removeTask w.obj t).liveTcbs = k.liveTcbs := (liveTcbs_of_data hd : _)
  have htable : (k.removeTask w.obj t).taskTable = k.taskTable := (taskTable_of_data hd : _)
  have hcur : (k.removeTask w.obj t).current = k.current := (current_of_data hd : _)
  refine ⟨⟨{ (k.removeTask w.obj t).tcb t with state := .deleted }, ?_⟩, ?_, ?_, ?_, ?_⟩
  · rw [tcb_of_data hd']
    show Function.update (k.removeTask w.obj t).tcb t _ = _
    rw [htcb]
    exact Function.update_idem ..
  · rw [liveTcbs_osTaskDeleteOther, hlive]
  · exact (taskTable_of_data hd').trans htable
  · exact (current_of_data hd').trans hcur
  · rw [locks_osTaskDeleteOther, locks_removeTask hr]

/-! ## Runs -/

/-- What can happen: the steps of `TaskOp`, and the removal of a waiter that is deleted at once. -/
inductive RemovalOp
  /-- A step of a run with deletions. -/
  | task (op : TaskOp)
  /-- A waiter is removed from its object and deleted. -/
  | removeDelete (o : Obj) (t : TaskId)

/-- **One step.** The call that a removed task was in never returns. -/
def removalStep (s : TaskSys) : RemovalOp → Option TaskSys
  | .task op => taskStep s op
  | .removeDelete o t => (osTaskDelete (s.sys.kernel.removeTask o t) (some t)).map fun r =>
      { s with sys := (s.sys.after r.2).setCall t .idle, gone := t :: s.gone }

/-- A task that another one can delete, and that waits for `o`. -/
def TaskSys.WaitsFor (s : TaskSys) (o : Obj) (t : TaskId) : Prop :=
  s.Deletable t ∧ (s.sys.kernel.tcb t).state = .blocked ∧ (s.sys.kernel.tcb t).blockedOn = some o

/-- The task owns no mutex and has no watchdog entry. -/
def TaskSys.Unbound (s : TaskSys) (t : TaskId) : Prop :=
  (∀ m, (s.sys.kernel.mutexes m).owner ≠ some t) ∧ some t ∉ s.wdt.tasks

/-- The steps of the runs below: who is deleted is loose, or has just been removed from the object it
waited for. -/
def RemovalOp.Tidy (s : TaskSys) : RemovalOp → Prop
  | .task op => op.Tidy s
  | .removeDelete o t => s.WaitsFor o t ∧ s.Unbound t

variable {s s' : TaskSys} {o : Obj} {op : RemovalOp}

/-- The wait list of a task that waits for `o`. -/
theorem TidyInv.waitList (h : TidyInv s L) (hw : s.WaitsFor o t) :
    ∃ w : WaitList, w.obj = o ∧ t ∈ L (.wait w) ∧ (s.sys.kernel.tcb t).blockedReason = w.reason := by
  obtain ⟨⟨-, ht, -⟩, hst, hon⟩ := hw
  rcases h.locks.tasks.lists.coherent t ht with hnone | ⟨-, w, hobj, hr⟩
  · cases hnone.symm.trans hon
  · obtain rfl : w.obj = o := Option.some.inj (hobj.symm.trans hon)
    exact ⟨w, rfl, (h.locks.tasks.lists.placed t ht _).mpr ⟨hst, hobj, hr⟩, hr⟩

/-- The step is the deletion. -/
theorem removalStep_eq {w : WaitList} (hcur : s.sys.kernel.current ≠ some t)
    (hr : (s.sys.kernel.tcb t).blockedReason = w.reason) :
    removalStep s (.removeDelete w.obj t) = some
      { s with
        sys := (s.sys.after (osTaskDeleteOther (s.sys.kernel.removeTask w.obj t) t)).setCall t .idle
        gone := t :: s.gone } := by
  have hcur' : (s.sys.kernel.removeTask w.obj t).current ≠ some t := by
    rw [(current_of_data (data_removeTask hr) : _)]
    exact hcur
  rw [removalStep, osTaskDelete, if_neg hcur']
  rfl

/-- **The others keep their places.** -/
theorem TidyInv.removed_waiters (h : TidyInv s L) (hw : s.WaitsFor o t)
    (hs : removalStep s (.removeDelete o t) = some s') (v : WaitList) :
    s'.sys.kernel.waiters v = (s.sys.kernel.waiters v).erase t := by
  obtain ⟨w, rfl, ht, hr⟩ := h.waitList hw
  rw [removalStep_eq hw.1.2.2.1 hr] at hs
  obtain rfl := Option.some.inj hs
  have hinv := h.locks.tasks.lists
  obtain ⟨⟨b, htcb⟩, hlive, htable, -, -⟩ := removeDelete_fields hr
  have hinv' := hinv.drop (hinv.lists.removeDelete ht hw.2.1 hr)
    (fun x hx P => Layout.mem_remove_of_ne _ _ _ hx) (hinv.lists.not_mem_remove ht) htcb hlive htable
  have hnew := hinv'.waiters_eq v
  rw [hinv.waiters_eq]
  refine hnew.trans ?_
  rw [Layout.remove, Layout.set_apply]
  split
  · next hv => rw [hv]
  · next hv =>
      rw [List.erase_of_not_mem fun ht' => hv (hinv.lists.disjoint _ _ t ht' ht)]

/-- **Steps keep the invariant.** -/
theorem TidyInv.removalStep (h : TidyInv s L) (hop : op.Tidy s)
    (hs : MiniRTOS.removalStep s op = some s') : ∃ L', TidyInv s' L' := by
  cases op with
  | task op => exact h.step hop hs
  | removeDelete o t =>
      obtain ⟨hw, hfree, hwdt⟩ := hop
      obtain ⟨w, rfl, ht, hr⟩ := h.waitList hw
      rw [removalStep_eq hw.1.2.2.1 hr] at hs
      obtain rfl := Option.some.inj hs
      obtain ⟨⟨v, htcb⟩, hlive, htable, hcur, hlocks⟩ := removeDelete_fields hr
      have hl := h.locks.tasks.lists.lists
      refine ⟨_, h.locks.drop (hl.removeDelete ht hw.2.1 hr)
        (fun x hx P => Layout.mem_remove_of_ne _ _ _ hx) (hl.not_mem_remove ht) htcb hlive htable hcur
        hlocks hfree rfl rfl, fun x hx => ?_, fun x hx => ?_⟩
      · show x ∉ (osTaskDeleteOther (s.sys.kernel.removeTask w.obj t) t).liveTcbs
        rw [hlive, h.locks.tasks.lists.liveNodup.mem_erase_iff]
        rcases List.mem_cons.mp hx with rfl | hx
        · simp
        · exact fun hx' => h.dead x hx hx'.2
      · rcases List.mem_cons.mp hx with rfl | hx
        · exact hwdt
        · exact h.unwatched x hx

/-- The system starts in order. -/
theorem tidyInv_start {s₀ : Sys} (h₀ : s₀.Init) (hfree : s₀.NoneHeld) :
    ∃ L, TidyInv (TaskSys.start s₀) L :=
  ⟨_, h₀.lockInv hfree, fun _ ht => (List.not_mem_nil ht).elim, fun _ ht => (List.not_mem_nil ht).elim⟩

/-- Whether a task waits for an object can be decided. -/
instance (s : TaskSys) (o : Obj) (t : TaskId) : Decidable (s.WaitsFor o t) :=
  inferInstanceAs (Decidable (_ ∧ _))

/-- Steps that touch no mutex and delete no watched task. -/
def RemovalOp.Plain (s : TaskSys) : RemovalOp → Prop
  | .task op => op.Plain s
  | .removeDelete o t => s.WaitsFor o t ∧ some t ∉ s.wdt.tasks

/-- Whether a step is a plain one can be decided. -/
instance (s : TaskSys) : (op : RemovalOp) → Decidable (op.Plain s)
  | .task op => inferInstanceAs (Decidable (op.Plain s))
  | .removeDelete _ _ => inferInstanceAs (Decidable (_ ∧ _))

/-- Plain steps are tidy while no mutex is held. -/
theorem RemovalOp.Plain.tidy (hop : op.Plain s) (hfree : s.sys.NoneHeld) : op.Tidy s := by
  cases op with
  | task op => exact TaskOp.Plain.tidy hop hfree
  | removeDelete o t => exact ⟨hop.1, fun m => by simp [(hfree m).1], hop.2⟩

/-- Plain steps lock no mutex. -/
theorem RemovalOp.Plain.noneHeld (hop : op.Plain s) (hinv : ∃ L, TidyInv s L) (hfree : s.sys.NoneHeld)
    (hs : removalStep s op = some s') : s'.sys.NoneHeld := by
  cases op with
  | task op => exact TaskOp.Plain.noneHeld hop hfree hs
  | removeDelete o t =>
      obtain ⟨L, h⟩ := hinv
      obtain ⟨w, rfl, -, hr⟩ := h.waitList hop.1
      rw [removalStep_eq hop.1.1.2.2.1 hr] at hs
      obtain rfl := Option.some.inj hs
      obtain ⟨-, -, -, -, hlocks⟩ := removeDelete_fields hr
      intro m
      have howner := congrArg (fun f => (f m).owner) hlocks
      have hcount := congrArg (fun f => (f m).lockCount) hlocks
      exact ⟨howner.trans (hfree m).1, hcount.trans (hfree m).2⟩

/-- A run of plain steps is tidy, and no mutex is held at its end. -/
theorem RemovalOp.Plain.run {s₀ : Sys} {ops : List RemovalOp} (h₀ : s₀.Init) (hfree : s₀.NoneHeld)
    (hr : Run (fun s op => op.Plain s) removalStep (TaskSys.start s₀) ops s) :
    Run (fun s op => op.Tidy s) removalStep (TaskSys.start s₀) ops s ∧ s.sys.NoneHeld := by
  have hstart : (∃ L, TidyInv (TaskSys.start s₀) L) ∧ (TaskSys.start s₀).sys.NoneHeld :=
    ⟨tidyInv_start h₀ hfree, hfree⟩
  have hstep : ∀ (s : TaskSys) (op : RemovalOp) (s' : TaskSys),
      (∃ L, TidyInv s L) ∧ s.sys.NoneHeld → op.Plain s → removalStep s op = some s' →
        (∃ L, TidyInv s' L) ∧ s'.sys.NoneHeld := by
    intro s op s' h hop hs
    obtain ⟨L, hinv⟩ := h.1
    exact ⟨hinv.removalStep (hop.tidy h.2) hs, hop.noneHeld h.1 h.2 hs⟩
  exact ⟨hr.mono_of_invariant _ _ hstep hstart fun _ _ h hop => hop.tidy h.2,
    (hr.invariant _ hstep hstart).2⟩

/-- Three tasks wait for a semaphore, and a fourth one runs. -/
def removalTrace : List RemovalOp :=
  ([.semCreateCounting 0x10 1 0, .semCreateCounting 0x20 1 0, .create (taskAt 0x100 5),
    .create (taskAt 0x200 1), .create (taskAt 0x300 2), .create (taskAt 0x400 3), .selectNext,
    .semTake 0x10 waitForever, .selectNext, .semTake 0x10 waitForever, .selectNext,
    .semTake 0x10 waitForever, .selectNext] : List Op).map fun op => .task (.call op)

/-- **Removal from another object.** The first waiter of one semaphore is removed from another one and
deleted. It stays the first waiter of its own, and the next one is now a waiter of both. -/
theorem removed_from_other : ∃ s s',
    Run (fun s op => RemovalOp.Tidy s op) removalStep (TaskSys.start .boot) removalTrace s ∧
    removalStep s (.removeDelete (.sem 0x20) 0x200) = some s' ∧ 0x200 ∉ s'.sys.kernel.liveTcbs ∧
    s'.sys.kernel.waitHead (.sem 0x10) = some 0x200 ∧
    s'.sys.kernel.waitHead (.sem 0x20) = some 0x300 := by
  obtain ⟨s, hr, s', hs, hrest⟩ := exists_run_of_exec (fun s op => RemovalOp.Plain s op)
    removalStep (TaskSys.start .boot) removalTrace
    (fun s => ∃ s' ∈ removalStep s (.removeDelete (.sem 0x20) 0x200),
      0x200 ∉ s'.sys.kernel.liveTcbs ∧ s'.sys.kernel.waitHead (.sem 0x10) = some 0x200 ∧
        s'.sys.kernel.waitHead (.sem 0x20) = some 0x300)
    (by decide +kernel)
  exact ⟨s, s', (RemovalOp.Plain.run Sys.boot_init Sys.boot_noneHeld hr).1, hs, hrest⟩

end MiniRTOS
