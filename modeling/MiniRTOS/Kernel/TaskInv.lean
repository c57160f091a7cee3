import Mathlib.Data.List.Perm.Subperm
import MiniRTOS.Kernel.ListOps

/-! # The task list invariant

`TaskListInv k L` ties the layout to the control blocks: a live task is in exactly the list its own
fields name. One lemma for each way a task moves between lists says that the move keeps the
invariant; they are all instances of `TaskListInv.move`. -/

namespace MiniRTOS

open PtrList

variable {k k' : Kernel} {L L' : Layout} {t c : TaskId} {w : WaitList}

/-! ## The list a control block names -/

/-- The list a control block belongs in, read off its fields: READY and RUNNING tasks in the ready
list of their priority, BLOCKED tasks in `blocked_list` or in the wait list of `blocked_on`, deleted
ones in the deferred-delete list, SUSPENDED ones in none. -/
def Tcb.Fits (v : Tcb) : Place → Prop
  | .ready p => v.priority = p ∧ (v.state = .ready ∨ v.state = .running)
  | .blocked => v.state = .blocked ∧ v.blockedOn = none
  | .wait w => v.state = .blocked ∧ v.blockedOn = some w.obj ∧ v.blockedReason = w.reason
  | .deferred => v.state = .deleted

/-- A wait list is determined by its object and its reason. -/
theorem WaitList.eq_of_obj_reason {v w : WaitList} (ho : v.obj = w.obj) (hr : v.reason = w.reason) :
    v = w := by
  cases v <;> cases w <;> simp_all [WaitList.obj, WaitList.reason]

/-- A READY or RUNNING task belongs in the ready list of its priority and nowhere else. -/
theorem Tcb.fits_ready {v : Tcb} (h : v.state = .ready ∨ v.state = .running) (P : Place) :
    v.Fits P ↔ P = .ready v.priority := by
  cases P with
  | ready p =>
      simp only [Tcb.Fits, h, and_true, Place.ready.injEq]
      exact eq_comm
  | _ => rcases h with h | h <;> simp [Tcb.Fits, h]

/-- A BLOCKED task that waits for no object belongs in `blocked_list`. -/
theorem Tcb.fits_blocked {v : Tcb} (h : v.state = .blocked) (ho : v.blockedOn = none) (P : Place) :
    v.Fits P ↔ P = .blocked := by
  cases P <;> simp [Tcb.Fits, h, ho]

/-- A BLOCKED task that waits for an object belongs in one of its wait lists. -/
theorem Tcb.fits_wait {v : Tcb} (h : v.state = .blocked) (ho : v.blockedOn = some w.obj)
    (hr : v.blockedReason = w.reason) (P : Place) : v.Fits P ↔ P = .wait w := by
  cases P with
  | wait u =>
      simp only [Tcb.Fits, h, ho, hr, true_and, Option.some.injEq, Place.wait.injEq]
      constructor
      · rintro ⟨h₁, h₂⟩
        exact (WaitList.eq_of_obj_reason h₁ h₂).symm
      · rintro rfl
        exact ⟨rfl, rfl⟩
  | _ => simp [Tcb.Fits, h, ho]

/-- A SUSPENDED task belongs in no list. -/
theorem Tcb.fits_suspended {v : Tcb} (h : v.state = .suspended) (P : Place) : ¬ v.Fits P := by
  cases P <;> simp [Tcb.Fits, h]

/-- A deleted task belongs in the deferred-delete list. -/
theorem Tcb.fits_deleted {v : Tcb} (h : v.state = .deleted) (P : Place) :
    v.Fits P ↔ P = .deferred := by
  cases P <;> simp [Tcb.Fits, h]

/-- `blocked_on` is only set while the task waits in a list of that object. -/
def Tcb.Coherent (v : Tcb) : Prop :=
  v.blockedOn = none ∨
    v.state = .blocked ∧ ∃ w : WaitList, v.blockedOn = some w.obj ∧ v.blockedReason = w.reason

/-! ## The invariant -/

/-- **The task list invariant.** The pointers follow the layout `L`, and `L` has every live task in
exactly the place its control block names. -/
structure TaskListInv (k : Kernel) (L : Layout) : Prop where
  /-- The pointers follow the layout. -/
  lists : ListsOk k L
  /-- Only live tasks are listed. -/
  live : ∀ P t, t ∈ L P → t ∈ k.liveTcbs
  /-- A live task is in the list that its control block names. -/
  placed : ∀ t ∈ k.liveTcbs, ∀ P, t ∈ L P ↔ (k.tcb t).Fits P
  /-- The `blocked_on` pointers are coherent. -/
  coherent : ∀ t ∈ k.liveTcbs, (k.tcb t).Coherent
  /-- No control block is live twice. -/
  liveNodup : k.liveTcbs.Nodup
  /-- Live tasks were entered in the task table. -/
  liveCount : k.liveTcbs.length ≤ k.taskTable.length
  /-- The task table does not overflow. -/
  tableBound : k.taskTable.length ≤ maxTasks

namespace TaskListInv

/-- No list is longer than the task table. -/
theorem length_le (h : TaskListInv k L) (P : Place) : (L P).length ≤ maxTasks := by
  have hsub : L P ⊆ k.liveTcbs := fun t ht => h.live P t ht
  have hlen := (List.Nodup.subperm (h.lists.nodup P) hsub).length_le
  exact hlen.trans (h.liveCount.trans h.tableBound)

/-- A live READY or RUNNING task is in the ready list of its priority. -/
theorem mem_ready (h : TaskListInv k L) (ht : t ∈ k.liveTcbs)
    (hs : (k.tcb t).state = .ready ∨ (k.tcb t).state = .running) : t ∈ L (.ready (k.prio t)) :=
  (h.placed t ht _).mpr ((Tcb.fits_ready hs _).mpr rfl)

/-- The invariant only reads the lists and, outside them, data that no bookkeeping changes. -/
theorem of_data (h : TaskListInv k L) (hl : ListsOk k' L) (hd : k'.data = k.data) :
    TaskListInv k' L := by
  have htcb : k'.tcb = k.tcb := tcb_of_data hd
  have hlive : k'.liveTcbs = k.liveTcbs := liveTcbs_of_data hd
  have htable : k'.taskTable = k.taskTable := taskTable_of_data hd
  obtain ⟨-, h₁, h₂, h₃, h₄, h₅, h₆⟩ := h
  rw [← hlive, ← htcb] at h₂ h₃
  rw [← hlive] at h₁ h₄ h₅
  rw [← htable] at h₅ h₆
  exact ⟨hl, h₁, h₂, h₃, h₄, h₅, h₆⟩

/-- **Moving one task.** A step that rewrites the control block of `t` to `v` and moves only `t`
between lists keeps the invariant when `t` ends up exactly where `v` says. -/
theorem move {v : Tcb} (h : TaskListInv k L) (hl : ListsOk k' L')
    (hd : k'.data = (k.setTcb t v).data) (ht : t ∈ k.liveTcbs)
    (hmem : ∀ x, x ≠ t → ∀ P, x ∈ L' P ↔ x ∈ L P) (hplace : ∀ P, t ∈ L' P ↔ v.Fits P)
    (hcoh : v.Coherent) : TaskListInv k' L' := by
  have htcb : k'.tcb = Function.update k.tcb t v := tcb_of_data hd
  have hlive : k'.liveTcbs = k.liveTcbs := (liveTcbs_of_data hd : _)
  have htable : k'.taskTable = k.taskTable := (taskTable_of_data hd : _)
  refine ⟨hl, fun P x hx => ?_, fun x hx P => ?_, fun x hx => ?_, hlive ▸ h.liveNodup,
    hlive ▸ htable ▸ h.liveCount, htable ▸ h.tableBound⟩
  · rw [hlive]
    by_cases hxt : x = t
    · exact hxt ▸ ht
    · exact h.live P x ((hmem x hxt P).mp hx)
  · rw [hlive] at hx
    rw [htcb, Function.update_apply]
    split
    · next hxt => exact hxt ▸ hplace P
    · next hxt => exact (hmem x hxt P).trans (h.placed x hx P)
  · rw [hlive] at hx
    rw [htcb, Function.update_apply]
    split
    · exact hcoh
    · exact h.coherent x hx

/-- Rewriting fields that do not name a list keeps the invariant. -/
theorem setTcb {v : Tcb} (h : TaskListInv k L) (hf : ∀ P, v.Fits P ↔ (k.tcb t).Fits P)
    (hcoh : (k.tcb t).Coherent → v.Coherent) : TaskListInv (k.setTcb t v) L := by
  refine ⟨h.lists.setTcb t v, h.live, fun x hx P => ?_, fun x hx => ?_, h.liveNodup, h.liveCount,
    h.tableBound⟩
  · rw [h.placed x hx P]
    show _ ↔ (Function.update k.tcb t v x).Fits P
    rw [Function.update_apply]
    split
    · next hxt => exact hxt ▸ (hf P).symm
    · rfl
  · show (Function.update k.tcb t v x).Coherent
    rw [Function.update_apply]
    split
    · next hxt => exact hcoh (hxt ▸ h.coherent x hx)
    · exact h.coherent x hx

/-- A live task that is not BLOCKED has no `blocked_on`. -/
theorem blockedOn_eq_none (h : TaskListInv k L) (ht : t ∈ k.liveTcbs)
    (hs : (k.tcb t).state ≠ .blocked) : (k.tcb t).blockedOn = none := by
  rcases h.coherent t ht with hc | ⟨hc, -⟩
  · exact hc
  · exact absurd hc hs

end TaskListInv

/-! ## Membership after a move -/

/-- Removing one task moves no other. -/
theorem Layout.mem_remove_of_ne (L : Layout) (P Q : Place) {x : TaskId} (hx : x ≠ t) :
    x ∈ L.remove P t Q ↔ x ∈ L Q := by
  rw [Layout.remove, Layout.set_apply]
  split
  · next hQ => rw [hQ, List.mem_erase_of_ne hx]
  · rfl

/-- Adding one task to a list moves no other. -/
theorem Layout.mem_set_of_ne (L : Layout) (P Q : Place) {l : List TaskId}
    (hl : ∀ x, x ∈ l ↔ x = t ∨ x ∈ L P) {x : TaskId} (hx : x ≠ t) :
    x ∈ L.set P l Q ↔ x ∈ L Q := by
  rw [Layout.set_apply]
  split
  · next hQ => simp [hl x, hx, hQ]
  · rfl

/-- A task added to one list, and in no other before, is in that list only. -/
theorem Layout.mem_set_self {L : Layout} (P Q : Place) {l : List TaskId} (hl : t ∈ l)
    (ht : ∀ Q, t ∉ L Q) : t ∈ L.set P l Q ↔ Q = P := by
  rw [Layout.set_apply]
  split
  · next hQ => simp [hl, hQ]
  · next hQ => simp [ht Q, hQ]

/-! ## Moves between lists -/

/-- **Blocking on an object keeps the invariant.** -/
theorem TaskListInv.block (timeout : Nat) (h : TaskListInv k L) (ht : t ∈ k.liveTcbs)
    (hs : (k.tcb t).state = .ready ∨ (k.tcb t).state = .running) :
    ∃ k', blockTask k w t timeout w.reason w.obj = some k' ∧
      TaskListInv k' ((L.remove (.ready (k.prio t)) t).set (.wait w)
        ((L (.wait w)).orderedInsert k.before t)) ∧
      k'.data = (k.setTcb t ((k.tcb t).waiting timeout w.reason w.obj)).data := by
  have hmem := h.mem_ready ht hs
  obtain ⟨k', hk', hl, hd⟩ := blockTask_lists timeout w.reason w.obj h.lists hmem
    (h.length_le (.wait w))
  have hfit := Tcb.fits_wait (v := (k.tcb t).waiting timeout w.reason w.obj) (w := w) rfl rfl rfl
  refine ⟨k', hk', h.move hl hd ht (fun x hx P => ?_) (fun P => ?_)
    (Or.inr ⟨rfl, w, rfl, rfl⟩), hd⟩
  · rw [Layout.mem_set_of_ne (t := t) _ _ _ _ hx, Layout.mem_remove_of_ne _ _ _ hx]
    intro y
    rw [List.mem_orderedInsert, Layout.remove, Layout.set_of_ne _ _ (by simp)]
  · rw [Layout.mem_set_self _ _ (by simp [List.mem_orderedInsert]) (h.lists.not_mem_remove hmem),
      hfit]

/-- **Waking the first waiter keeps the invariant.** -/
theorem TaskListInv.wake {r : List TaskId} (h : TaskListInv k L) (hw : L (.wait w) = t :: r) :
    ∃ k', wakeTask k w = (some t, k') ∧
      TaskListInv k'
        ((L.set (.wait w) r).set (.ready (k.prio t)) (L (.ready (k.prio t)) ++ [t])) ∧
      k'.data = (k.setTcb t
        { k.tcb t with
          blockedOn := none, blockedReason := .none, delayTicks := 0, timedOut := false
          state := .ready }).data := by
  obtain ⟨k', hk', hl, hd⟩ := wakeTask_lists h.lists hw
  have hmem : t ∈ L (.wait w) := by simp [hw]
  have hrem : L.set (.wait w) r = L.remove (.wait w) t := by
    rw [Layout.remove, hw, List.erase_cons_head]
  refine ⟨k', hk', h.move hl hd (h.live _ t hmem) (fun x hx P => ?_) (fun P => ?_) (Or.inl rfl), hd⟩
  · rw [Layout.mem_set_of_ne (t := t) _ _ _ _ hx, hrem, Layout.mem_remove_of_ne _ _ _ hx]
    intro y
    rw [Layout.set_of_ne _ _ (by simp), List.mem_append, List.mem_singleton, or_comm]
  · rw [Layout.mem_set_self _ _ (by simp) (hrem ▸ h.lists.not_mem_remove hmem),
      Tcb.fits_ready (Or.inl rfl)]
    rfl

/-- **Delaying keeps the invariant**: the task goes to the front of `blocked_list`. -/
theorem TaskListInv.addToBlocked {timeout : Nat} (h : TaskListInv k L) (ht : t ∈ k.liveTcbs)
    (hs : (k.tcb t).state = .ready ∨ (k.tcb t).state = .running) :
    TaskListInv (osTaskAddToBlocked k t timeout)
      ((L.remove (.ready (k.prio t)) t).set .blocked (t :: L .blocked)) := by
  have hmem := h.mem_ready ht hs
  have hb := h.blockedOn_eq_none ht (by rcases hs with hs | hs <;> simp [hs])
  have hfit := Tcb.fits_blocked
    (v := { k.tcb t with state := .blocked, delayTicks := timeout }) rfl hb
  refine h.move (osTaskAddToBlocked_lists h.lists hmem) (data_osTaskAddToBlocked k t timeout) ht
    (fun x hx P => ?_) (fun P => ?_) (Or.inl hb)
  · rw [Layout.mem_set_of_ne (t := t) _ _ _ _ hx, Layout.mem_remove_of_ne _ _ _ hx]
    intro y
    rw [List.mem_cons, Layout.remove, Layout.set_of_ne _ _ (by simp)]
  · rw [Layout.mem_set_self _ _ (by simp) (h.lists.not_mem_remove hmem), hfit]

/-- Putting a listed task back into its ready list, after its control block was rewritten. -/
theorem TaskListInv.toReady {v : Tcb} {P : Place} (h : TaskListInv k L) (ht : t ∈ L P)
    (hl : ListsOk k' (L.remove P t)) (hd : k'.data = (k.setTcb t v).data)
    (hcoh : v.blockedOn = none) :
    TaskListInv (osTaskAddToReady k' t)
        ((L.remove P t).set (.ready v.priority) (L.remove P t (.ready v.priority) ++ [t])) ∧
      (osTaskAddToReady k' t).data = (k.setTcb t { v with state := .ready }).data := by
  have htcb : k'.tcb = Function.update k.tcb t v := tcb_of_data hd
  have hprio : k'.prio t = v.priority := by simp [Kernel.prio, htcb]
  have hl' := osTaskAddToReady_lists hl (h.lists.not_mem_remove ht)
  rw [hprio] at hl'
  have hd' : (osTaskAddToReady k' t).data = (k.setTcb t { v with state := .ready }).data := by
    rw [data_osTaskAddToReady, htcb, Function.update_self, data_setTcb_congr hd]
    simp only [Kernel.setTcb, Function.update_idem]
  refine ⟨h.move hl' hd' (h.live _ t ht) (fun x hx Q => ?_) (fun Q => ?_) (Or.inl hcoh), hd'⟩
  · rw [Layout.mem_set_of_ne (t := t) _ _ _ _ hx, Layout.mem_remove_of_ne _ _ _ hx]
    intro y
    rw [List.mem_append, List.mem_singleton, or_comm]
  · rw [Layout.mem_set_self _ _ (by simp) (h.lists.not_mem_remove ht),
      Tcb.fits_ready (Or.inl rfl)]

/-- **Suspending keeps the invariant.** -/
theorem TaskListInv.suspend (h : TaskListInv k L) (ht : t ∈ k.liveTcbs)
    (hs : (k.tcb t).state = .ready ∨ (k.tcb t).state = .running) :
    TaskListInv ((osTaskRemoveFromReady k t).setTcb t { k.tcb t with state := .suspended })
      (L.remove (.ready (k.prio t)) t) := by
  have hmem := h.mem_ready ht hs
  have hb := h.blockedOn_eq_none ht (by rcases hs with hs | hs <;> simp [hs])
  refine h.move ((osTaskRemoveFromReady_lists h.lists hmem).setTcb t _) rfl ht
    (fun x hx P => Layout.mem_remove_of_ne _ _ _ hx) (fun P => ?_) (Or.inl hb)
  exact iff_of_false (h.lists.not_mem_remove hmem P) (Tcb.fits_suspended rfl P)

/-- **Resuming keeps the invariant.** -/
theorem TaskListInv.resume (h : TaskListInv k L) (ht : t ∈ k.liveTcbs)
    (hs : (k.tcb t).state = .suspended) :
    TaskListInv (osTaskAddToReady k t)
      (L.set (.ready (k.prio t)) (L (.ready (k.prio t)) ++ [t])) := by
  have hnot : ∀ P, t ∉ L P := fun P hP =>
    Tcb.fits_suspended hs P ((h.placed t ht P).mp hP)
  have hb := h.blockedOn_eq_none ht (by simp [hs])
  refine h.move (osTaskAddToReady_lists h.lists hnot) (data_osTaskAddToReady k t) ht
    (fun x hx P => ?_) (fun P => ?_) (Or.inl hb)
  · refine Layout.mem_set_of_ne (t := t) _ _ _ (fun y => ?_) hx
    rw [List.mem_append, List.mem_singleton, or_comm]
  · rw [Layout.mem_set_self _ _ (by simp) hnot, Tcb.fits_ready (Or.inl rfl)]
    rfl

/-- **Self-deletion keeps the invariant**: the task goes to the front of the deferred-delete
list. -/
theorem TaskListInv.deleteSelf (h : TaskListInv k L) (hc : k.current = some c)
    (ht : c ∈ k.liveTcbs) (hs : (k.tcb c).state = .ready ∨ (k.tcb c).state = .running) :
    ∃ k', osTaskDeleteSelf k = some k' ∧
      TaskListInv k' ((L.remove (.ready (k.prio c)) c).set .deferred (c :: L .deferred)) ∧
      k'.data = (k.setTcb c { k.tcb c with state := .deleted, pendingDelete := true }).data := by
  have hmem := h.mem_ready ht hs
  have hb := h.blockedOn_eq_none ht (by rcases hs with hs | hs <;> simp [hs])
  have hnot := h.lists.not_mem_remove hmem
  have h₁ := osTaskRemoveFromReady_lists h.lists.enterCritical hmem
  have hdef : L.remove (.ready (k.prio c)) c .deferred = L .deferred :=
    Layout.set_of_ne _ _ (by simp)
  have hl : ListsOk ((osTaskRemoveFromReady (osSchedEnterCritical k) c).setTcb c
      { k.tcb c with state := .deleted, pendingDelete := true })
      (L.remove (.ready (k.prio c)) c) := h₁.setTcb c _
  refine ⟨_, by simp only [osTaskDeleteSelf, hc]; rfl, h.move (t := c)
    (v := { k.tcb c with state := .deleted, pendingDelete := true }) (ListsOk.yield
      (ListsOk.exitCritical ?_)) rfl ht (fun x hx P => ?_) (fun P => ?_) (Or.inl hb), rfl⟩
  · rw [← hdef]
    exact hl.pushDeferred hnot
  · rw [Layout.mem_set_of_ne (t := c) _ _ _ _ hx, Layout.mem_remove_of_ne _ _ _ hx]
    intro y
    rw [List.mem_cons, hdef]
  · rw [Layout.mem_set_self _ _ (by simp) hnot, Tcb.fits_deleted rfl]

/-! ## Calm steps

What a step that is no mutex call, no context selection and no deletion does to things the mutexes
rely on. -/

/-- **A mild step** leaves the wait lists of the mutexes and the current task alone; it makes no task
RUNNING, deletes none and times none out. -/
structure Mild (k : Kernel) (L : Layout) (k' : Kernel) (L' : Layout) : Prop where
  /-- The mutex wait lists. -/
  waits : ∀ m, L' (.wait (.mutex m)) = L (.wait (.mutex m))
  /-- The current task. -/
  current : k'.current = k.current
  /-- A live task that is not deleted stays so. -/
  live : ∀ t ∈ k.liveTcbs, (k.tcb t).state ≠ .deleted →
    t ∈ k'.liveTcbs ∧ (k'.tcb t).state ≠ .deleted
  /-- No task becomes RUNNING. -/
  running : ∀ t ∈ k'.liveTcbs, (k'.tcb t).state = .running →
    t ∈ k.liveTcbs ∧ (k.tcb t).state = .running
  /-- No task is timed out. -/
  timedOut : ∀ t ∈ k'.liveTcbs, (k'.tcb t).timedOut = true →
    t ∈ k.liveTcbs ∧ (k.tcb t).timedOut = true

/-- **A calm step** is mild and puts no task into a wait list. -/
structure Calm (k : Kernel) (L : Layout) (k' : Kernel) (L' : Layout) : Prop
    extends Mild k L k' L' where
  /-- Waiters only leave, and those that stay keep their order. -/
  thins : ∀ w, (L' (.wait w)).Sublist (L (.wait w))

/-- A step that rewrites one control block and moves its task outside the mutex wait lists. -/
theorem Mild.of_tcb {v : Tcb} (hd : k'.data = (k.setTcb t v).data)
    (hw : ∀ m, L' (.wait (.mutex m)) = L (.wait (.mutex m)))
    (hr : v.state = .running → (k.tcb t).state = .running)
    (hdel : v.state = .deleted → (k.tcb t).state = .deleted)
    (hto : v.timedOut = true → (k.tcb t).timedOut = true) : Mild k L k' L' := by
  have htcb : k'.tcb = Function.update k.tcb t v := tcb_of_data hd
  have hlive : k'.liveTcbs = k.liveTcbs := (liveTcbs_of_data hd : _)
  have hcur : k'.current = k.current := (current_of_data hd : _)
  refine ⟨hw, hcur, fun x hx hs => ⟨hlive ▸ hx, ?_⟩, fun x hx hs => ⟨hlive ▸ hx, ?_⟩,
    fun x hx hs => ⟨hlive ▸ hx, ?_⟩⟩
  all_goals
    by_cases hxt : x = t
    · subst hxt
      simp only [htcb, Function.update_self] at *
      tauto
    · simp only [htcb, Function.update_of_ne hxt] at *
      exact hs

/-- Two mild steps are a mild step. -/
theorem Mild.trans {k'' : Kernel} {L'' : Layout} (h₁ : Mild k L k' L') (h₂ : Mild k' L' k'' L'') :
    Mild k L k'' L'' where
  waits m := (h₂.waits m).trans (h₁.waits m)
  current := h₂.current.trans h₁.current
  live t ht hs := (h₁.live t ht hs).elim fun ht' hs' => h₂.live t ht' hs'
  running t ht hs := (h₂.running t ht hs).elim fun ht' hs' => h₁.running t ht' hs'
  timedOut t ht hs := (h₂.timedOut t ht hs).elim fun ht' hs' => h₁.timedOut t ht' hs'

namespace Calm

/-- Doing nothing is calm. -/
theorem refl (k : Kernel) (L : Layout) : Calm k L k L :=
  ⟨⟨fun _ => rfl, rfl, fun _ h h' => ⟨h, h'⟩, fun _ h h' => ⟨h, h'⟩, fun _ h h' => ⟨h, h'⟩⟩,
    fun _ => List.Sublist.refl _⟩

/-- Two calm steps are a calm step. -/
theorem trans {k'' : Kernel} {L'' : Layout} (h₁ : Calm k L k' L') (h₂ : Calm k' L' k'' L'') :
    Calm k L k'' L'' :=
  ⟨h₁.toMild.trans h₂.toMild, fun w => (h₂.thins w).trans (h₁.thins w)⟩

/-- A step that rewrites one control block and moves its task outside the wait lists. -/
theorem of_tcb {v : Tcb} (hd : k'.data = (k.setTcb t v).data)
    (hw : ∀ w, L' (.wait w) = L (.wait w))
    (hr : v.state = .running → (k.tcb t).state = .running)
    (hdel : v.state = .deleted → (k.tcb t).state = .deleted)
    (hto : v.timedOut = true → (k.tcb t).timedOut = true) : Calm k L k' L' :=
  ⟨Mild.of_tcb hd (fun m => hw (.mutex m)) hr hdel hto, fun w => by rw [hw w]⟩

/-- A step that changes nothing outside the lists. -/
theorem of_data (hd : k'.data = k.data) (hw : ∀ w, L' (.wait w) = L (.wait w)) :
    Calm k L k' L' := by
  refine of_tcb (t := 0) (v := k.tcb 0) ?_ hw id id id
  rw [hd, Kernel.setTcb, Function.update_eq_self]

/-- A step after bookkeeping. -/
theorem after_data {k₀ : Kernel} (h : Calm k L k' L') (hd : k.data = k₀.data) : Calm k₀ L k' L' :=
  (of_data (L := L) hd fun _ => rfl).trans h

/-- A step followed by bookkeeping. -/
theorem then_data {k'' : Kernel} (h : Calm k L k' L') (hd : k''.data = k'.data) : Calm k L k'' L' :=
  h.trans (of_data (L := L') hd fun _ => rfl)

end Calm

/-- Taking a task out of a list that is no wait list. -/
theorem Layout.remove_wait (L : Layout) {P : Place} (hP : ∀ w, P ≠ .wait w) (t : TaskId)
    (w : WaitList) : L.remove P t (.wait w) = L (.wait w) :=
  Layout.set_of_ne _ _ (hP w).symm

/-- Replacing a list that is no wait list. -/
theorem Layout.set_wait (L : Layout) {P : Place} (hP : ∀ w, P ≠ .wait w) (l : List TaskId)
    (w : WaitList) : L.set P l (.wait w) = L (.wait w) :=
  Layout.set_of_ne _ _ (hP w).symm

end MiniRTOS
