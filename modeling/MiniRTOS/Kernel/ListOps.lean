import MiniRTOS.Kernel.Layout
import MiniRTOS.Lib.LinkGraph

/-! # The list functions on layouts

For each function of `task.c` that links or unlinks a task, and for the wait-list functions: the
layout after the call (`..._lists`) and what else the call changes (`data_...`). `Kernel.data` is the
state without the list pointers and without the interrupt-mask and yield bookkeeping, so an equation
between `data` values says that two states differ in these only. -/

namespace MiniRTOS

open PtrList

variable {k k' : Kernel} {L : Layout} {t : TaskId} {w : WaitList} {p : Prio} {l rl : List TaskId}

/-! ## Everything but the lists -/

/-- The kernel state with every list pointer and the bookkeeping of critical sections and yield
requests erased. -/
def Kernel.data (k : Kernel) : Kernel :=
  { k with
    yieldPending := false
    pendSv := false
    criticalNesting := 0
    savedMask := fun _ => 0
    primask := 0
    links := ⟨fun _ => none, fun _ => none⟩
    readyList := fun _ => ⟨none, none, 0⟩
    readyBitmap := 0
    blockedList := none
    deferredDeleteList := none
    queues := fun q => { k.queues q with sendWaitList := none, recvWaitList := none }
    sems := fun s => { k.sems s with waitList := none }
    mutexes := fun m => { k.mutexes m with waitList := none }
    eventGroups := fun e => { k.eventGroups e with waitList := none } }

/-- States that agree outside the lists have the same control blocks. -/
theorem tcb_of_data (h : k'.data = k.data) : k'.tcb = k.tcb := by
  have htcb := congrArg Kernel.tcb h
  exact htcb

/-- Equal data, equal priorities. -/
theorem prio_of_data (h : k'.data = k.data) : k'.prio = k.prio := by
  unfold Kernel.prio
  rw [tcb_of_data h]

/-- Equal data, equal live control blocks. -/
theorem liveTcbs_of_data (h : k'.data = k.data) : k'.liveTcbs = k.liveTcbs := by
  have hlive := congrArg Kernel.liveTcbs h
  exact hlive

/-- Equal data, equal task tables. -/
theorem taskTable_of_data (h : k'.data = k.data) : k'.taskTable = k.taskTable := by
  have htable := congrArg Kernel.taskTable h
  exact htable

/-- Equal data, the same current task. -/
theorem current_of_data (h : k'.data = k.data) : k'.current = k.current := by
  have hcurrent := congrArg Kernel.current h
  exact hcurrent

/-- Writing a control block commutes with erasing the lists. -/
theorem data_setTcb_congr (h : k'.data = k.data) (t : TaskId) (v : Tcb) :
    (k'.setTcb t v).data = (k.setTcb t v).data := by
  have hd := congrArg (fun d : Kernel => d.setTcb t v) h
  exact hd

/-- Writing a control block without its priority. -/
theorem prio_setTcb {v : Tcb} (hv : v.priority = k.prio t) : (k.setTcb t v).prio = k.prio := by
  funext x
  show (Function.update k.tcb t v x).priority = _
  rw [Function.update_apply]
  split
  · next hx => rw [hx, hv]
  · rfl

/-- The second of two writes to one control block is the one that stays. -/
theorem Kernel.setTcb_setTcb (k : Kernel) (t : TaskId) (v v' : Tcb) :
    (k.setTcb t v).setTcb t v' = k.setTcb t v' := by
  simp only [Kernel.setTcb, Function.update_idem]

/-- A control block reads as it was written. -/
theorem Kernel.tcb_setTcb_self (k : Kernel) (t : TaskId) (v : Tcb) : (k.setTcb t v).tcb t = v :=
  Function.update_self ..

/-- Entering a critical section changes no data of a task. -/
theorem data_osSchedEnterCritical (k : Kernel) : (osSchedEnterCritical k).data = k.data := rfl

/-- Nor does leaving one. -/
theorem data_osSchedExitCritical (k : Kernel) : (osSchedExitCritical k).data = k.data := rfl

/-- Nor does asking for a switch. -/
theorem data_osSchedYield (k : Kernel) : (osSchedYield k).data = k.data := rfl

/-- Nor does asking for one from an interrupt. -/
theorem data_osSchedRequestSwitchFromIsr (k : Kernel) :
    (osSchedRequestSwitchFromIsr k).data = k.data := rfl

/-- Taking a task out of its ready list changes its links only. -/
theorem data_osTaskRemoveFromReady (k : Kernel) (t : TaskId) :
    (osTaskRemoveFromReady k t).data = k.data := rfl

/-- Making a task ready changes its state only. -/
theorem data_osTaskAddToReady (k : Kernel) (t : TaskId) :
    (osTaskAddToReady k t).data = (k.setTcb t { k.tcb t with state := .ready }).data := rfl

/-- Blocking a task with a timeout changes its state and its delay. -/
theorem data_osTaskAddToBlocked (k : Kernel) (t : TaskId) (timeout : Nat) :
    (osTaskAddToBlocked k t timeout).data
      = (k.setTcb t { k.tcb t with state := .blocked, delayTicks := timeout }).data := rfl

/-- Writing a wait-list head changes the lists only. -/
theorem data_setWaitHead (k : Kernel) (h : Option TaskId) (w : WaitList) :
    (k.setWaitHead h w).data = k.data := by
  cases w
  all_goals
    simp only [Kernel.setWaitHead, Kernel.setQueue, Kernel.setSem, Kernel.setMutex,
      Kernel.setEventGroup, Kernel.data, Kernel.mk.injEq, true_and, and_true]
    funext a
    rw [Function.update_apply]
    split
    · next ha => rw [ha]
    · rfl

/-- Unblocking a task clears what it waits for. -/
theorem data_unblockTask (k : Kernel) (w : WaitList) (t : TaskId) :
    (unblockTask k w t).data
      = (k.setTcb t { k.tcb t with blockedOn := none, blockedReason := .none }).data := by
  unfold unblockTask
  generalize hk₁ : (if (k.links.prev t).isSome then k else k.setWaitHead (k.links.next t) w) = k₁
  have hd : k₁.data = k.data := by
    rw [← hk₁]
    split
    · rfl
    · exact data_setWaitHead ..
  show (k₁.setTcb t { k₁.tcb t with blockedOn := none, blockedReason := .none }).data = _
  rw [tcb_of_data hd]
  exact data_setTcb_congr hd t _

/-! ## Ready lists -/

/-- Every priority is a bit of the bitmap. -/
theorem Prio.lt_width (p : Prio) : p.val < 32 := lt_trans p.isLt (by decide)

/-- Setting the bit of a priority. -/
theorem getLsbD_setBit (b : BitVec 32) (p : Prio) (i : Nat) :
    (b ||| BitVec.twoPow 32 p).getLsbD i = (b.getLsbD i || decide (p.val = i)) := by
  rw [BitVec.getLsbD_or, BitVec.getLsbD_twoPow, decide_eq_true p.lt_width, Bool.true_and]

/-- Clearing the bit of a priority. -/
theorem getLsbD_clearBit (b : BitVec 32) (p : Prio) (i : Nat) :
    (b &&& ~~~BitVec.twoPow 32 p).getLsbD i = (b.getLsbD i && decide (p.val ≠ i)) := by
  rw [BitVec.getLsbD_and, BitVec.getLsbD_not, BitVec.getLsbD_twoPow, decide_eq_true p.lt_width]
  by_cases hi : i < 32
  · simp [hi]
  · rw [BitVec.getLsbD_of_ge b i (by omega)]
    simp

/-- **A ready list**: linked both ways, with its tail, its count and its bit of the bitmap. -/
structure ReadyListOk (k : Kernel) (p : Prio) (rl : List TaskId) : Prop where
  /-- The head pointer. -/
  head : (k.readyList p).head = rl.head?
  /-- The tail pointer. -/
  tail : (k.readyList p).tail = rl.getLast?
  /-- The links of the tasks. -/
  seg : k.links.Seg none rl none
  /-- The count. -/
  count : (k.readyList p).count = rl.length
  /-- The bit of the priority. -/
  bitmap : k.readyBitmap.getLsbD p = true ↔ rl ≠ []

/-- `os_task_remove_from_ready` in one ready list. -/
theorem ReadyListOk.remove (h : ReadyListOk k (k.prio t) rl) (ht : t ∈ rl) :
    ReadyListOk (osTaskRemoveFromReady k t) (k.prio t) (rl.erase t) := by
  have hnd := h.seg.nodup
  obtain ⟨l, r, rfl, he⟩ := exists_mid_of_mem ht hnd
  obtain ⟨hpv, hnx⟩ := h.seg.at_mid
  rw [he]
  have hhead : (if (k.links.prev t).isSome then (k.readyList (k.prio t)).head else k.links.next t)
      = (l ++ r).head? := by
    rw [head?_of_mid l r t, hpv, hnx, h.head]
  refine ⟨?_, ?_, h.seg.unlink hnd, ?_, ?_⟩
  · simp only [osTaskRemoveFromReady, Function.update_self]
    exact hhead
  · simp only [osTaskRemoveFromReady, Function.update_self]
    rw [getLast?_of_mid l r t, hnx, hpv, h.tail]
  · simp only [osTaskRemoveFromReady, Function.update_self]
    rw [h.count]
    simp
  · -- the bit is cleared exactly when the list has become empty
    simp only [osTaskRemoveFromReady, hhead]
    cases hlr : l ++ r with
    | nil => simp only [List.head?_nil, Option.isSome_none, Bool.false_eq_true, if_false, getLsbD_clearBit,
        ne_eq, not_true_eq_false, decide_false, Bool.and_false]
    | cons a m => simpa using h.bitmap

/-- `os_task_remove_from_ready` in the other ready lists. -/
theorem osTaskRemoveFromReady_other {q : Prio} (hq : q ≠ k.prio t) :
    (osTaskRemoveFromReady k t).readyList q = k.readyList q ∧
      (osTaskRemoveFromReady k t).readyBitmap.getLsbD q = k.readyBitmap.getLsbD q := by
  have hbit : (k.prio t).val ≠ q.val := fun h => hq (Fin.ext h.symm)
  refine ⟨Function.update_of_ne hq .., ?_⟩
  simp only [osTaskRemoveFromReady]
  generalize (if (k.links.prev t).isSome then (k.readyList (k.prio t)).head else k.links.next t) = hd
  split
  · rfl
  · rw [getLsbD_clearBit, decide_eq_true hbit, Bool.and_true]

/-- Each ready list of a layout. -/
theorem ListsOk.readyListOk (h : ListsOk k L) (p : Prio) : ReadyListOk k p (L (.ready p)) :=
  ⟨h.head (.ready p), h.tail p, h.seg _ (by simp), h.count p, h.bitmap p⟩

/-- `os_task_remove_from_ready` takes the task out of its ready list and out of no other. -/
theorem osTaskRemoveFromReady_lists (h : ListsOk k L) (ht : t ∈ L (.ready (k.prio t))) :
    ListsOk (osTaskRemoveFromReady k t) (L.remove (.ready (k.prio t)) t) := by
  have hother : ∀ Q, Q ≠ .ready (k.prio t) → L.remove (.ready (k.prio t)) t Q = L Q :=
    fun Q hQ => Layout.set_of_ne _ _ hQ
  have hready : ∀ p, ((osTaskRemoveFromReady k t).readyList p).head
        = (L.remove (.ready (k.prio t)) t (.ready p)).head? ∧
      ((osTaskRemoveFromReady k t).readyList p).tail
        = (L.remove (.ready (k.prio t)) t (.ready p)).getLast? ∧
      ((osTaskRemoveFromReady k t).readyList p).count
        = (L.remove (.ready (k.prio t)) t (.ready p)).length ∧
      ((osTaskRemoveFromReady k t).readyBitmap.getLsbD p = true ↔
        L.remove (.ready (k.prio t)) t (.ready p) ≠ []) := by
    intro p
    by_cases hp : p = k.prio t
    · subst hp
      obtain ⟨hhead, htail, -, hcount, hbit⟩ := (h.readyListOk (k.prio t)).remove ht
      rw [Layout.remove, Layout.set_self]
      exact ⟨hhead, htail, hcount, hbit⟩
    · obtain ⟨hlist, hbit⟩ := osTaskRemoveFromReady_other hp
      rw [hother _ (by simpa using hp), hlist, hbit]
      exact ⟨h.head (.ready p), h.tail p, h.count p, h.bitmap p⟩
  refine h.unlink (by simp) ht rfl (fun Q => ?_) (fun p => (hready p).2.1)
    (fun p => (hready p).2.2.1) (fun p => (hready p).2.2.2) fun i hi => ?_
  · cases Q with
    | ready p => exact (hready p).1
    | blocked => exact (h.head .blocked).trans (by rw [hother _ (by simp)])
    | wait w => exact (h.head (.wait w)).trans (by rw [hother _ (by simp)])
    | deferred => exact (h.head .deferred).trans (by rw [hother _ (by simp)])
  · simp only [osTaskRemoveFromReady]
    generalize (if (k.links.prev t).isSome then (k.readyList (k.prio t)).head else k.links.next t)
      = hd
    split
    · exact h.bitmapHigh i hi
    · rw [getLsbD_clearBit, h.bitmapHigh i hi, Bool.false_and]

/-- `os_task_add_to_ready` appends a task that is in no list to its ready list. -/
theorem osTaskAddToReady_lists (h : ListsOk k L) (ht : ∀ P, t ∉ L P) :
    ListsOk (osTaskAddToReady k t)
      (L.set (.ready (k.prio t)) (L (.ready (k.prio t)) ++ [t])) := by
  have hset : ∀ p, L.set (.ready (k.prio t)) (L (.ready (k.prio t)) ++ [t]) (.ready p)
      = if p = k.prio t then L (.ready (k.prio t)) ++ [t] else L (.ready p) := by
    intro p
    simp [Layout.set_apply]
  refine h.splice (l := L (.ready (k.prio t))) (r := []) (by simp) (by simp) ht
    (by rw [← h.tail]; rfl) (fun Q => ?_) (fun p => ?_) (fun p => ?_) (fun p => ?_) fun i hi => ?_
  · cases Q with
    | ready p =>
        rw [hset]
        simp only [Kernel.listHead, osTaskAddToReady, Function.update_apply]
        split
        · have hhead := h.head (.ready (k.prio t))
          simp only [Kernel.listHead] at hhead
          rw [h.tail, hhead]
          cases L (.ready (k.prio t)) <;> simp [List.getLast?_cons]
        · exact h.head (.ready p)
    | blocked => exact h.head .blocked
    | wait w => exact h.head (.wait w)
    | deferred => exact h.head .deferred
  · rw [hset]
    simp only [osTaskAddToReady, Function.update_apply]
    split
    · simp
    · exact h.tail p
  · rw [hset]
    simp only [osTaskAddToReady, Function.update_apply]
    split
    · simp [h.count]
    · exact h.count p
  · rw [hset]
    simp only [osTaskAddToReady, h.tail]
    have hb := h.bitmap p
    by_cases hp : p = k.prio t
    · subst hp
      rw [if_pos rfl]
      cases hl : L (.ready (k.prio t)) with
      | nil => simp only [List.getLast?_nil, Option.isSome_none, Bool.false_eq_true, if_false,
          getLsbD_setBit, decide_true, Bool.or_true, List.nil_append, ne_eq,
          List.cons_ne_self, not_false_eq_true]
      | cons a l => simpa [hl, List.getLast?_cons] using hb
    · have hne : (k.prio t).val ≠ p.val := fun hv => hp (Fin.ext hv.symm)
      rw [if_neg hp]
      split
      · exact hb
      · rw [getLsbD_setBit, decide_eq_false hne, Bool.or_false]
        exact hb
  · have hne : (k.prio t).val ≠ i := fun hv => absurd (k.prio t).isLt (by omega)
    simp only [osTaskAddToReady]
    split
    · exact h.bitmapHigh i hi
    · rw [getLsbD_setBit, h.bitmapHigh i hi, decide_eq_false hne, Bool.or_false]

/-! ## The blocked list -/

/-- Writing a control block moves no task. -/
theorem ListsOk.setTcb (h : ListsOk k L) (t : TaskId) (v : Tcb) : ListsOk (k.setTcb t v) L :=
  h.congr rfl rfl rfl fun P => by cases P <;> rfl

/-- Critical sections and yield requests move no task. -/
theorem ListsOk.enterCritical (h : ListsOk k L) : ListsOk (osSchedEnterCritical k) L :=
  h.congr rfl rfl rfl fun P => by cases P <;> rfl

/-- The lists do not depend on the critical section. -/
theorem ListsOk.exitCritical (h : ListsOk k L) : ListsOk (osSchedExitCritical k) L :=
  h.congr rfl rfl rfl fun P => by cases P <;> rfl

/-- Nor on a request to switch. -/
theorem ListsOk.yield (h : ListsOk k L) : ListsOk (osSchedYield k) L :=
  h.congr rfl rfl rfl fun P => by cases P <;> rfl

/-- Nor on one from an interrupt. -/
theorem ListsOk.requestSwitch (h : ListsOk k L) : ListsOk (osSchedRequestSwitchFromIsr k) L :=
  h.congr rfl rfl rfl fun P => by cases P <;> rfl

/-- **`os_task_set_priority` moves a READY task** to the tail of the ready list of its new priority. -/
theorem osTaskSetPriority_lists {q : Prio} (h : ListsOk k L) (hs : (k.tcb t).state = .ready)
    (ht : t ∈ L (.ready (k.prio t))) :
    ListsOk (osTaskSetPriority k t q) ((L.remove (.ready (k.prio t)) t).set (.ready q)
      (L.remove (.ready (k.prio t)) t (.ready q) ++ [t])) := by
  set k₁ := osTaskRemoveFromReady (osSchedEnterCritical k) t with hk₁
  have h₁ : ListsOk k₁ (L.remove (.ready (k.prio t)) t) :=
    osTaskRemoveFromReady_lists h.enterCritical ht
  have h₂ := osTaskAddToReady_lists (h₁.setTcb t { k₁.tcb t with priority := q })
    (h.not_mem_remove ht)
  have hprio : (k₁.setTcb t { k₁.tcb t with priority := q }).prio t = q := by
    rw [Kernel.prio, Kernel.tcb_setTcb_self]
  rw [hprio] at h₂
  have hs₁ : ((osSchedEnterCritical k).tcb t).state = .ready := hs
  unfold osTaskSetPriority
  dsimp only
  rw [if_pos hs₁]
  exact h₂.exitCritical

/-- It only writes the priority of any other. -/
theorem osTaskSetPriority_lists_of_not_ready {q : Prio} (h : ListsOk k L)
    (hs : (k.tcb t).state ≠ .ready) : ListsOk (osTaskSetPriority k t q) L := by
  have hs₁ : ¬ ((osSchedEnterCritical k).tcb t).state = .ready := hs
  unfold osTaskSetPriority
  dsimp only
  rw [if_neg hs₁]
  exact (h.enterCritical.setTcb t _).exitCritical

/-- `os_task_remove_from_blocked` takes the task out of `blocked_list`. -/
theorem osTaskRemoveFromBlocked_lists (h : ListsOk k L) (ht : t ∈ L .blocked) :
    ListsOk (osTaskRemoveFromBlocked k t) (L.remove .blocked t) := by
  obtain ⟨l, r, hl, he⟩ := exists_mid_of_mem ht (h.nodup _)
  obtain ⟨hpv, hnx⟩ := (hl ▸ h.seg _ (by simp) : k.links.Seg none (l ++ t :: r) none).at_mid
  have hother : ∀ Q, Q ≠ .blocked → L.remove .blocked t Q = L Q :=
    fun Q hQ => Layout.set_of_ne _ _ hQ
  refine h.unlink (by simp) ht rfl (fun Q => ?_) (fun p => ?_) (fun p => ?_) (fun p => ?_)
    fun i hi => h.bitmapHigh i hi
  · cases Q with
    | ready p => exact (h.head (.ready p)).trans (by rw [hother _ (by simp)])
    | blocked =>
        have hhead := h.head .blocked
        simp only [Kernel.listHead] at hhead
        simp only [Kernel.listHead, osTaskRemoveFromBlocked, Layout.remove, Layout.set_self]
        rw [he, head?_of_mid l r t, hpv, hnx, hhead, hl]
    | wait w => exact (h.head (.wait w)).trans (by rw [hother _ (by simp)])
    | deferred => exact (h.head .deferred).trans (by rw [hother _ (by simp)])
  · rw [hother _ (by simp)]
    exact h.tail p
  · rw [hother _ (by simp)]
    exact h.count p
  · rw [hother _ (by simp)]
    exact h.bitmap p

/-- The links written by `os_task_add_to_blocked` are a splice at the front, because the task's
`prev` has just been cleared. -/
theorem setNext_setPrev?_eq_splice {s : Links TaskId} {a : TaskId} {q : Option TaskId}
    (ha : s.prev a = none) (hq : q ≠ some a) :
    (s.setNext a q).setPrev? q (some a) = s.splice a none q := by
  have hnx : ((s.setNext a q).setPrev? q (some a)).next = (s.splice a none q).next := by
    funext x
    simp [Links.splice_next, Function.update_apply]
  have hpv : ((s.setNext a q).setPrev? q (some a)).prev = (s.splice a none q).prev := by
    funext x
    rw [Links.splice_prev, Links.setPrev?_prev]
    by_cases hx : x = a
    · subst hx
      simp [hq, ha]
    · simp [hx]
  calc (s.setNext a q).setPrev? q (some a)
      = ⟨((s.setNext a q).setPrev? q (some a)).next, ((s.setNext a q).setPrev? q (some a)).prev⟩ :=
        rfl
    _ = ⟨(s.splice a none q).next, (s.splice a none q).prev⟩ := by rw [hnx, hpv]
    _ = s.splice a none q := rfl

/-- `os_task_add_to_blocked` moves the task from its ready list to the front of `blocked_list`. -/
theorem osTaskAddToBlocked_lists {timeout : Nat} (h : ListsOk k L)
    (ht : t ∈ L (.ready (k.prio t))) :
    ListsOk (osTaskAddToBlocked k t timeout)
      ((L.remove (.ready (k.prio t)) t).set .blocked (t :: L .blocked)) := by
  have h₁ := osTaskRemoveFromReady_lists h ht
  have hnot := h.not_mem_remove ht
  have hb : L.remove (.ready (k.prio t)) t .blocked = L .blocked :=
    Layout.set_of_ne _ _ (by simp)
  have hhead := h₁.head .blocked
  simp only [Kernel.listHead] at hhead
  have hprev : (osTaskRemoveFromReady k t).links.prev t = none := by
    show (k.links.unlink t).prev t = none
    rw [Links.unlink_prev, if_pos rfl]
  have hne : (osTaskRemoveFromReady k t).blockedList ≠ some t := by
    rw [hhead, hb]
    exact fun hh => hnot .blocked (hb ▸ List.mem_of_head? hh)
  rw [← hb]
  refine h₁.splice (l := []) (r := L.remove (.ready (k.prio t)) t .blocked) (by simp) rfl hnot ?_
    (fun Q => ?_) (fun p => ?_) (fun p => ?_) (fun p => ?_) h₁.bitmapHigh
  · rw [List.getLast?_nil, ← hhead]
    exact setNext_setPrev?_eq_splice hprev hne
  · cases Q with
    | ready p => exact h₁.head (.ready p)
    | blocked => simp [Kernel.listHead, osTaskAddToBlocked]
    | wait w => exact h₁.head (.wait w)
    | deferred => exact h₁.head .deferred
  · exact h₁.tail p
  · exact h₁.count p
  · exact h₁.bitmap p

/-! ## Wait lists -/

/-- Reading back a wait-list head. -/
theorem waitHead_setWaitHead (k : Kernel) (h : Option TaskId) (w v : WaitList) :
    (k.setWaitHead h w).waitHead v = if v = w then h else k.waitHead v := by
  cases w <;> cases v <;>
    simp [Kernel.setWaitHead, Kernel.waitHead, Kernel.setQueue, Kernel.setSem, Kernel.setMutex,
      Kernel.setEventGroup, Function.update_apply] <;>
    split <;> simp_all

/-- The links are no list heads. -/
theorem listHead_setLinks (k : Kernel) (s : Links TaskId) (P : Place) :
    (k.setLinks s).listHead P = k.listHead P := by
  cases P with
  | wait w => cases w <;> rfl
  | _ => rfl

/-- Writing a wait-list head leaves the links and the ready lists alone. -/
theorem setWaitHead_frame (k : Kernel) (h : Option TaskId) (w : WaitList) :
    (k.setWaitHead h w).links = k.links ∧ (k.setWaitHead h w).readyList = k.readyList ∧
      (k.setWaitHead h w).readyBitmap = k.readyBitmap ∧
      (k.setWaitHead h w).blockedList = k.blockedList ∧
      (k.setWaitHead h w).deferredDeleteList = k.deferredDeleteList := by
  cases w <;> exact ⟨rfl, rfl, rfl, rfl, rfl⟩

/-- The head pointers after an operation on one wait list. -/
theorem ListsOk.heads_of_wait {L' : Layout} (h : ListsOk k L) (hL : ∀ Q, Q ≠ .wait w → L' Q = L Q)
    (hw : k'.waitHead w = (L' (.wait w)).head?) (hwaits : ∀ v, v ≠ w → k'.waitHead v = k.waitHead v)
    (hrl : k'.readyList = k.readyList) (hbl : k'.blockedList = k.blockedList)
    (hdl : k'.deferredDeleteList = k.deferredDeleteList) (Q : Place) :
    k'.listHead Q = (L' Q).head? := by
  cases Q with
  | wait v =>
      by_cases hv : v = w
      · rw [hv]
        exact hw
      · rw [hL _ (by simpa using hv)]
        exact (hwaits v hv).trans (h.head (.wait v))
  | ready p =>
      rw [hL _ (by simp), ← h.head]
      exact congrArg (fun f => (f p).head) hrl
  | blocked =>
      rw [hL _ (by simp), ← h.head]
      exact hbl
  | deferred =>
      rw [hL _ (by simp), ← h.head]
      exact hdl

/-- **What `prv_unblock_task` writes.** -/
theorem unblockTask_writes (k : Kernel) (w : WaitList) (t : TaskId) :
    (unblockTask k w t).links = k.links.unlink t ∧
      (∀ v, (unblockTask k w t).waitHead v
        = if v = w ∧ k.links.prev t = none then k.links.next t else k.waitHead v) ∧
      (unblockTask k w t).readyList = k.readyList ∧
      (unblockTask k w t).readyBitmap = k.readyBitmap ∧
      (unblockTask k w t).blockedList = k.blockedList ∧
      (unblockTask k w t).deferredDeleteList = k.deferredDeleteList ∧
      (unblockTask k w t).prio = k.prio := by
  have hprio : (unblockTask k w t).prio = k.prio :=
    (prio_of_data (data_unblockTask k w t)).trans (prio_setTcb rfl)
  -- the head pointer changes only when the task was first
  have hhead : ∀ k₁ : Kernel, ∀ v, ((k₁.setLinks (k₁.links.unlink t)).setTcb t
      { (k₁.setLinks (k₁.links.unlink t)).tcb t with blockedOn := none, blockedReason := .none }).waitHead v
        = k₁.waitHead v := fun k₁ v => by cases v <;> rfl
  cases hpv : k.links.prev t with
  | some a =>
      have hun : unblockTask k w t = (k.setLinks (k.links.unlink t)).setTcb t
          { (k.setLinks (k.links.unlink t)).tcb t with blockedOn := none, blockedReason := .none } := by
        simp only [unblockTask, hpv, Option.isSome_some, if_true]
      refine ⟨by rw [hun]; rfl, fun v => ?_, by rw [hun]; rfl, by rw [hun]; rfl, by rw [hun]; rfl,
        by rw [hun]; rfl, hprio⟩
      rw [hun, hhead, if_neg (by simp)]
  | none =>
      obtain ⟨hlk, hrl, hbm, hbl, hdl⟩ := setWaitHead_frame k (k.links.next t) w
      generalize hk₁ : k.setWaitHead (k.links.next t) w = k₁ at *
      have hun : unblockTask k w t = (k₁.setLinks (k₁.links.unlink t)).setTcb t
          { (k₁.setLinks (k₁.links.unlink t)).tcb t with
            blockedOn := none, blockedReason := .none } := by
        simp only [unblockTask, hpv, Option.isSome_none, Bool.false_eq_true, if_false, hk₁]
      rw [hun] at hprio ⊢
      refine ⟨congrArg (Links.unlink · t) hlk, fun v => ?_, hrl, hbm, hbl, hdl, hprio⟩
      rw [hhead, ← hk₁, waitHead_setWaitHead]
      simp

/-- **`prv_unblock_task` removes exactly one waiter.** -/
theorem unblockTask_lists (h : ListsOk k L) (ht : t ∈ L (.wait w)) :
    ListsOk (unblockTask k w t) (L.remove (.wait w) t) := by
  obtain ⟨l, r, hl, he⟩ := exists_mid_of_mem ht (h.nodup _)
  obtain ⟨hpv, hnx⟩ := (hl ▸ h.seg _ (by simp) : k.links.Seg none (l ++ t :: r) none).at_mid
  obtain ⟨hlinks, hheads, hrl, hbm, hbl, hdl, -⟩ := unblockTask_writes k w t
  have hother : ∀ Q, Q ≠ .wait w → L.remove (.wait w) t Q = L Q :=
    fun Q hQ => Layout.set_of_ne _ _ hQ
  refine h.unlink (by simp) ht hlinks (fun Q => ?_) (fun p => ?_) (fun p => ?_) (fun p => ?_)
    fun i hi => ?_
  · refine h.heads_of_wait hother ?_ (fun v hv => ?_) hrl hbl hdl Q
    · have hhead : k.waitHead w = (l ++ t :: r).head? := hl ▸ h.head (.wait w)
      rw [hheads, Layout.remove, Layout.set_self, he, head?_of_mid l r t, hpv, hnx, hhead]
      cases l.getLast? <;> simp
    · rw [hheads, if_neg fun hvw => hv hvw.1]
  · rw [hother _ (by simp), hrl, h.tail]
  · rw [hother _ (by simp), hrl, h.count]
  · rw [hother _ (by simp), hbm, h.bitmap]
  · rw [hbm, h.bitmapHigh i hi]

/-- The order in which the waiters are kept: smaller priority numbers first. -/
def Kernel.before (k : Kernel) (a b : TaskId) : Prop := k.prio a < k.prio b

/-- The order of priorities can be decided. -/
instance (k : Kernel) : DecidableRel k.before :=
  fun a b => inferInstanceAs (Decidable (k.prio a < k.prio b))

/-- **The insertion walk** over the waiters `l` ends between those of smaller or equal priority
number and the others. -/
theorem findSlot_eq {p : Prio} {l : List TaskId} (hl : Path k.links.next l none) {fuel : Nat}
    (hfuel : l.length ≤ fuel) (prev : Option TaskId) :
    findSlot k p fuel prev l.head?
      = some ((l.takeWhile fun x => ¬ p < k.prio x).getLast?.or prev,
          (l.dropWhile fun x => ¬ p < k.prio x).head?) := by
  induction l generalizing fuel prev with
  | nil => cases fuel <;> simp [findSlot]
  | cons a l ih =>
      obtain ⟨fuel, rfl⟩ : ∃ n, fuel = n + 1 := ⟨fuel - 1, by simp at hfuel; omega⟩
      rw [List.head?_cons, findSlot]
      by_cases ha : p < k.prio a
      · simp [ha]
      · have hnext : k.links.next a = l.head? := by simpa using hl.1
        rw [if_neg ha, hnext, ih hl.2 (by simpa using hfuel)]
        simp only [List.takeWhile_cons, List.dropWhile_cons, ha, not_false_eq_true, decide_true,
          if_true]
        cases l.takeWhile fun x => ¬ p < k.prio x <;> simp [List.getLast?_cons]

/-- Linking a task into a wait list changes the lists only. -/
theorem data_linkWaiter (k : Kernel) (w : WaitList) (t : TaskId) (prev iter : Option TaskId) :
    (linkWaiter k w t prev iter).data = k.data := by
  unfold linkWaiter
  split
  · rfl
  · exact data_setWaitHead ..

/-- **What the last writes of `prv_block_task` write.** -/
theorem linkWaiter_writes (k : Kernel) (w : WaitList) (t : TaskId) (prev iter : Option TaskId) :
    (linkWaiter k w t prev iter).links = k.links.splice t prev iter ∧
      (∀ v, (linkWaiter k w t prev iter).waitHead v
        = if v = w ∧ prev = none then some t else k.waitHead v) ∧
      (linkWaiter k w t prev iter).readyList = k.readyList ∧
      (linkWaiter k w t prev iter).readyBitmap = k.readyBitmap ∧
      (linkWaiter k w t prev iter).blockedList = k.blockedList ∧
      (linkWaiter k w t prev iter).deferredDeleteList = k.deferredDeleteList ∧
      (linkWaiter k w t prev iter).prio = k.prio := by
  have hprio := prio_of_data (data_linkWaiter k w t prev iter)
  have hlinked : ∀ v, (k.setLinks (k.links.splice t prev iter)).waitHead v = k.waitHead v :=
    fun v => by cases v <;> rfl
  cases prev with
  | none =>
      obtain ⟨hlk, hrl, hbm, hbl, hdl⟩ :=
        setWaitHead_frame (k.setLinks (k.links.splice t none iter)) (some t) w
      refine ⟨hlk, fun v => ?_, hrl, hbm, hbl, hdl, hprio⟩
      refine (waitHead_setWaitHead ..).trans ?_
      rw [hlinked]
      simp
  | some a =>
      refine ⟨rfl, fun v => ?_, rfl, rfl, rfl, rfl, hprio⟩
      rw [if_neg (by simp)]
      exact hlinked v

/-- Linking a task into a wait list, between the halves `l` and `r`. -/
theorem linkWaiter_lists {l r : List TaskId} (h : ListsOk k L) (hl : L (.wait w) = l ++ r)
    (ht : ∀ Q, t ∉ L Q) :
    ListsOk (linkWaiter k w t l.getLast? r.head?) (L.set (.wait w) (l ++ t :: r)) := by
  obtain ⟨hlinks, hheads, hrl, hbm, hbl, hdl, -⟩ := linkWaiter_writes k w t l.getLast? r.head?
  have hother : ∀ Q, Q ≠ .wait w → L.set (.wait w) (l ++ t :: r) Q = L Q :=
    fun Q hQ => Layout.set_of_ne _ _ hQ
  refine h.splice (by simp) hl ht hlinks (fun Q => ?_) (fun p => ?_) (fun p => ?_) (fun p => ?_)
    fun i hi => ?_
  · refine h.heads_of_wait hother ?_ (fun v hv => ?_) hrl hbl hdl Q
    · have hhead : k.waitHead w = (l ++ r).head? := hl ▸ h.head (.wait w)
      rw [hheads, Layout.set_self, hhead]
      cases l <;> simp [List.getLast?_cons]
    · rw [hheads, if_neg fun hvw => hv hvw.1]
  · rw [hother _ (by simp), hrl, h.tail]
  · rw [hother _ (by simp), hrl, h.count]
  · rw [hother _ (by simp), hbm, h.bitmap]
  · rw [hbm, h.bitmapHigh i hi]

/-- The control block that `prv_block_task` leaves behind. -/
def Tcb.waiting (v : Tcb) (timeout : Nat) (reason : BlockedReason) (owner : Obj) : Tcb :=
  { v with
    blockedOn := some owner, blockedReason := reason, timedOut := false, delayTicks := timeout
    state := .blocked }

/-- **`prv_block_task` inserts by priority.** The task leaves its ready list and enters the wait list
after the waiters of smaller or equal priority number; apart from the lists, only its own control
block changes. -/
theorem blockTask_lists (timeout : Nat) (reason : BlockedReason) (owner : Obj) (h : ListsOk k L)
    (ht : t ∈ L (.ready (k.prio t))) (hlen : (L (.wait w)).length ≤ maxTasks) :
    ∃ k', blockTask k w t timeout reason owner = some k' ∧
      ListsOk k' ((L.remove (.ready (k.prio t)) t).set (.wait w)
        ((L (.wait w)).orderedInsert k.before t)) ∧
      k'.data = (k.setTcb t ((k.tcb t).waiting timeout reason owner)).data := by
  set k₁ := k.setTcb t
    { k.tcb t with
      blockedOn := some owner, blockedReason := reason, timedOut := false, delayTicks := timeout }
    with hk₁
  set k₂ := osTaskRemoveFromReady k₁ t with hk₂
  set k₃ := k₂.setTcb t { k₂.tcb t with state := .blocked } with hk₃
  have htcb : k₃.tcb = Function.update k.tcb t ((k.tcb t).waiting timeout reason owner) := by
    show Function.update (Function.update k.tcb t _) t
      { Function.update k.tcb t _ t with state := .blocked } = _
    rw [Function.update_idem, Function.update_self]
    rfl
  have hprio₁ : k₁.prio = k.prio := prio_setTcb rfl
  have hprio : k₃.prio = k₁.prio := prio_setTcb rfl
  rw [hprio₁] at hprio
  have h₃ : ListsOk k₃ (L.remove (.ready (k.prio t)) t) := by
    have h₂ := osTaskRemoveFromReady_lists (h.setTcb t _ : ListsOk k₁ L) (by rwa [hprio₁])
    rw [hprio₁] at h₂
    exact h₂.setTcb t _
  have hw : L.remove (.ready (k.prio t)) t (.wait w) = L (.wait w) :=
    Layout.set_of_ne _ _ (by simp)
  have hpath : Path k₃.links.next (L (.wait w)) none := hw ▸ (h₃.seg (.wait w) (by simp)).path
  have hslot := findSlot_eq (p := k₃.prio t) hpath hlen none
  have hhead : k₃.waitHead w = (L (.wait w)).head? := hw ▸ h₃.head (.wait w)
  rw [← hhead, Option.or_none, hprio] at hslot
  refine ⟨linkWaiter k₃ w t ((L (.wait w)).takeWhile fun x => ¬ k.prio t < k.prio x).getLast?
    ((L (.wait w)).dropWhile fun x => ¬ k.prio t < k.prio x).head?, ?_, ?_, ?_⟩
  · simp only [blockTask, ← hk₁, ← hk₂, ← hk₃, hprio, hslot]
    rfl
  · rw [List.orderedInsert_eq_take_drop]
    refine linkWaiter_lists h₃ ?_ (h.not_mem_remove ht)
    rw [hw]
    exact (List.takeWhile_append_dropWhile ..).symm
  · rw [data_linkWaiter]
    have hd : k₃.data = ({ k with tcb := k₃.tcb } : Kernel).data := rfl
    rw [hd, htcb]
    rfl

/-- What `prv_wake_task` does to the first waiter, whatever the lists look like. -/
theorem data_wakeTask (hw : k.waitHead w = some t) :
    (wakeTask k w).2.data = (k.setTcb t
      { k.tcb t with
        blockedOn := none, blockedReason := .none, delayTicks := 0, timedOut := false
        state := .ready }).data := by
  set k₁ := unblockTask k w t with hk₁
  set k₂ := k₁.setTcb t { k₁.tcb t with delayTicks := 0, timedOut := false } with hk₂
  have hwake : (wakeTask k w).2 = osTaskAddToReady k₂ t := by
    simp only [wakeTask, hw, ← hk₁, ← hk₂]
  have hd := data_unblockTask k w t
  rw [← hk₁] at hd
  have htcb : k₁.tcb
      = Function.update k.tcb t { k.tcb t with blockedOn := none, blockedReason := .none } :=
    tcb_of_data hd
  have hd₂ := data_setTcb_congr hd t
    { k.tcb t with
      blockedOn := none, blockedReason := .none, delayTicks := 0, timedOut := false
      state := .ready }
  have hk : k₂.setTcb t { k₂.tcb t with state := .ready }
      = k₁.setTcb t { k₁.tcb t with delayTicks := 0, timedOut := false, state := .ready } := by
    simp only [hk₂, Kernel.setTcb, Function.update_idem, Function.update_self]
  rw [hwake, data_osTaskAddToReady, hk, htcb, Function.update_self, hd₂]
  simp only [Kernel.setTcb, Function.update_idem]

/-- **`prv_wake_task` takes the first waiter** out of the list and appends it to its ready list. -/
theorem wakeTask_lists {r : List TaskId} (h : ListsOk k L) (hw : L (.wait w) = t :: r) :
    ∃ k', wakeTask k w = (some t, k') ∧
      ListsOk k' ((L.set (.wait w) r).set (.ready (k.prio t)) (L (.ready (k.prio t)) ++ [t])) ∧
      k'.data = (k.setTcb t
        { k.tcb t with
          blockedOn := none, blockedReason := .none, delayTicks := 0, timedOut := false
          state := .ready }).data := by
  have hhead : k.waitHead w = some t := by
    have := h.head (.wait w)
    rwa [hw] at this
  have hmem : t ∈ L (.wait w) := by simp [hw]
  have hdata := data_wakeTask hhead
  set k₁ := unblockTask k w t with hk₁
  set k₂ := k₁.setTcb t { k₁.tcb t with delayTicks := 0, timedOut := false } with hk₂
  have hwake : wakeTask k w = (some t, osTaskAddToReady k₂ t) := by
    simp only [wakeTask, hhead, ← hk₁, ← hk₂]
  have htcb : k₁.tcb
      = Function.update k.tcb t { k.tcb t with blockedOn := none, blockedReason := .none } :=
    tcb_of_data (data_unblockTask k w t)
  have hprio : k₂.prio t = k.prio t := by
    simp [hk₂, Kernel.prio, Kernel.setTcb, htcb]
  have hrem : L.remove (.wait w) t = L.set (.wait w) r := by
    rw [Layout.remove, hw, List.erase_cons_head]
  have h₂ : ListsOk k₂ (L.set (.wait w) r) := hrem ▸ (unblockTask_lists h hmem).setTcb t _
  have hnot : ∀ P, t ∉ L.set (.wait w) r P := hrem ▸ h.not_mem_remove hmem
  have hready : L.set (.wait w) r (.ready (k.prio t)) = L (.ready (k.prio t)) :=
    Layout.set_of_ne _ _ (by simp)
  refine ⟨osTaskAddToReady k₂ t, hwake, ?_, ?_⟩
  · have := osTaskAddToReady_lists h₂ hnot
    rwa [hprio, hready] at this
  · rw [hwake] at hdata
    exact hdata

/-- An empty wait list wakes nobody. -/
theorem wakeTask_nil (h : ListsOk k L) (hw : L (.wait w) = []) : wakeTask k w = (none, k) := by
  have hhead := h.head (.wait w)
  rw [hw] at hhead
  simp only [Kernel.listHead, List.head?_nil] at hhead
  simp only [wakeTask, hhead]

end MiniRTOS
