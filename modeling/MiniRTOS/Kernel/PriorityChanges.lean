import MiniRTOS.Kernel.Dispatch
import MiniRTOS.Kernel.SystemInv

/-! # Priority changes and the ready lists

`os_task_set_priority` moves a READY task to the ready list of its new priority, and only writes the
field of any other task. A RUNNING task is linked in a ready list, too: with a new number in its field
it stays in the list of the old one, and the next removal works on the wrong list.

* **`ReadyInv k R`** — the ready lists, the bitmap and the tasks in them, whatever the other lists of
  the kernel look like.
* **`ReadyInv.setPriority_iff`** — the invariant is kept exactly when no RUNNING task gets another
  priority.
* **`LeaveCall`** — the calls by which a task leaves the ready lists. -/

namespace MiniRTOS

open PtrList Runs ByteMemory

variable {k k' : Kernel} {L L' : Layout} {R R' : Prio → List TaskId} {t c : TaskId} {p q : Prio}

/-! ## The ready-list invariant -/

/-- **The ready-list invariant**, with the tasks of each ready list. -/
structure ReadyInv (k : Kernel) (R : Prio → List TaskId) : Prop where
  /-- Every list is linked both ways. -/
  seg : ∀ p, k.links.Seg none (R p) none
  /-- Every head pointer. -/
  head : ∀ p, (k.readyList p).head = (R p).head?
  /-- Every tail pointer. -/
  tail : ∀ p, (k.readyList p).tail = (R p).getLast?
  /-- Every count. -/
  count : ∀ p, (k.readyList p).count = (R p).length
  /-- The bitmap bits of the priorities. -/
  bitmap : ∀ p : Prio, k.readyBitmap.getLsbD p = true ↔ R p ≠ []
  /-- The other bitmap bits. -/
  bitmapHigh : ∀ i, numPriorities ≤ i → k.readyBitmap.getLsbD i = false
  /-- No task is twice in a list. -/
  nodup : ∀ p, (R p).Nodup
  /-- Only live tasks are listed. -/
  live : ∀ p, ∀ x ∈ R p, x ∈ k.liveTcbs
  /-- The READY and RUNNING tasks are in the lists of their priorities. -/
  placed : ∀ x ∈ k.liveTcbs, ∀ p, x ∈ R p ↔ (k.tcb x).Fits (.ready p)

/-- The task list invariant includes it. -/
theorem TaskListInv.readyInv (h : TaskListInv k L) : ReadyInv k fun p => L (.ready p) where
  seg p := h.lists.seg (.ready p) (by simp)
  head p := h.lists.head (.ready p)
  tail p := h.lists.tail p
  count p := h.lists.count p
  bitmap p := h.lists.bitmap p
  bitmapHigh := h.lists.bitmapHigh
  nodup p := h.lists.nodup (.ready p)
  live p := h.live (.ready p)
  placed x hx p := h.placed x hx (.ready p)

/-- The layout with the ready lists only. -/
def readyLayout (R : Prio → List TaskId) : Layout
  | .ready p => R p
  | _ => []

/-- A new list for one priority is a new family of lists. -/
theorem set_readyLayout (R : Prio → List TaskId) (p : Prio) (l : List TaskId) :
    (readyLayout R).set (.ready p) l = readyLayout (Function.update R p l) := by
  funext P
  rw [Layout.set_apply]
  cases P with
  | ready q => simp only [readyLayout, Function.update_apply, Place.ready.injEq]
  | _ => simp [readyLayout]

/-- The kernel state in which all other lists are empty. -/
def Kernel.readyOnly (k : Kernel) : Kernel :=
  { k with
    blockedList := none
    deferredDeleteList := none
    queues := fun q => { k.queues q with sendWaitList := none, recvWaitList := none }
    sems := fun s => { k.sems s with waitList := none }
    mutexes := fun m => { k.mutexes m with waitList := none }
    eventGroups := fun e => { k.eventGroups e with waitList := none } }

/-- **The ready lists alone follow a layout.** -/
theorem ReadyInv.lists (h : ReadyInv k R) : ListsOk k.readyOnly (readyLayout R) where
  seg P _ := by
    cases P with
    | ready p => exact h.seg p
    | _ => trivial
  path := trivial
  head P := by
    cases P with
    | ready p => exact h.head p
    | wait w => cases w <;> rfl
    | _ => rfl
  tail := h.tail
  count := h.count
  bitmap := h.bitmap
  bitmapHigh := h.bitmapHigh
  nodup P := by
    cases P with
    | ready p => exact h.nodup p
    | _ => exact List.nodup_nil
  disjoint P Q x hx hx' := by
    cases P with
    | ready p =>
        cases Q with
        | ready q =>
            have hp := ((h.placed x (h.live p x hx) p).mp hx).1
            have hq := ((h.placed x (h.live p x hx) q).mp hx').1
            rw [← hp, ← hq]
        | _ => cases hx'
    | _ => cases hx

/-- The invariant from such a layout. -/
theorem ReadyInv.of_lists (hl : ListsOk k.readyOnly (readyLayout R))
    (hlive : ∀ p, ∀ x ∈ R p, x ∈ k.liveTcbs)
    (hplaced : ∀ x ∈ k.liveTcbs, ∀ p, x ∈ R p ↔ (k.tcb x).Fits (.ready p)) : ReadyInv k R where
  seg p := hl.seg (.ready p) (by simp)
  head p := hl.head (.ready p)
  tail := hl.tail
  count := hl.count
  bitmap := hl.bitmap
  bitmapHigh := hl.bitmapHigh
  nodup p := hl.nodup (.ready p)
  live := hlive
  placed := hplaced

/-- A READY or RUNNING task is in the list of its priority. -/
theorem ReadyInv.mem (h : ReadyInv k R) (ht : t ∈ k.liveTcbs)
    (hs : (k.tcb t).state = .ready ∨ (k.tcb t).state = .running) : t ∈ R (k.prio t) :=
  (h.placed t ht _).mpr ⟨rfl, hs⟩

/-- The invariant reads the ready lists, the live tasks and, of a task, whether it fits. -/
theorem ReadyInv.congr (h : ReadyInv k R) (hlinks : k'.links = k.links)
    (hready : k'.readyList = k.readyList) (hbits : k'.readyBitmap = k.readyBitmap)
    (hlive : k'.liveTcbs = k.liveTcbs)
    (hfits : ∀ x ∈ k.liveTcbs, ∀ p, (k'.tcb x).Fits (.ready p) ↔ (k.tcb x).Fits (.ready p)) :
    ReadyInv k' R where
  seg p := hlinks ▸ h.seg p
  head p := hready ▸ h.head p
  tail p := hready ▸ h.tail p
  count p := hready ▸ h.count p
  bitmap p := hbits ▸ h.bitmap p
  bitmapHigh i hi := hbits ▸ h.bitmapHigh i hi
  nodup := h.nodup
  live p x hx := hlive ▸ h.live p x hx
  placed x hx p := (h.placed x (hlive ▸ hx) p).trans (hfits x (hlive ▸ hx) p).symm

/-! ## Setting a priority -/

/-- A READY task moves to the end of its new list. -/
theorem ReadyInv.setPriority_ready (h : ReadyInv k R) (ht : t ∈ k.liveTcbs)
    (hs : (k.tcb t).state = .ready) : ∃ R', ReadyInv (osTaskSetPriority k t q) R' := by
  have hmem : t ∈ readyLayout R (.ready (k.prio t)) := h.mem ht (Or.inl hs)
  have hk : (osTaskSetPriority k t q).readyOnly = osTaskSetPriority k.readyOnly t q := by
    have hs₁ : ((osSchedEnterCritical k).tcb t).state = .ready := hs
    have hs₂ : ((osSchedEnterCritical k.readyOnly).tcb t).state = .ready := hs
    simp only [osTaskSetPriority, if_pos hs₁, if_pos hs₂]
    rfl
  have hl := osTaskSetPriority_lists (q := q) h.lists hs hmem
  have hnot := h.lists.not_mem_remove hmem
  have hrem : (readyLayout R).remove (.ready (k.prio t)) t
      = readyLayout (Function.update R (k.prio t) ((R (k.prio t)).erase t)) := set_readyLayout ..
  set R₁ := Function.update R (k.prio t) ((R (k.prio t)).erase t) with hR₁
  change ListsOk _ (((readyLayout R).remove (.ready (k.prio t)) t).set (.ready q)
    ((readyLayout R).remove (.ready (k.prio t)) t (.ready q) ++ [t])) at hl
  rw [← hk, hrem, set_readyLayout] at hl
  rw [hrem] at hnot
  have hother : ∀ x, x ≠ t → ∀ p, x ∈ Function.update R₁ q (R₁ q ++ [t]) p ↔ x ∈ R p := by
    intro x hx p
    have hback : x ∈ readyLayout R₁ (.ready p) ↔ x ∈ readyLayout R (.ready p) := by
      rw [← hrem]
      exact Layout.mem_remove_of_ne _ _ _ hx
    rw [← show x ∈ R₁ p ↔ x ∈ R p from hback, Function.update_apply]
    split
    · next hp => simp [hp, hx]
    · rfl
  have hself : ∀ p, t ∈ Function.update R₁ q (R₁ q ++ [t]) p ↔ p = q := by
    intro p
    have hp : t ∉ R₁ p := hnot (.ready p)
    rw [Function.update_apply]
    split
    · next hpq => simp [hpq]
    · next hpq => exact iff_of_false hp hpq
  obtain ⟨hlive, -⟩ := osTaskSetPriority_frame k t q
  refine ⟨Function.update R₁ q (R₁ q ++ [t]), ReadyInv.of_lists hl ?_ ?_⟩
  · intro p x hx
    rw [hlive]
    by_cases hxt : x = t
    · rw [hxt]
      exact ht
    · exact h.live p x ((hother x hxt p).mp hx)
  · intro x hx p
    rw [tcb_osTaskSetPriority]
    by_cases hxt : x = t
    · have hfits : ({ k.tcb t with priority := q } : Tcb).Fits (.ready p)
          ↔ Place.ready p = .ready q :=
        Tcb.fits_ready (v := { k.tcb t with priority := q }) (Or.inl hs) (.ready p)
      rw [hxt, Function.update_self, hself, hfits, Place.ready.injEq]
    · rw [Function.update_of_ne hxt, hother x hxt]
      exact h.placed x (by rwa [hlive] at hx) p

/-- A task that is in no ready list just gets its new number. -/
theorem ReadyInv.setPriority_unlisted (h : ReadyInv k R) (hr : (k.tcb t).state ≠ .ready)
    (hs : (k.tcb t).state = .running → q = k.prio t) : ReadyInv (osTaskSetPriority k t q) R := by
  have hk : osTaskSetPriority k t q = osSchedExitCritical
      ((osSchedEnterCritical k).setTcb t { k.tcb t with priority := q }) := by
    have hr' : ¬ ((osSchedEnterCritical k).tcb t).state = .ready := hr
    simp only [osTaskSetPriority, if_neg hr']
    rfl
  rw [hk]
  refine h.congr rfl rfl rfl rfl fun x _ p => ?_
  show (Function.update k.tcb t _ x).Fits _ ↔ _
  rw [Function.update_apply]
  split
  · next hxt =>
      rw [hxt]
      by_cases hrun : (k.tcb t).state = .running
      · have hsame : ({ k.tcb t with priority := q } : Tcb) = k.tcb t := by
          rw [hs hrun]
          rfl
        rw [hsame]
      · exact Tcb.fits_setPrio hr hrun q (.ready p)
  · rfl

/-- **A list that lost a task keeps a stale count.** When a task of the list of `p` no longer belongs
there, no other task came in, and the count is the old one, the invariant is broken. -/
theorem ReadyInv.false_of_count (h : ReadyInv k R) (h' : ReadyInv k' R') (ht : t ∈ R p)
    (hcount : (k'.readyList p).count = (k.readyList p).count)
    (hlive : ∀ x ∈ k'.liveTcbs, x ∈ k.liveTcbs)
    (hother : ∀ x, x ≠ t → (k'.tcb x).Fits (.ready p) → (k.tcb x).Fits (.ready p))
    (hno : ¬ (k'.tcb t).Fits (.ready p)) : False := by
  have hsub : R' p ⊆ (R p).erase t := by
    intro x hx
    have hx' := h'.live p x hx
    have hfit := (h'.placed x hx' p).mp hx
    have hxt : x ≠ t := by
      rintro rfl
      exact hno hfit
    rw [List.mem_erase_of_ne hxt]
    exact (h.placed x (hlive x hx') p).mpr (hother x hxt hfit)
  have hle : (R' p).length ≤ ((R p).erase t).length := (h'.nodup p).subperm hsub |>.length_le
  have hpos := List.length_pos_of_mem ht
  rw [List.length_erase_of_mem ht, ← h.count p, ← hcount, h'.count p] at hle
  rw [← h.count p, ← hcount, h'.count p] at hpos
  omega

/-- **A RUNNING task with a new priority breaks the invariant.** -/
theorem ReadyInv.not_setPriority_running (h : ReadyInv k R) (ht : t ∈ k.liveTcbs)
    (hs : (k.tcb t).state = .running) (hq : q ≠ k.prio t) :
    ¬ ∃ R', ReadyInv (osTaskSetPriority k t q) R' := by
  rintro ⟨R', h'⟩
  have hk : osTaskSetPriority k t q = osSchedExitCritical
      ((osSchedEnterCritical k).setTcb t { k.tcb t with priority := q }) := by
    have hr' : ¬ ((osSchedEnterCritical k).tcb t).state = .ready := by
      show ¬ (k.tcb t).state = .ready
      simp [hs]
    simp only [osTaskSetPriority, if_neg hr']
    rfl
  rw [hk] at h'
  refine h.false_of_count h' (h.mem ht (Or.inr hs)) rfl (fun x hx => hx) (fun x hx hfit => ?_) ?_
  · have hfit' : (Function.update k.tcb t _ x).Fits (.ready (k.prio t)) := hfit
    rwa [Function.update_of_ne hx] at hfit'
  · show ¬ (Function.update k.tcb t _ t).Fits _
    rw [Function.update_self]
    rintro ⟨hp, -⟩
    exact hq hp

/-- **`os_task_set_priority` keeps the ready lists sound** exactly when it gives no RUNNING task
another priority. -/
theorem ReadyInv.setPriority_iff (h : ReadyInv k R) (ht : t ∈ k.liveTcbs) (q : Prio) :
    (∃ R', ReadyInv (osTaskSetPriority k t q) R') ↔
      ((k.tcb t).state = .running → q = k.prio t) := by
  constructor
  · intro hex hrun
    by_contra hq
    exact h.not_setPriority_running ht hrun hq hex
  · intro hcond
    by_cases hr : (k.tcb t).state = .ready
    · exact h.setPriority_ready ht hr
    · exact ⟨R, h.setPriority_unlisted hr hcond⟩

/-- The restore inside `os_mutex_unlock` sets the priority of the owner. -/
theorem ReadyInv.restore_iff {m : Addr} (h : ReadyInv k R) (ht : t ∈ k.liveTcbs)
    (ho : (k.mutexes m).owner = some t) :
    (∃ R', ReadyInv (Mutex.prvRestorePriority (Mutex.dropLock k m) m) R') ↔
      ((k.tcb t).state = .running → (k.mutexes m).originalPrio = k.prio t) := by
  have hdrop : ReadyInv (Mutex.dropLock k m) R := h.congr rfl rfl rfl rfl fun _ _ _ => Iff.rfl
  have hrestore : Mutex.prvRestorePriority (Mutex.dropLock k m) m
      = osTaskSetPriority (Mutex.dropLock k m) t (k.mutexes m).originalPrio := by
    rw [Mutex.prvRestorePriority, Mutex.mutexes_dropLock, ho]
  rw [hrestore]
  exact hdrop.setPriority_iff ht (k.mutexes m).originalPrio

/-! ## Leaving the ready lists -/

/-- **The calls by which a task leaves the ready lists.** -/
inductive LeaveCall
  /-- `os_task_suspend` of the caller. -/
  | suspend
  /-- `os_task_delay`. -/
  | delay (ticks : Nat)
  /-- `os_queue_send`. -/
  | queueSend (q : Addr) (item : Mem) (timeout : Nat)
  /-- `os_queue_receive`. -/
  | queueReceive (q : Addr) (timeout : Nat)
  /-- `os_sem_take`. -/
  | semTake (a : Addr) (timeout : Nat)
  /-- `os_mutex_lock`. -/
  | mutexLock (m : Addr) (timeout : Nat)
  /-- `os_eventgroup_wait_bits`. -/
  | eventWait (e : Addr) (bits options : BitVec 32) (timeout : Nat)
  /-- `os_task_notify_wait`. -/
  | notifyWait (timeout : Nat)

/-- The state in which a call has put its caller to sleep, if it has. -/
def asleep {α : Type} : Option (Kernel × Outcome α) → Option Kernel
  | some (k, .blocked) => some k
  | _ => none

/-- The state after the task `t` left by a call; none when the call does not make it leave. -/
def LeaveCall.run (k : Kernel) (t : TaskId) : LeaveCall → Option Kernel
  | .suspend => some (osTaskSuspend k t)
  -- a delay of zero ticks is a yield
  | .delay n => if n = 0 then none else osTaskDelay k n
  | .queueSend q item n => asleep (osQueueSend k q item n)
  | .queueReceive q n => asleep (osQueueReceive k q n)
  | .semTake a n => asleep (osSemTake k a n)
  | .mutexLock m n => asleep (osMutexLock k m n)
  | .eventWait e bits options n => asleep (osEventgroupWaitBits k e bits options n)
  | .notifyWait n => asleep (osTaskNotifyWait k n)

/-- The state that the task leaves: `os_mutex_lock` sets the priority of the owner first. -/
def LeaveCall.start (k : Kernel) (t : TaskId) : LeaveCall → Kernel
  | .mutexLock m _ => Mutex.prvBoostPriority (osSchedEnterCritical k) m (k.prio t)
  | _ => k

/-- **Exactly `t` left the ready lists.** -/
def Departed (t : TaskId) (L L' : Layout) : Prop := ∀ p, L' (.ready p) = (L (.ready p)).erase t

/-- The lists after a call that its task left. -/
def LeftInv (t : TaskId) (L : Layout) (k' : Kernel) : Prop := ∃ L', TaskListInv k' L' ∧ Departed t L L'

/-- A caller is asleep when its call has blocked. -/
theorem asleep_eq_some {α : Type} {r : Option (Kernel × Outcome α)} (h : asleep r = some k') :
    r = some (k', .blocked) := by
  match r, h with
  | some (k, .blocked), h => rw [Option.some.inj h]

/-- What is left after a call does not depend on the request to switch. -/
theorem LeftInv.yield (h : LeftInv t L k') : LeftInv t L (osSchedYield (osSchedExitCritical k')) := by
  obtain ⟨L', h', hd⟩ := h
  exact ⟨L', h'.exitCritical.yield, hd⟩

/-- Taking a task out of its ready list takes it out of all. -/
theorem TaskListInv.departed (h : TaskListInv k L) (ht : t ∈ k.liveTcbs)
    (hs : (k.tcb t).state = .ready ∨ (k.tcb t).state = .running)
    (hL : ∀ p, L' (.ready p) = L.remove (.ready (k.prio t)) t (.ready p)) : Departed t L L' := by
  intro p
  rw [hL, Layout.remove, Layout.set_apply]
  split
  · next hp => rw [hp]
  · next hp =>
      have hnot : t ∉ L (.ready p) := h.lists.not_mem_of_ne (Ne.symm hp) (h.mem_ready ht hs)
      rw [List.erase_of_not_mem hnot]

/-- `prv_block_task` takes exactly its task out of the ready lists. -/
theorem LeftInv.block {w : WaitList} {n : Nat} (h : TaskListInv k L) (ht : t ∈ k.liveTcbs)
    (hs : (k.tcb t).state = .ready ∨ (k.tcb t).state = .running)
    (hb : blockTask k w t n w.reason w.obj = some k') : LeftInv t L k' := by
  obtain ⟨k₁, hk₁, h₁, -⟩ := h.block (w := w) n ht hs
  obtain rfl := Option.some.inj (hk₁.symm.trans hb)
  refine ⟨_, h₁, h.departed ht hs fun p => ?_⟩
  rw [Layout.set_of_ne _ _ (by simp)]

/-- `os_task_add_to_blocked` does, too. -/
theorem LeftInv.addToBlocked {n : Nat} (h : TaskListInv k L) (ht : t ∈ k.liveTcbs)
    (hs : (k.tcb t).state = .ready ∨ (k.tcb t).state = .running) :
    LeftInv t L (osTaskAddToBlocked k t n) := by
  refine ⟨_, h.addToBlocked ht hs, h.departed ht hs fun p => ?_⟩
  rw [Layout.set_of_ne _ _ (by simp)]

/-- `os_task_suspend` does, too. -/
theorem LeftInv.suspend (h : TaskListInv k L) (ht : t ∈ k.liveTcbs)
    (hs : (k.tcb t).state = .ready ∨ (k.tcb t).state = .running) : LeftInv t L (osTaskSuspend k t) := by
  have hs₁ : ((osSchedEnterCritical k).tcb t).state = .ready ∨
      ((osSchedEnterCritical k).tcb t).state = .running := hs
  have h₁ := (h.enterCritical.suspend ht hs₁).exitCritical
  have hd : Departed t L (L.remove (.ready (k.prio t)) t) := h.departed ht hs fun _ => rfl
  simp only [osTaskSuspend, if_pos hs₁]
  split
  · exact ⟨_, h₁.yield, hd⟩
  · exact ⟨_, h₁, hd⟩

/-- A queue call that its caller is asleep in. -/
theorem LeftInv.exchange {α : Type} {a : Addr} {b : Prop} [Decidable b] {qu : Queue}
    {w w' : WaitList} {x y : α} {n : Nat} (h : TaskListInv k L) (hc : k.current = some t)
    (ht : t ∈ k.liveTcbs) (hs : (k.tcb t).state = .ready ∨ (k.tcb t).state = .running)
    (hr : Queue.exchange k a b qu w w' x y n = some (k', .blocked)) : LeftInv t L k' := by
  rcases Queue.exchange_cases hr with ⟨-, k₁, -, hdone⟩ | ⟨-, hdone⟩ | ⟨-, c, k₁, hc', hk₁, hsleep⟩
  · cases (Prod.mk.inj hdone).2
  · cases (Prod.mk.inj hdone).2
  · obtain rfl : t = c := Option.some.inj (hc.symm.trans hc')
    obtain rfl := (Prod.mk.inj hsleep).1
    exact (LeftInv.block h.enterCritical ht hs hk₁).yield

/-- An `os_sem_take` that its caller is asleep in. -/
theorem LeftInv.semTake {a : Addr} {n : Nat} (h : TaskListInv k L) (hc : k.current = some t)
    (ht : t ∈ k.liveTcbs) (hs : (k.tcb t).state = .ready ∨ (k.tcb t).state = .running)
    (hr : osSemTake k a n = some (k', .blocked)) : LeftInv t L k' := by
  by_cases hpos : 0 < (k.sems a).count
  · have hpos' : ((osSchedEnterCritical k).sems a).count > 0 := hpos
    rw [osSemTake, if_pos hpos'] at hr
    cases (Prod.mk.inj (Option.some.inj hr)).2
  · rw [osSemTake_empty hc hpos] at hr
    split at hr
    · cases (Prod.mk.inj (Option.some.inj hr)).2
    · obtain ⟨k₁, hk₁, hr⟩ := Option.map_eq_some_iff.mp hr
      obtain rfl := (Prod.mk.inj hr).1
      exact (LeftInv.block (w := .sem a) h.enterCritical ht hs hk₁).yield

/-- An `os_eventgroup_wait_bits` that its caller is asleep in. -/
theorem LeftInv.eventWait {e : Addr} {bits options : BitVec 32} {n : Nat}
    (h : TaskListInv k L) (hc : k.current = some t) (ht : t ∈ k.liveTcbs)
    (hs : (k.tcb t).state = .ready ∨ (k.tcb t).state = .running)
    (hr : osEventgroupWaitBits k e bits options n = some (k', .blocked)) : LeftInv t L k' := by
  cases hsat : eventSatisfied (k.eventGroups e).bits bits options with
  | true =>
      have hsat' : eventSatisfied ((osSchedEnterCritical k).eventGroups e).bits bits options
          = true := hsat
      rw [osEventgroupWaitBits, if_pos hsat'] at hr
      cases (Prod.mk.inj (Option.some.inj hr)).2
  | false =>
      rw [osEventgroupWaitBits_unmet hc hsat] at hr
      split at hr
      · cases (Prod.mk.inj (Option.some.inj hr)).2
      · obtain ⟨k₁, hk₁, hr⟩ := Option.map_eq_some_iff.mp hr
        obtain rfl := (Prod.mk.inj hr).1
        -- the bits waited for are written before the task is queued
        have h₁ : TaskListInv ((osSchedEnterCritical k).setTcb t { k.tcb t with
            eventWaitBits := bits, eventWaitOptions := options, eventReturnBits := 0 }) L :=
          h.enterCritical.setTcb (fun P => by cases P <;> rfl) fun hc => hc
        refine (LeftInv.block (w := .eventGroup e) h₁ ht ?_ hk₁).yield
        show (Function.update k.tcb t _ t).state = .ready ∨ (Function.update k.tcb t _ t).state = .running
        rw [Function.update_self]
        exact hs

/-- An `os_mutex_lock` that its caller is asleep in. -/
theorem LeftInv.mutexLock {m : Addr} {n : Nat} (hc : k.current = some t)
    (hs : (k.tcb t).state = .ready ∨ (k.tcb t).state = .running)
    (h : TaskListInv (Mutex.prvBoostPriority (osSchedEnterCritical k) m (k.prio t)) L)
    (ht : t ∈ (Mutex.prvBoostPriority (osSchedEnterCritical k) m (k.prio t)).liveTcbs)
    (hr : osMutexLock k m n = some (k', .blocked)) : LeftInv t L k' := by
  have hcur : (osSchedEnterCritical k).current = some t := hc
  unfold osMutexLock at hr
  simp only [hcur, Option.bind_eq_bind, Option.bind_some] at hr
  split at hr
  · cases (Prod.mk.inj (Option.some.inj hr)).2
  · next o ho =>
      split at hr
      · cases (Prod.mk.inj (Option.some.inj hr)).2
      · next hne =>
          split at hr
          · cases (Prod.mk.inj (Option.some.inj hr)).2
          · obtain ⟨k₁, hk₁, hr⟩ := Option.bind_eq_some_iff.mp hr
            obtain rfl := (Prod.mk.inj (Option.some.inj hr)).1
            -- the boost is about another task
            have htcb := Mutex.tcb_prvBoostPriority (p := k.prio t)
              (fun ho' => hne (Option.some.inj (ho.symm.trans ho')))
            refine (LeftInv.block (w := .mutex m) h ht ?_ hk₁).yield
            rw [htcb]
            exact hs

/-- An `os_task_notify_wait` that its caller is asleep in. -/
theorem LeftInv.notifyWait {n : Nat} (h : TaskListInv k L) (hc : k.current = some t)
    (ht : t ∈ k.liveTcbs) (hs : (k.tcb t).state = .ready ∨ (k.tcb t).state = .running)
    (hr : osTaskNotifyWait k n = some (k', .blocked)) : LeftInv t L k' := by
  unfold osTaskNotifyWait at hr
  simp only [hc, Option.bind_eq_bind, Option.bind_some] at hr
  split at hr
  · cases (Prod.mk.inj (Option.some.inj hr)).2
  · split at hr
    · cases (Prod.mk.inj (Option.some.inj hr)).2
    · obtain rfl := (Prod.mk.inj (Option.some.inj hr)).1
      set v : Tcb := { k.tcb t with blockedReason := .onNotify, timedOut := false } with hv
      have hb := h.blockedOn_eq_none ht (by rcases hs with hs | hs <;> simp [hs])
      have h₁ : TaskListInv ((osSchedEnterCritical k).setTcb t v) L := by
        refine h.enterCritical.setTcb (fun P => ?_) fun _ => Or.inl hb
        have hs' : v.state = .ready ∨ v.state = .running := hs
        rw [Tcb.fits_ready hs']
        exact (Tcb.fits_ready hs P).symm
      refine LeftInv.yield (LeftInv.addToBlocked h₁ ht ?_)
      show (Function.update k.tcb t v t).state = .ready ∨ (Function.update k.tcb t v t).state = .running
      rw [Function.update_self]
      exact hs

/-- **Every such call takes exactly its task out of the ready lists**, from the state in which it
starts. -/
theorem LeftInv.leave {call : LeaveCall} (h : TaskListInv (call.start k t) L)
    (hc : call = .suspend ∨ k.current = some t) (ht : t ∈ k.liveTcbs)
    (hs : (k.tcb t).state = .ready ∨ (k.tcb t).state = .running) (hr : call.run k t = some k') :
    LeftInv t L k' := by
  have hcur : call ≠ .suspend → k.current = some t := fun hne => hc.resolve_left hne
  cases call with
  | suspend =>
      obtain rfl := Option.some.inj hr
      exact LeftInv.suspend h ht hs
  | delay n =>
      rw [LeaveCall.run, osTaskDelay] at hr
      split at hr
      · cases hr
      · next hn =>
          rw [hcur (by simp)] at hr
          obtain rfl := Option.some.inj hr
          exact (LeftInv.addToBlocked (h : TaskListInv k L).enterCritical ht hs).yield
  | queueSend q item n =>
      have hr' := asleep_eq_some hr
      rw [osQueueSend_eq_exchange] at hr'
      exact LeftInv.exchange h (hcur (by simp)) ht hs hr'
  | queueReceive q n =>
      have hr' := asleep_eq_some hr
      rw [osQueueReceive_eq_exchange] at hr'
      exact LeftInv.exchange h (hcur (by simp)) ht hs hr'
  | semTake a n => exact LeftInv.semTake h (hcur (by simp)) ht hs (asleep_eq_some hr)
  | mutexLock m n =>
      have hlive : t ∈ (Mutex.prvBoostPriority (osSchedEnterCritical k) m (k.prio t)).liveTcbs := by
        unfold Mutex.prvBoostPriority
        split
        · exact ht
        · split
          · rw [(osTaskSetPriority_frame _ _ _).1]
            exact ht
          · exact ht
      exact LeftInv.mutexLock (hcur (by simp)) hs h hlive (asleep_eq_some hr)
  | eventWait e bits options n =>
      exact LeftInv.eventWait h (hcur (by simp)) ht hs (asleep_eq_some hr)
  | notifyWait n => exact LeftInv.notifyWait h (hcur (by simp)) ht hs (asleep_eq_some hr)

/-! ## Changing a priority, and then leaving -/

/-- The condition on a priority change: a RUNNING task gets the priority it has. -/
def Kernel.KeepsRunning (k : Kernel) (t : TaskId) (q : Prio) : Prop :=
  (k.tcb t).state = .running → q = k.prio t

/-- **Which priority changes keep the ready lists sound.** In every state that satisfies the
ready-list invariant, `os_task_set_priority` of a live task in any state keeps it exactly when no
RUNNING task gets another priority, and so does the restore inside `os_mutex_unlock`. If all lists are
sound they stay so, through the whole `os_mutex_unlock`; and a suspension, a delay or a blocking call
of the task that follows takes exactly that task out of the ready lists. -/
theorem setPriority_keepsReady (h : ReadyInv k R) (ht : t ∈ k.liveTcbs) (q : Prio) :
    ((∃ R', ReadyInv (osTaskSetPriority k t q) R') ↔ k.KeepsRunning t q) ∧
    (∀ m, (k.mutexes m).owner = some t →
      ((∃ R', ReadyInv (Mutex.prvRestorePriority (Mutex.dropLock k m) m) R') ↔
        k.KeepsRunning t (k.mutexes m).originalPrio)) ∧
    ∀ L, TaskListInv k L →
      (∀ m r, k.current = some t → (k.mutexes m).owner = some t →
        k.prio t = (k.mutexes m).originalPrio → osMutexUnlock k m = some r →
        ∃ L', TaskListInv r.1 L') ∧
      (k.KeepsRunning t q →
        (∃ L₁, TaskListInv (osTaskSetPriority k t q) L₁) ∧
        ((k.tcb t).state = .ready ∨ (k.tcb t).state = .running →
          ∀ (call : LeaveCall) (k₂ : Kernel) (L₁ : Layout), call = .suspend ∨ k.current = some t →
            TaskListInv (call.start (osTaskSetPriority k t q) t) L₁ →
            call.run (osTaskSetPriority k t q) t = some k₂ →
            ∃ L₂, TaskListInv k₂ L₂ ∧ Departed t L₁ L₂)) := by
  refine ⟨h.setPriority_iff ht q, fun m ho => h.restore_iff ht ho, fun L hL => ⟨?_, fun hcond => ⟨?_, ?_⟩⟩⟩
  · intro m r hc ho hp hr
    obtain ⟨k₁, a, hu⟩ := hL.osMutexUnlock hc ht (m := m) fun _ _ => hp
    rcases hu with ⟨heq, L', h', -⟩ | ⟨w, l, L', heq, hw⟩
    · obtain rfl := Option.some.inj (heq.symm.trans hr)
      exact ⟨L', h'⟩
    · obtain rfl := Option.some.inj (heq.symm.trans hr)
      exact ⟨L', hw.inv⟩
  · obtain ⟨L₁, h₁, -⟩ := hL.osTaskSetPriority (p := q) ht (by
      by_cases hrun : (k.tcb t).state = .running
      · exact Or.inr (hcond hrun).symm
      · exact Or.inl hrun)
    exact ⟨L₁, h₁⟩
  · intro hs call k₂ L₁ hc hstart hr
    obtain ⟨hlive, hcur, -, hstate⟩ := osTaskSetPriority_frame k t q
    apply LeftInv.leave hstart (hc.imp_right fun hc => hcur.trans hc) (hlive ▸ ht) ?_ hr
    rw [hstate]
    exact hs

/-- Two tasks of priority 3, the first of which runs. -/
def peersTrace : List Op := [.create (taskAt 0x100 3), .create (taskAt 0x200 3), .selectNext]

/-- The waiting peer can be moved. -/
theorem setPriority_keepsReady_peersTrace :
    ∃ s, Run WithoutMutexes step .boot peersTrace s ∧ (s.kernel.tcb 0x200).state = .ready ∧
      ∃ R', ReadyInv (osTaskSetPriority s.kernel 0x200 5) R' := by
  obtain ⟨s, hr, hlive, hs⟩ := exists_run_of_exec WithoutMutexes step Sys.boot peersTrace
    (fun s => 0x200 ∈ s.kernel.liveTcbs ∧ (s.kernel.tcb 0x200).state = .ready) (by decide +kernel)
  obtain ⟨L, hL⟩ := taskListInv_of_run Sys.boot_init hr
  refine ⟨s, hr, hs, (setPriority_keepsReady hL.readyInv hlive 5).1.mpr fun hrun => ?_⟩
  rw [hs] at hrun
  cases hrun

/-- **A running task that lowers its own priority breaks the lists.** All lists are sound before; after
the change the ready lists are not; and after a delay that follows, the BLOCKED task is still the one
that is found as the most urgent ready task, and its peer is in no list that is searched. -/
theorem setPriority_running_breaks :
    ∃ s L, Run WithoutMutexes step .boot peersTrace s ∧ TaskListInv s.kernel L ∧
      0x100 ∈ s.kernel.liveTcbs ∧ s.kernel.current = some 0x100 ∧
      (¬ ∃ R', ReadyInv (osTaskSetPriority s.kernel 0x100 5) R') ∧
      (osTaskDelay (osTaskSetPriority s.kernel 0x100 5) 10).any (fun k =>
        (k.tcb 0x100).state == .blocked && osTaskFindHighestReady k == some 0x100 &&
          k.links.next 0x100 == none && (k.tcb 0x200).state == .ready) = true := by
  obtain ⟨s, hr, hlive, hcur, hrun, hprio, hdelay⟩ := exists_run_of_exec WithoutMutexes step Sys.boot
    peersTrace (fun s => 0x100 ∈ s.kernel.liveTcbs ∧ s.kernel.current = some 0x100 ∧
      (s.kernel.tcb 0x100).state = .running ∧ (5 : Prio) ≠ s.kernel.prio 0x100 ∧
      (osTaskDelay (osTaskSetPriority s.kernel 0x100 5) 10).any (fun k =>
        (k.tcb 0x100).state == .blocked && osTaskFindHighestReady k == some 0x100 &&
          k.links.next 0x100 == none && (k.tcb 0x200).state == .ready) = true) (by decide +kernel)
  obtain ⟨L, hL⟩ := taskListInv_of_run Sys.boot_init hr
  exact ⟨s, L, hr, hL, hlive, hcur, hL.readyInv.not_setPriority_running hlive hrun hprio, hdelay⟩

end MiniRTOS
