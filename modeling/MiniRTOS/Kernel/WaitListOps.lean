import Mathlib.Data.List.TakeWhile
import MiniRTOS.Kernel.EventGroup
import MiniRTOS.Kernel.ListOps
import MiniRTOS.Kernel.Mutex
import MiniRTOS.Kernel.Queue
import MiniRTOS.Kernel.Semaphore
import MiniRTOS.Kernel.System

/-! # Insertion into wait lists and removal from them

What the four copies of `prv_block_task` and `prv_unblock_task` do to one wait list and one ready list,
whatever else the kernel holds. Nothing is assumed of the other lists: two lists with a common task are
the same list, so the writes to the links of one list reach no other.

* **`WaitListOk`**, **`ReadyListOk`** — one sorted wait list, one ready list.
* **`WaitCall`** — the four copies, with their own arguments.
* **`WritesOnly`** — the links and the heads that an operation may write.
* **`EnteredWait`** — a task that has gone from its ready list into a wait list.
* **`waitList_operations`** — insertion, removal, and one after the other. -/

namespace MiniRTOS

open PtrList

variable {k k' : Kernel} {w : WaitList} {t : TaskId} {p : Prio} {l l₁ l₂ rl : List TaskId}

/-! ## One list -/

/-- **A wait list**: linked both ways and sorted by priority number. -/
structure WaitListOk (k : Kernel) (w : WaitList) (l : List TaskId) : Prop where
  /-- The head pointer of the object. -/
  head : k.waitHead w = l.head?
  /-- The links of the waiters. -/
  seg : k.links.Seg none l none
  /-- Smaller priority numbers come first. -/
  sorted : l.Pairwise fun a b => k.prio a ≤ k.prio b

/-- **What an operation writes**: of the links those of the tasks in `own`, of the ready lists that of
`p`, of the wait lists the head of `w`; no priority changes. -/
structure WritesOnly (k k' : Kernel) (w : WaitList) (p : Option Prio) (own : List TaskId) : Prop where
  /-- The links of the other tasks. -/
  fields : ∀ x ∉ own, k'.links.next x = k.links.next x ∧ k'.links.prev x = k.links.prev x
  /-- The other ready lists. -/
  ready : ∀ q, p ≠ some q → k'.readyList q = k.readyList q ∧
    k'.readyBitmap.getLsbD q = k.readyBitmap.getLsbD q
  /-- The other wait lists. -/
  waits : ∀ v, v ≠ w → k'.waitHead v = k.waitHead v
  /-- The list of delayed tasks and that of deferred deletions. -/
  heads : k'.blockedList = k.blockedList ∧ k'.deferredDeleteList = k.deferredDeleteList
  /-- The priorities. -/
  prios : k'.prio = k.prio

namespace WritesOnly

variable {own own' : List TaskId} {q : Option Prio} {k'' : Kernel}

/-- One operation after the other. -/
theorem trans (h : WritesOnly k k' w q own) (h' : WritesOnly k' k'' w q own) :
    WritesOnly k k'' w q own where
  fields x hx := ⟨(h'.fields x hx).1.trans (h.fields x hx).1, (h'.fields x hx).2.trans (h.fields x hx).2⟩
  ready p hp := ⟨(h'.ready p hp).1.trans (h.ready p hp).1, (h'.ready p hp).2.trans (h.ready p hp).2⟩
  waits v hv := (h'.waits v hv).trans (h.waits v hv)
  heads := ⟨h'.heads.1.trans h.heads.1, h'.heads.2.trans h.heads.2⟩
  prios := h'.prios.trans h.prios

/-- An operation that writes less. -/
theorem mono (h : WritesOnly k k' w q own) (hown : own ⊆ own') : WritesOnly k k' w q own' :=
  { h with fields := fun x hx => h.fields x fun hx' => hx (hown hx') }

/-- A list of other tasks stays linked. -/
theorem seg {m : List TaskId} (h : WritesOnly k k' w q own) (hm : k.links.Seg none m none)
    (hdisj : ∀ x ∈ m, x ∉ own) : k'.links.Seg none m none :=
  hm.congr (fun x hx => (h.fields x (hdisj x hx)).1) fun x hx => (h.fields x (hdisj x hx)).2

end WritesOnly

/-! ## The four copies -/

/-- `prv_block_task` with a bound on the walk. -/
def blockTaskWithin (fuel : Nat) (k : Kernel) (w : WaitList) (t : TaskId) (timeout : Nat)
    (reason : BlockedReason) (owner : Obj) : Option Kernel := do
  let k₁ := k.setTcb t
    { k.tcb t with
      blockedOn := some owner, blockedReason := reason, timedOut := false, delayTicks := timeout }
  let k₂ := osTaskRemoveFromReady k₁ t
  let k₃ := k₂.setTcb t { k₂.tcb t with state := .blocked }
  let (prev, iter) ← findSlot k₃ (k₃.prio t) fuel none (k₃.waitHead w)
  some (linkWaiter k₃ w t prev iter)

/-- The four copies of `prv_block_task`, with what they take beside the task. -/
inductive WaitCall
  | queue (list : WaitList) (timeout : Nat) (reason : BlockedReason) (owner : Obj)
  | sem (s : Addr) (timeout : Nat)
  | mutex (m : Addr) (timeout : Nat)
  | eventGroup (e : Addr) (bits options : BitVec 32) (timeout : Nat)

namespace WaitCall

/-- The wait list. -/
def list : WaitCall → WaitList
  | queue list .. => list
  | sem s _ => .sem s
  | mutex m _ => .mutex m
  | eventGroup e .. => .eventGroup e

/-- The call of `prv_block_task`. -/
def block (c : WaitCall) (k : Kernel) (t : TaskId) : Option Kernel :=
  match c with
  | queue list timeout reason owner => Queue.prvBlockTask k list t timeout reason owner
  | sem s timeout => Sem.prvBlockTask k s t timeout
  | mutex m timeout => Mutex.prvBlockTask k m t timeout
  | eventGroup e bits options timeout => EventGroup.prvBlockTask k e t bits options timeout

/-- The call of the `prv_unblock_task` of the same file. -/
def unblock (c : WaitCall) (k : Kernel) (t : TaskId) : Kernel :=
  match c with
  | queue list .. => Queue.prvUnblockTask k list t
  | sem s _ => unblockTask k (.sem s) t
  | mutex m _ => unblockTask k (.mutex m) t
  | eventGroup e .. => unblockTask k (.eventGroup e) t

/-- The call of `prv_block_task` with a bound on its walk. -/
def blockWithin (c : WaitCall) (fuel : Nat) (k : Kernel) (t : TaskId) : Option Kernel :=
  match c with
  | queue list timeout reason owner => blockTaskWithin fuel k list t timeout reason owner
  | sem s timeout => blockTaskWithin fuel k (.sem s) t timeout .onSemTake (.sem s)
  | mutex m timeout => blockTaskWithin fuel k (.mutex m) t timeout .onMutexLock (.mutex m)
  | eventGroup e bits options timeout =>
      blockTaskWithin fuel (k.setTcb t
          { k.tcb t with eventWaitBits := bits, eventWaitOptions := options, eventReturnBits := 0 })
        (.eventGroup e) t timeout .onEventWait (.eventGroup e)

/-- The bound of the model, the number of tasks that can be, is one of the bounds. -/
theorem block_eq (c : WaitCall) (k : Kernel) (t : TaskId) : c.block k t = c.blockWithin maxTasks k t := by
  cases c <;> rfl

/-- The four functions that unblock a task are one. -/
theorem unblock_eq (c : WaitCall) (k : Kernel) (t : TaskId) : c.unblock k t = unblockTask k c.list t := by
  cases c <;> rfl

end WaitCall

/-! ## Writing control blocks -/

/-- A wait list does not depend on control blocks of the same priority. -/
theorem WaitListOk.setTcb {v : Tcb} (h : WaitListOk k w l) (hv : v.priority = k.prio t) :
    WaitListOk (k.setTcb t v) w l := by
  have hhead : (k.setTcb t v).waitHead w = k.waitHead w := by cases w <;> rfl
  refine ⟨hhead.trans h.head, h.seg, ?_⟩
  rw [prio_setTcb hv]
  exact h.sorted

/-- A ready list does not depend on control blocks. -/
theorem ReadyListOk.setTcb {v : Tcb} (h : ReadyListOk k p rl) : ReadyListOk (k.setTcb t v) p rl :=
  ⟨h.head, h.tail, h.seg, h.count, h.bitmap⟩

/-- A control block of the same priority writes no list. -/
theorem WritesOnly.setTcb {v : Tcb} (hv : v.priority = k.prio t) (w : WaitList) (p : Option Prio)
    (own : List TaskId) : WritesOnly k (k.setTcb t v) w p own where
  fields _ _ := ⟨rfl, rfl⟩
  ready _ _ := ⟨rfl, rfl⟩
  waits v _ := by cases v <;> rfl
  heads := ⟨rfl, rfl⟩
  prios := prio_setTcb hv

/-! ## Leaving the ready list -/

/-- `os_task_remove_from_ready` writes in the list of the task only. -/
theorem writesOnly_remove (hr : k.links.Seg none rl none) (ht : t ∈ rl) (w : WaitList) :
    WritesOnly k (osTaskRemoveFromReady k t) w (some (k.prio t)) rl where
  fields x hx := by
    obtain ⟨l, r, rfl⟩ := List.append_of_mem ht
    exact hr.unlink_fields hx
  ready q hq := osTaskRemoveFromReady_other fun h => hq (congrArg some h.symm)
  waits v _ := by cases v <;> rfl
  heads := ⟨rfl, rfl⟩
  prios := rfl

/-- A wait list without the task stays as it is. -/
theorem WaitListOk.remove (h : WaitListOk k w l) (hr : k.links.Seg none rl none) (ht : t ∈ rl)
    (htl : t ∉ l) : WaitListOk (osTaskRemoveFromReady k t) w l where
  head := by
    have hhead : (osTaskRemoveFromReady k t).waitHead w = k.waitHead w := by cases w <;> rfl
    exact hhead.trans h.head
  seg := (writesOnly_remove hr ht w).seg h.seg fun x hx hx' => htl (h.seg.eq_of_mem hr hx hx' ▸ ht)
  sorted := h.sorted

/-! ## Entering the wait list -/

/-- **Linking a waiter** between the two halves of the list. -/
theorem WaitListOk.link (h : WaitListOk k w (l₁ ++ l₂)) (ht : t ∉ l₁ ++ l₂)
    (hle : ∀ x ∈ l₁, k.prio x ≤ k.prio t) (hlt : ∀ x ∈ l₂, k.prio t < k.prio x) :
    WaitListOk (linkWaiter k w t l₁.getLast? l₂.head?) w (l₁ ++ t :: l₂) := by
  obtain ⟨hlinks, hheads, -, -, -, -, hprio⟩ := linkWaiter_writes k w t l₁.getLast? l₂.head?
  refine ⟨?_, ?_, ?_⟩
  · rw [hheads]
    cases l₁ with
    | nil => simp
    | cons a l₁ =>
        rw [if_neg (by simp), h.head]
        rfl
  · rw [hlinks]
    exact h.seg.splice h.seg.nodup ht
  · rw [hprio]
    obtain ⟨hs₁, hs₂, hs⟩ := List.pairwise_append.mp h.sorted
    refine List.pairwise_append.mpr ⟨hs₁, List.pairwise_cons.mpr ⟨fun x hx => (hlt x hx).le, hs₂⟩, ?_⟩
    intro x hx y hy
    rcases List.mem_cons.mp hy with rfl | hy
    · exact hle x hx
    · exact hs x hx y hy

/-- Linking a waiter writes in the wait list and in the waiter only. -/
theorem writesOnly_link (k : Kernel) (w : WaitList) (t : TaskId) (p : Option Prio) (l₁ l₂ : List TaskId) :
    WritesOnly k (linkWaiter k w t l₁.getLast? l₂.head?) w p (t :: (l₁ ++ l₂)) := by
  obtain ⟨hlinks, hheads, hrl, hbm, hbl, hdl, hprio⟩ := linkWaiter_writes k w t l₁.getLast? l₂.head?
  refine ⟨fun x hx => ?_, fun q _ => ⟨by rw [hrl], by rw [hbm]⟩, fun v hv => ?_, ⟨hbl, hdl⟩, hprio⟩
  · rw [List.mem_cons, not_or] at hx
    rw [hlinks]
    exact Links.splice_fields hx.1 hx.2
  · rw [hheads, if_neg fun h => hv h.1]

/-- A ready list of other tasks stays as it is. -/
theorem ReadyListOk.link (h : ReadyListOk k p rl) (hdisj : ∀ x ∈ rl, x ∉ t :: (l₁ ++ l₂)) :
    ReadyListOk (linkWaiter k w t l₁.getLast? l₂.head?) p rl := by
  obtain ⟨-, -, hrl, hbm, -, -, -⟩ := linkWaiter_writes k w t l₁.getLast? l₂.head?
  refine ⟨?_, ?_, (writesOnly_link k w t none l₁ l₂).seg h.seg hdisj, ?_, ?_⟩
  · rw [hrl]
    exact h.head
  · rw [hrl]
    exact h.tail
  · rw [hrl]
    exact h.count
  · rw [hbm]
    exact h.bitmap

/-- **A task has entered a wait list**: it stands after the waiters `l₁` of smaller or equal priority
number and before the others, and of its ready list `rl` it alone is gone. -/
structure EnteredWait (k k' : Kernel) (w : WaitList) (t : TaskId) (rl l₁ l₂ : List TaskId) : Prop where
  /-- The waiters before it. -/
  before : ∀ x ∈ l₁, k.prio x ≤ k.prio t
  /-- The waiters after it. -/
  after : ∀ x ∈ l₂, k.prio t < k.prio x
  /-- The wait list. -/
  waiting : WaitListOk k' w (l₁ ++ t :: l₂)
  /-- The ready list. -/
  ready : ReadyListOk k' (k.prio t) (rl.erase t)
  /-- Nothing else is written. -/
  only : WritesOnly k k' w (some (k.prio t)) (l₁ ++ l₂ ++ rl)
  /-- Every other list stays linked as it is. -/
  others : ∀ m, k.links.Seg none m none → m ≠ l₁ ++ l₂ → m ≠ rl → k'.links.Seg none m none

/-- What the walk leaves behind has smaller or equal priority numbers, what lies ahead has larger
ones. -/
theorem WaitListOk.slot (h : WaitListOk k w l) (q : Prio) :
    (∀ x ∈ l.takeWhile fun x => ¬ q < k.prio x, k.prio x ≤ q) ∧
      ∀ x ∈ l.dropWhile fun x => ¬ q < k.prio x, q < k.prio x := by
  refine ⟨fun x hx => not_lt.mp (by simpa using List.mem_takeWhile_imp hx), ?_⟩
  have hsorted := h.sorted.sublist (List.dropWhile_sublist fun x => ¬ q < k.prio x)
  have hfirst := List.head?_dropWhile_not (fun x => decide (¬ q < k.prio x)) l
  generalize l.dropWhile (fun x => ¬ q < k.prio x) = d at hsorted hfirst
  cases d with
  | nil => simp
  | cons a d =>
      have ha : q < k.prio a := by simpa using hfirst
      intro x hx
      rcases List.mem_cons.mp hx with rfl | hx
      · exact ha
      · exact ha.trans_le (List.rel_of_pairwise_cons hsorted hx)

/-- **`prv_block_task` puts a ready task in its place.** -/
theorem blockTaskWithin_entered {fuel : Nat} (timeout : Nat) (reason : BlockedReason) (owner : Obj)
    (hw : WaitListOk k w l) (hr : ReadyListOk k (k.prio t) rl) (ht : t ∈ rl) (htl : t ∉ l)
    (hfuel : l.length ≤ fuel) :
    ∃ k' l₁ l₂, blockTaskWithin fuel k w t timeout reason owner = some k' ∧ l = l₁ ++ l₂ ∧
      EnteredWait k k' w t rl l₁ l₂ := by
  set k₁ := k.setTcb t
    { k.tcb t with
      blockedOn := some owner, blockedReason := reason, timedOut := false, delayTicks := timeout }
    with hk₁
  set k₂ := osTaskRemoveFromReady k₁ t with hk₂
  set k₃ := k₂.setTcb t { k₂.tcb t with state := .blocked } with hk₃
  have hprio₁ : k₁.prio = k.prio := prio_setTcb rfl
  have hprio₃ : k₃.prio = k₁.prio := prio_setTcb rfl
  rw [hprio₁] at hprio₃
  -- the way to the walk: both lists and what has been written
  have hw₁ : WaitListOk k₁ w l := hw.setTcb rfl
  have hw₃ : WaitListOk k₃ w l := (hw₁.remove hr.seg ht htl).setTcb rfl
  have hr₁ : ReadyListOk k₁ (k₁.prio t) rl := by
    rw [hprio₁]
    exact hr.setTcb
  have hr₃ : ReadyListOk k₃ (k.prio t) (rl.erase t) := by
    have h₂ := hr₁.remove ht
    rw [hprio₁] at h₂
    exact h₂.setTcb
  have honly₁ : WritesOnly k k₁ w (some (k.prio t)) rl := WritesOnly.setTcb (by rfl) w _ _
  have honly₂ : WritesOnly k₁ k₂ w (some (k.prio t)) rl := by
    have h₂ := writesOnly_remove hr₁.seg ht w
    rwa [hprio₁] at h₂
  have honly₃ : WritesOnly k₂ k₃ w (some (k.prio t)) rl := WritesOnly.setTcb (by rfl) w _ _
  have honly := (honly₁.trans honly₂).trans honly₃
  -- the walk
  have hslot := findSlot_eq (p := k₃.prio t) hw₃.seg.path hfuel none
  rw [← hw₃.head, Option.or_none] at hslot
  have hplace := hw₃.slot (k₃.prio t)
  have hsplit := (List.takeWhile_append_dropWhile (p := fun x => ¬ k₃.prio t < k₃.prio x) (l := l)).symm
  generalize l.takeWhile (fun x => ¬ k₃.prio t < k₃.prio x) = l₁ at hslot hplace hsplit
  generalize l.dropWhile (fun x => ¬ k₃.prio t < k₃.prio x) = l₂ at hslot hplace hsplit
  subst hsplit
  -- the task is no longer ready, so that the writes at its place reach no ready list
  have hdisj : ∀ x ∈ rl.erase t, x ∉ t :: (l₁ ++ l₂) := by
    intro x hx hx'
    rcases List.mem_cons.mp hx' with rfl | hx'
    · exact hr.seg.nodup.not_mem_erase hx
    · exact htl (hw.seg.eq_of_mem hr.seg hx' (List.mem_of_mem_erase hx) ▸ ht)
  refine ⟨linkWaiter k₃ w t l₁.getLast? l₂.head?, l₁, l₂, ?_, rfl, ?_⟩
  · simp only [blockTaskWithin, ← hk₁, ← hk₂, ← hk₃, hslot]
    rfl
  · rw [hprio₃] at hplace
    have hlink : WritesOnly k₃ _ w (some (k.prio t)) (l₁ ++ l₂ ++ rl) :=
      (writesOnly_link k₃ w t _ l₁ l₂).mono
        (List.cons_subset.mpr ⟨List.mem_append_right _ ht, List.subset_append_left ..⟩)
    have hall := (honly.mono (List.subset_append_right ..)).trans hlink
    refine ⟨hplace.1, hplace.2, hw₃.link htl ?_ ?_, hr₃.link hdisj, hall, fun m hm hml hmr => ?_⟩
    · rw [hprio₃]
      exact hplace.1
    · rw [hprio₃]
      exact hplace.2
    · refine hall.seg hm fun x hx hx' => ?_
      rcases List.mem_append.mp hx' with hx' | hx'
      · exact hml (hm.eq_of_mem hw.seg hx hx')
      · exact hmr (hm.eq_of_mem hr.seg hx hx')

/-! ## Leaving the wait list -/

/-- **Removal**: of the wait list the task alone is gone. -/
theorem WaitListOk.unblock (h : WaitListOk k w (l₁ ++ t :: l₂)) :
    WaitListOk (unblockTask k w t) w (l₁ ++ l₂) := by
  obtain ⟨hlinks, hheads, -, -, -, -, hprio⟩ := unblockTask_writes k w t
  obtain ⟨hpv, hnx⟩ := h.seg.at_mid
  refine ⟨?_, ?_, ?_⟩
  · rw [hheads, head?_of_mid l₁ l₂ t, hpv, hnx, h.head]
    cases l₁.getLast? <;> simp
  · rw [hlinks]
    exact h.seg.unlink h.seg.nodup
  · rw [hprio]
    exact h.sorted.sublist ((List.sublist_cons_self ..).append_left _)

/-- `prv_unblock_task` writes in the wait list of the task only. -/
theorem writesOnly_unblock (h : k.links.Seg none l none) (ht : t ∈ l) (w : WaitList) :
    WritesOnly k (unblockTask k w t) w none l := by
  obtain ⟨hlinks, hheads, hrl, hbm, hbl, hdl, hprio⟩ := unblockTask_writes k w t
  refine ⟨fun x hx => ?_, fun q _ => ⟨by rw [hrl], by rw [hbm]⟩, fun v hv => ?_, ⟨hbl, hdl⟩, hprio⟩
  · obtain ⟨l₁, l₂, rfl⟩ := List.append_of_mem ht
    rw [hlinks]
    exact h.unlink_fields hx
  · rw [hheads, if_neg fun h => hv h.1]

/-! ## Insertion and removal -/

/-- The copy of `eventgroup.c` first records what the task waits for. -/
theorem EnteredWait.of_setTcb {v : Tcb} (h : EnteredWait (k.setTcb t v) k' w t rl l₁ l₂)
    (hv : v.priority = k.prio t) : EnteredWait k k' w t rl l₁ l₂ := by
  have hprio : (k.setTcb t v).prio = k.prio := prio_setTcb hv
  obtain ⟨hbefore, hafter, hwaiting, hready, honly, hothers⟩ := h
  rw [hprio] at hbefore hafter hready honly
  exact ⟨hbefore, hafter, hwaiting, hready, (WritesOnly.setTcb hv ..).trans honly, hothers⟩

/-- Insertion, by any of the four copies. -/
theorem WaitCall.blockWithin_entered (c : WaitCall) {fuel : Nat} (hw : WaitListOk k c.list l)
    (hr : ReadyListOk k (k.prio t) rl) (ht : t ∈ rl) (htl : t ∉ l) (hfuel : l.length ≤ fuel) :
    ∃ k' l₁ l₂, c.blockWithin fuel k t = some k' ∧ l = l₁ ++ l₂ ∧
      EnteredWait k k' c.list t rl l₁ l₂ := by
  cases c with
  | queue list timeout reason owner => exact blockTaskWithin_entered timeout reason owner hw hr ht htl hfuel
  | sem s timeout => exact blockTaskWithin_entered timeout _ _ hw hr ht htl hfuel
  | mutex m timeout => exact blockTaskWithin_entered timeout _ _ hw hr ht htl hfuel
  | eventGroup e bits options timeout =>
      set v : Tcb :=
        { k.tcb t with eventWaitBits := bits, eventWaitOptions := options, eventReturnBits := 0 }
      have hprio : (k.setTcb t v).prio = k.prio := prio_setTcb rfl
      have hw' : WaitListOk (k.setTcb t v) (.eventGroup e) l := WaitListOk.setTcb hw rfl
      have hr' : ReadyListOk (k.setTcb t v) ((k.setTcb t v).prio t) rl := by
        rw [hprio]
        exact hr.setTcb
      obtain ⟨k', l₁, l₂, hb, hsplit, hin⟩ := blockTaskWithin_entered timeout .onEventWait
        (.eventGroup e) hw' hr' ht htl hfuel
      exact ⟨k', l₁, l₂, hb, hsplit, hin.of_setTcb rfl⟩

/-- **The wait list operations of the four object kinds.** Insertion of a ready task keeps the list
in order, first come first served among equals, and takes the task out of its ready list only; removal
takes out any waiter and nothing else; one after the other, the list is what it was. The walk may be
bounded by any number that is not less than the number of waiters. -/
theorem waitList_operations (c : WaitCall) (hw : WaitListOk k c.list l) :
    (∀ t, c.block k t = c.blockWithin maxTasks k t) ∧
      (∀ t rl fuel, ReadyListOk k (k.prio t) rl → t ∈ rl → t ∉ l → l.length ≤ fuel →
        ∃ k' l₁ l₂, c.blockWithin fuel k t = some k' ∧ l = l₁ ++ l₂ ∧
          EnteredWait k k' c.list t rl l₁ l₂ ∧ WaitListOk (c.unblock k' t) c.list l) ∧
      ∀ t ∈ l, WaitListOk (c.unblock k t) c.list (l.erase t) ∧
        WritesOnly k (c.unblock k t) c.list none l ∧
        ∀ m, k.links.Seg none m none → m ≠ l → (c.unblock k t).links.Seg none m none := by
  refine ⟨c.block_eq k, fun t rl fuel hr ht htl hfuel => ?_, fun t ht => ?_⟩
  · obtain ⟨k', l₁, l₂, hb, rfl, hin⟩ := c.blockWithin_entered hw hr ht htl hfuel
    refine ⟨k', l₁, l₂, hb, rfl, hin, ?_⟩
    rw [c.unblock_eq]
    exact hin.waiting.unblock
  · have honly := writesOnly_unblock hw.seg ht c.list
    rw [c.unblock_eq]
    refine ⟨?_, honly, fun m hm hml => honly.seg hm fun x hx hx' => hml (hm.eq_of_mem hw.seg hx hx')⟩
    obtain ⟨l₁, l₂, rfl, he⟩ := exists_mid_of_mem ht hw.seg.nodup
    rw [he]
    exact hw.unblock

/-- One task waits for a semaphore, two of its priority are ready. -/
def oneSemWaiter : Kernel :=
  (osTaskAddToReady (osTaskAddToReady Sys.boot.kernel 0x20) 0x30).setWaitHead (some 0x10) (.sem 0x80)

/-- The second of the two goes to wait behind the first waiter, and leaves again. -/
theorem waitList_operations_behind :
    ∃ k', (WaitCall.sem 0x80 5).block oneSemWaiter 0x30 = some k' ∧
      WaitListOk k' (.sem 0x80) [0x10, 0x30] ∧ ReadyListOk k' 0 [0x20] ∧
      WaitListOk ((WaitCall.sem 0x80 5).unblock k' 0x30) (.sem 0x80) [0x10] := by
  have hw : WaitListOk oneSemWaiter (WaitCall.sem 0x80 5).list [0x10] :=
    ⟨rfl, ⟨rfl, rfl, trivial⟩, List.pairwise_singleton ..⟩
  have hr : ReadyListOk oneSemWaiter (oneSemWaiter.prio 0x30) [0x20, 0x30] :=
    ⟨rfl, rfl, ⟨rfl, rfl, rfl, rfl, trivial⟩, rfl, by decide⟩
  obtain ⟨hblock, hinsert, -⟩ := waitList_operations (.sem 0x80 5) hw
  obtain ⟨k', l₁, l₂, hb, hsplit, hin, hback⟩ :=
    hinsert 0x30 [0x20, 0x30] maxTasks hr (by decide) (by decide) (by decide)
  refine ⟨k', (hblock _).trans hb, ?_, hin.ready, hback⟩
  -- a task of equal priority number does not overtake
  obtain rfl : l₂ = [] := by
    refine List.eq_nil_iff_forall_not_mem.mpr fun x hx => ?_
    have hx' : x ∈ [0x10] := by
      rw [hsplit]
      exact List.mem_append_right l₁ hx
    obtain rfl := List.mem_singleton.mp hx'
    exact absurd (hin.after _ hx) (by decide)
  obtain rfl : l₁ = [0x10] := by simpa using hsplit.symm
  exact hin.waiting

end MiniRTOS
