import MiniRTOS.Kernel.Inheritance
import MiniRTOS.Kernel.Preemption
import MiniRTOS.Kernel.TaskMoves
import MiniRTOS.Lib.StableQueue

/-! # The order of the waiters

`prv_block_task` puts its task behind the waiters of smaller or equal priority number, and
`prv_wake_task` takes the first one. So the most urgent waiter is woken first, and among equals the one
that came first, as long as the priorities are those of the time when the tasks came. Two calls change
the priority of a task where it stands: `os_task_set_priority` of a task that waits, and a contended
`os_mutex_lock` whose owner waits for something else.

* **`WaitSys`** — the system with a clock that counts the steps, and for each waiter when it came.
* **`Sys.Reorders`** — the steps that change the priority of a waiter.
* **`waiters_in_order`** — without such steps every wait list is in order at all times, and the calls
  that wake a waiter wake the most urgent one. -/

namespace MiniRTOS

open PtrList Runs StableQueue

variable {s s' s₀ : Sys} {L L' : Layout} {k k' : Kernel} {t c : TaskId} {w : WaitList}

/-! ## The waiters and their times -/

/-- The tasks in a wait list, from its head on. -/
def Kernel.waiters (k : Kernel) (w : WaitList) : List TaskId :=
  follow k.links.next maxTasks (k.waitHead w)

/-- The waiters found by walking the list are those of the layout. -/
theorem TaskListInv.waiters_eq (h : TaskListInv k L) (w : WaitList) : k.waiters w = L (.wait w) := by
  have hhead : k.waitHead w = (L (.wait w)).head? := h.lists.head (.wait w)
  rw [Kernel.waiters, hhead]
  exact (h.lists.seg (.wait w) (by simp)).path.follow_eq (h.length_le _)

/-- The system and an observer who notes when a task enters a wait list. -/
structure WaitSys where
  /-- The system. -/
  sys : Sys
  /-- The number of steps so far. -/
  clock : Nat
  /-- When a waiter came. -/
  since : WaitList → TaskId → Nat

/-- The times after a step: a task that was not in the list before came now. -/
def noteWaiters (k k' : Kernel) (clock : Nat) (since : WaitList → TaskId → Nat) (w : WaitList)
    (t : TaskId) : Nat :=
  if t ∈ k'.waiters w ∧ t ∉ k.waiters w then clock else since w t

/-- **One step.** -/
def waitStep (x : WaitSys) (op : KernelOp) : Option WaitSys :=
  (kernelStep x.sys op).map fun s' =>
    { sys := s'
      clock := x.clock + 1
      since := noteWaiters x.sys.kernel s'.kernel x.clock x.since }

/-- The observer starts with the system. -/
def WaitSys.start (s : Sys) : WaitSys := ⟨s, 0, fun _ _ => 0⟩

/-! ## The steps that break the order -/

/-- A task that stands in a wait list, by its control block. -/
def Kernel.Stands (k : Kernel) (t : TaskId) : Prop :=
  (k.tcb t).state = .blocked ∧ (k.tcb t).blockedOn ≠ none

/-- Whether a task stands in a wait list can be decided. -/
instance Kernel.decidableStands (k : Kernel) (t : TaskId) : Decidable (k.Stands t) :=
  inferInstanceAs (Decidable (_ ∧ _))

/-- **A step that changes the priority of a waiter**: `os_task_set_priority` of a task in a wait list,
or a lock call by a task that is more urgent than the owner, while the owner is in a wait list. -/
def Sys.Reorders (s : Sys) : KernelOp → Prop
  | .setPriority t p => s.kernel.Stands t ∧ p ≠ s.kernel.prio t
  | .op o => ∃ m ∈ o.locked, ∃ b ∈ (s.kernel.mutexes m).owner, ∃ c ∈ s.kernel.current,
      s.kernel.prio c < s.kernel.prio b ∧ s.kernel.Stands b
  | _ => False

/-- The steps of the runs below. -/
def OrderedStep (s : Sys) (op : KernelOp) : Prop := ListedStep s op ∧ ¬ s.Reorders op

/-! ## What a step does to the wait lists -/

/-- The tasks of a wait list stand in it. -/
theorem TaskListInv.stands (h : TaskListInv k L) (ht : t ∈ L (.wait w)) : k.Stands t := by
  obtain ⟨hst, hb, -⟩ := (h.placed t (h.live _ t ht) _).mp ht
  exact ⟨hst, by rw [hb]; simp⟩

/-- A task that can run is in no wait list. -/
theorem TaskListInv.not_waiting (h : TaskListInv k L)
    (hs : (k.tcb c).state = .ready ∨ (k.tcb c).state = .running) : c ∉ L (.wait w) := by
  intro hmem
  have hst := (h.stands hmem).1
  rcases hs with hs | hs <;> rw [hst] at hs <;> cases hs

/-- **Wait lists get shorter or get one new member**, the current task. -/
theorem LockInv.shifts {op : KernelOp} (h : LockInv s L) (hop : ListedStep s op)
    (hs : MiniRTOS.kernelStep s op = some s') :
    ∃ L', LockInv s' L' ∧ ((∀ w, (L' (.wait w)).Sublist (L (.wait w))) ∨
      ∃ w c, NewWaiter s.kernel L s'.kernel w c) := by
  obtain ⟨L', h'⟩ := h.kernelStep hop hs
  refine ⟨L', h', ?_⟩
  -- The pointers follow one layout only, so it does not matter which lemma
  -- a layout of the new state came from.
  have hcalm : CalmInv s.kernel L s'.kernel → ∀ w, (L' (.wait w)).Sublist (L (.wait w)) := by
    rintro ⟨L'', h'', hc''⟩ w
    rw [h'.tasks.lists.lists.unique h''.lists]
    exact hc''.thins w
  cases op with
  | op o =>
      have hs' : MiniRTOS.step s o = some s' := hs
      obtain ⟨huse, hsafe⟩ : SafeStep s o := hop
      cases hq : o.calm with
      -- Of the calm calls only those that put their caller to sleep lengthen a wait list.
      | true =>
          obtain ⟨s'', hs'', hcase⟩ :=
            step_calm_or_blocks h.tasks.lists huse.1 hq (h.tasks.lists.canary_of_step hs')
          obtain rfl : s' = s'' := Option.some.inj (hs'.symm.trans hs'')
          exact hcase.imp hcalm fun ⟨w, c, _, hnew⟩ => ⟨w, c, hnew⟩
      | false =>
          cases o with
          | mutexLock m n =>
              obtain ⟨c, hc, hl, hst, -⟩ := Sys.Permits.task huse.1.1
              exact (h.lock_layout hc hl hst hs').imp (fun hd => hcalm hd.2)
                fun hb => ⟨.mutex m, c, hc, hl, hst, hb.2⟩
          -- A hand-over takes the first waiter of the mutex out and touches no other list.
          | mutexUnlock m =>
              obtain ⟨c, hc, hl, hst, -⟩ := Sys.Permits.task huse.1.1
              refine Or.inl ?_
              obtain ⟨a, u, -, ⟨-, hd⟩ | ⟨t, r, L'', -, hoff⟩⟩ := h.unlock_layout hsafe hc hl hs'
              · exact hcalm hd
              · intro w
                rw [h'.tasks.lists.lists.unique hoff.inv.lists]
                refine (hoff.calm.thins w).trans ?_
                rw [Layout.set_apply]
                split
                · next hw =>
                    rw [hw, hoff.split]
                    exact List.sublist_cons_self t r
                · exact List.Sublist.refl _
          | deleteSelf =>
              obtain ⟨c, hc, hl, hst, -⟩ := Sys.Permits.task huse.1.1
              obtain ⟨k', hk', h'', -⟩ := h.tasks.lists.deleteSelf hc hl hst
              obtain ⟨k'', hk'', rfl⟩ := Option.map_eq_some_iff.mp hs'
              obtain rfl : k' = k'' := Option.some.inj (hk'.symm.trans hk'')
              refine Or.inl fun w => ?_
              rw [h'.tasks.lists.lists.unique h''.lists, Layout.set_wait _ (by simp),
                Layout.remove_wait _ (by simp)]
          -- The selection rotates a ready list.
          | selectNext =>
              obtain rfl := Option.some.inj hs'
              refine Or.inl fun w => ?_
              rcases h.tasks.lists.osSchedSelectNext with ⟨-, he⟩ | ⟨p, t, r, n, -, -, -, h'', -⟩
              · have hsame : TaskListInv (osSchedSelectNext s.kernel) L := by
                  rw [he]
                  exact h.tasks.lists
                rw [h'.tasks.lists.lists.unique hsame.lists]
              · rw [h'.tasks.lists.lists.unique h''.lists, Layout.set_wait _ (by simp)]
          | _ => cases hq
  | setPriority t p =>
      obtain rfl := Option.some.inj hs
      exact Or.inl (hcalm (h.tasks.lists.osTaskSetPriority hop.2.1 (Or.inl hop.2.2)))
  | overwrite q item =>
      obtain rfl := Option.some.inj hs
      exact Or.inl (hcalm (h.tasks.lists.osQueueOverwrite item))
  | overwriteFromIsr q item =>
      obtain rfl := Option.some.inj hs
      exact Or.inl (hcalm (h.tasks.lists.osQueueOverwriteFromIsr item))

/-- **The priorities of the waiters stay**, unless the step is one of those that change them. -/
theorem LockInv.prio_waiter {op : KernelOp} (h : LockInv s L) (hop : OrderedStep s op)
    (hs : MiniRTOS.kernelStep s op = some s') (ht : t ∈ L (.wait w)) :
    s'.kernel.prio t = s.kernel.prio t := by
  obtain ⟨hlisted, hnot⟩ := hop
  have hstands := h.tasks.lists.stands ht
  cases op with
  | op o =>
      have hs' : MiniRTOS.step s o = some s' := hs
      obtain ⟨huse, hsafe⟩ : SafeStep s o := hlisted
      cases hm : o.mutex with
      -- Only the mutex calls and `os_task_set_priority` write priorities.
      | none => exact (step_mutexFrame huse.1 hm hs').prios t (h.tasks.lists.live _ t ht)
      | some x =>
          cases o with
          | mutexCreate m =>
              obtain rfl := Option.some.inj hs'
              rfl
          | mutexLock m n =>
              obtain ⟨c, hc, -⟩ := Sys.Permits.task huse.1.1
              -- the owner that is boosted stands in no wait list
              have hboost : ∀ b, (s.kernel.view.locks m).owner = some b →
                  s'.kernel.view = s.kernel.view.boost c b → s'.kernel.prio t = s.kernel.prio t := by
                intro b hb hview
                have hp : s'.kernel.view.prios t = _ := congrArg (fun v => v.prios t) hview
                rw [View.prios_boost, if_neg] at hp
                · exact hp
                · rintro ⟨hlt, rfl⟩
                  exact hnot ⟨m, rfl, t, hb, c, hc, hlt, hstands⟩
              cases step_mutexLock hc hs' with
              | free _ hview => exact congrArg (fun v => v.prios t) hview
              | again _ hview => exact congrArg (fun v => v.prios t) hview
              | refused b hb _ hview => exact hboost b hb hview
              | blocked b hb _ hview => exact hboost b hb hview
          | mutexUnlock m =>
              obtain ⟨c, hc, -, hst, -⟩ := Sys.Permits.task huse.1.1
              cases (step_mutexUnlock hc hs').2 with
              | foreign _ hview => exact congrArg (fun v => v.prios t) hview
              | again _ _ hview => exact congrArg (fun v => v.prios t) hview
              -- The full release restores the priority of its caller, who does not wait.
              | full _ _ hview =>
                  have htc : t ≠ c := fun htc => h.tasks.lists.not_waiting hst (htc ▸ ht)
                  refine (congrArg (fun v => v.prios t) hview).trans ?_
                  exact Function.update_of_ne htc _ _
          | _ => cases hm
  | setPriority x p =>
      obtain rfl := Option.some.inj hs
      show ((osTaskSetPriority s.kernel x p).tcb t).priority = _
      rw [tcb_osTaskSetPriority, Function.update_apply]
      split
      · -- The condition on the run: a waiter is only given the priority it has.
        next htx =>
          subst htx
          by_contra hne
          exact hnot ⟨hstands, hne⟩
      · rfl
  | overwrite q item =>
      obtain rfl := Option.some.inj hs
      exact congrFun (view_osQueueOverwrite s.kernel q item).2 t
  | overwriteFromIsr q item =>
      obtain rfl := Option.some.inj hs
      exact congrFun (view_osQueueOverwriteFromIsr s.kernel q item).2 t

/-! ## The invariant -/

/-- **Every wait list is in order**, and the waiters came in the past. -/
structure InOrder (k : Kernel) (L : Layout) (clock : Nat) (since : WaitList → TaskId → Nat) : Prop where
  /-- The order. -/
  sorted : ∀ w, (L (.wait w)).Pairwise (Ahead k.prio (since w))
  /-- The times. -/
  past : ∀ w, ∀ t ∈ L (.wait w), since w t < clock

/-- Waiters leave, and nobody comes. -/
theorem InOrder.thin {clock clock' : Nat} {since since' : WaitList → TaskId → Nat}
    (h : InOrder k L clock since) (hthin : ∀ w, (L' (.wait w)).Sublist (L (.wait w)))
    (hprio : ∀ w, ∀ t ∈ L' (.wait w), k'.prio t = k.prio t)
    (hsince : ∀ w, ∀ t ∈ L' (.wait w), since' w t = since w t) (hclock : clock ≤ clock') :
    InOrder k' L' clock' since' := by
  refine ⟨fun w => pairwise_of_sublist (h.sorted w) (hthin w) (hprio w) (hsince w), fun w t ht => ?_⟩
  rw [hsince w t ht]
  exact (h.past w t ((hthin w).subset ht)).trans_le hclock

/-- A task comes: the others keep their priorities, and it is noted now. -/
theorem InOrder.enter {clock : Nat} {since since' : WaitList → TaskId → Nat} {l r : List TaskId}
    (h : InOrder k L clock since) (hsplit : L (.wait w) = l ++ r)
    (hfront : ∀ x ∈ l, k'.prio x ≤ k'.prio c) (hback : ∀ x ∈ r.head?, k'.prio c < k'.prio x)
    (hprio : ∀ u, ∀ t ∈ L (.wait u), k'.prio t = k.prio t)
    (hsince : ∀ u, ∀ t ∈ L (.wait u), since' u t = since u t) (hnow : since' w c = clock) :
    InOrder k' (L.set (.wait w) (l ++ c :: r)) (clock + 1) since' := by
  -- The old waiters keep priorities and times of arrival.
  have hold : InOrder k' L clock since' :=
    h.thin (fun _ => List.Sublist.refl _) hprio hsince le_rfl
  have hsorted := hold.sorted w
  have hpast := hold.past w
  rw [hsplit] at hsorted hpast
  refine ⟨fun u => ?_, fun u t ht => ?_⟩
  · rw [Layout.set_apply]
    split
    · next hu =>
        obtain rfl : u = w := by simpa using hu
        -- The newcomer stands behind its equals, and they all came before the present.
        refine pairwise_insert hsorted hfront hback fun x hx => ?_
        rw [hnow]
        exact hpast x (List.mem_append_left _ hx)
    · exact hold.sorted u
  · rw [Layout.set_apply] at ht
    split at ht
    · next hu =>
        obtain rfl : u = w := by simpa using hu
        rcases List.mem_append.mp ht with ht | ht
        · exact (hpast t (List.mem_append_left _ ht)).trans (Nat.lt_succ_self _)
        · rcases List.mem_cons.mp ht with rfl | ht
          · rw [hnow]
            exact Nat.lt_succ_self _
          · exact (hpast t (List.mem_append_right _ ht)).trans (Nat.lt_succ_self _)
    · exact (hold.past u t ht).trans (Nat.lt_succ_self _)

/-- **One step keeps the wait lists in order.** -/
theorem InOrder.step {x x' : WaitSys} {op : KernelOp} (hi : InOrder x.sys.kernel L x.clock x.since)
    (h : LockInv x.sys L) (hop : OrderedStep x.sys op) (hs : waitStep x op = some x') :
    ∃ L', LockInv x'.sys L' ∧ InOrder x'.sys.kernel L' x'.clock x'.since := by
  obtain ⟨s', hs', rfl⟩ := Option.map_eq_some_iff.mp hs
  obtain ⟨L', h', hcase⟩ := h.shifts hop.1 hs'
  refine ⟨L', h', ?_⟩
  have hold := h.tasks.lists.waiters_eq
  have hnew := h'.tasks.lists.waiters_eq
  -- Who waited already keeps its time of arrival.
  have hkept : ∀ u, ∀ t ∈ L (.wait u),
      noteWaiters x.sys.kernel s'.kernel x.clock x.since u t = x.since u t := by
    intro u t ht
    rw [noteWaiters, hold, if_neg fun hn => hn.2 ht]
  have hprio : ∀ u, ∀ t ∈ L (.wait u), s'.kernel.prio t = x.sys.kernel.prio t :=
    fun u t ht => h.prio_waiter hop hs' ht
  rcases hcase with hthin | ⟨w, c, hc, hl, hst, L'', l, r, hq⟩
  · -- No new waiter.
    exact hi.thin hthin (fun u t ht => hprio u t ((hthin u).subset ht))
      (fun u t ht => hkept u t ((hthin u).subset ht)) (Nat.le_succ _)
  · obtain rfl : L' = L'' := funext (h'.tasks.lists.lists.unique hq.inv.lists)
    have hcw : c ∉ L (.wait w) := h.tasks.lists.not_waiting hst
    -- note the newcomer first, then let waiters leave
    have hin : InOrder s'.kernel (L.set (.wait w) (l ++ c :: r)) (x.clock + 1)
        fun u t => if u = w ∧ t = c then x.clock else x.since u t := by
      refine hi.enter hq.split hq.front hq.back hprio (fun u t ht => if_neg ?_) (if_pos ⟨rfl, rfl⟩)
      rintro ⟨rfl, rfl⟩
      exact hcw ht
    refine hin.thin hq.calm.thins (fun _ _ _ => rfl) (fun u t ht => ?_) le_rfl
    by_cases hut : u = w ∧ t = c
    · obtain ⟨rfl, rfl⟩ := hut
      rw [if_pos ⟨rfl, rfl⟩]
      show noteWaiters _ _ _ _ _ _ = _
      rw [noteWaiters, hold, hnew, if_pos ⟨ht, hcw⟩]
    · rw [if_neg hut]
      refine hkept u t ?_
      have hmem := (hq.calm.thins u).subset ht
      rw [Layout.set_apply] at hmem
      split at hmem
      · next hu =>
          obtain rfl : u = w := by simpa using hu
          rw [hq.split]
          rcases List.mem_append.mp hmem with hmem | hmem
          · exact List.mem_append_left _ hmem
          · rcases List.mem_cons.mp hmem with rfl | hmem
            · exact absurd ⟨rfl, rfl⟩ hut
            · exact List.mem_append_right _ hmem
      · exact hmem

/-! ## Who is woken -/

/-- The wait list that a waking call takes its task from. -/
def Op.wakesFrom : Op → Option WaitList
  | .semGive a | .semGiveFromIsr a => some (.sem a)
  | .queueSend q _ _ | .queueSendFromIsr q _ => some (.queueRecv q)
  | .queueReceive q _ | .queueReceiveFromIsr q => some (.queueSend q)
  | .mutexUnlock m => some (.mutex m)
  | _ => none

/-- A task that leaves a wait list is in another phase afterwards. -/
theorem TaskListInv.phase_of_leaver (h : TaskListInv k L) (h' : TaskListInv k' L')
    (hlive : k'.liveTcbs = k.liveTcbs) (ht : t ∈ L (.wait w)) (ht' : t ∉ L' (.wait w)) :
    k'.waits.phases t ≠ k.waits.phases t := by
  intro hp
  have hl := h.live _ t ht
  obtain ⟨hst, hb, hr⟩ := (h.placed t hl _).mp ht
  refine ht' ((h'.placed t (hlive ▸ hl) _).mpr ⟨?_, ?_, ?_⟩)
  · have hphase : (k'.tcb t).phase.state = .blocked := by
      rw [show (k'.tcb t).phase = (k.tcb t).phase from hp]
      exact (Tcb.phase_state_eq (by simp) (by simp)).mpr hst
    exact (Tcb.phase_state_eq (by simp) (by simp)).mp hphase
  · exact (congrArg Phase.blockedOn hp : (k'.tcb t).blockedOn = (k.tcb t).blockedOn).trans hb
  · exact (congrArg Phase.blockedReason hp : (k'.tcb t).blockedReason = (k.tcb t).blockedReason).trans hr

/-- **A call that moves only first waiters** and tasks that can run. -/
structure MovesFirst (k : Kernel) (v : Waits) : Prop where
  /-- No control block is handed out or freed. -/
  live : v.live = k.waits.live
  /-- Who is in another phase afterwards. -/
  moved : ∀ x, v.phases x ≠ k.waits.phases x →
    (k.tcb x).state ≠ .blocked ∨ ∃ u, k.waitHead u = some x

/-- A call that moves one such task. -/
theorem MovesFirst.set {p : Phase} (h : (k.tcb t).state ≠ .blocked ∨ ∃ u, k.waitHead u = some t) :
    MovesFirst k (k.waits.set t p) := by
  refine ⟨rfl, fun x hx => ?_⟩
  have hxt : x = t := by
    by_contra hne
    exact hx (Function.update_of_ne hne _ _)
  exact hxt ▸ h

/-- Waking the first waiter moves only that one. -/
theorem MovesFirst.wokenWaits (k : Kernel) (w : WaitList) : MovesFirst k (k.wokenWaits w) := by
  unfold Kernel.wokenWaits
  split
  · exact ⟨rfl, fun x hx => absurd rfl hx⟩
  · next t ht => exact .set (Or.inr ⟨w, ht⟩)

/-- So does giving a semaphore. -/
theorem GiveTurn.movesFirst {a : Addr} {r : Status} {v : Waits} (h : GiveTurn k a r v) :
    MovesFirst k v := by
  cases h with
  | handsOff t ht _ hv => exact hv ▸ .set (Or.inr ⟨_, ht⟩)
  | counts _ _ _ hv => exact hv ▸ ⟨rfl, fun x hx => absurd rfl hx⟩
  | fails _ _ hv => exact hv ▸ ⟨rfl, fun x hx => absurd rfl hx⟩

/-- So does a queue call whose caller can run. -/
theorem QueueTurn.movesFirst {q : Addr} {caller : Option TaskId} {v : Waits}
    (hc : ∀ c, caller = some c → (k.tcb c).state ≠ .blocked) (h : QueueTurn k q caller v) :
    MovesFirst k v := by
  cases h with
  | same hv => exact hv ▸ ⟨rfl, fun x hx => absurd rfl hx⟩
  | wakes w _ hv => exact hv ▸ .wokenWaits k w
  | sleeps w _ n c hcaller hv => exact hv ▸ .set (Or.inl (hc c hcaller))

/-- **Who leaves a wait list stood first.** -/
theorem TaskListInv.head_of_leaver (h : TaskListInv k L) (h' : TaskListInv k' L')
    (hmoves : MovesFirst k k'.waits) (ht : t ∈ L (.wait w)) (ht' : t ∉ L' (.wait w)) :
    (L (.wait w)).head? = some t := by
  rcases hmoves.moved t (h.phase_of_leaver h' hmoves.live ht ht') with hst | ⟨u, hu⟩
  · exact absurd (h.stands ht).1 hst
  · have hhead : (L (.wait u)).head? = some t := (h.lists.head (.wait u)).symm.trans hu
    have huw := h.lists.disjoint _ _ t (List.mem_of_mem_head? hhead) ht
    rwa [huw] at hhead

/-- **The waking calls wake the first waiter** of their list. -/
theorem LockInv.first_woken {o : Op} (h : LockInv s L) (hop : SafeStep s o)
    (hs : MiniRTOS.step s o = some s') (h' : LockInv s' L') (hw : o.wakesFrom = some w)
    (ht : t ∈ L (.wait w)) (ht' : t ∉ L' (.wait w)) : (L (.wait w)).head? = some t := by
  obtain ⟨huse, hsafe⟩ := hop
  -- A caller may enter a wait list of its own queue, but it does not stand in one yet.
  have hcaller : s.Permits .task → ∀ c, s.kernel.current = some c →
      (s.kernel.tcb c).state ≠ .blocked := by
    intro hperm c hc
    obtain ⟨c', hc', -, hst, -⟩ := hperm.task
    obtain rfl := Option.some.inj (hc.symm.trans hc')
    rcases hst with hst | hst <;> rw [hst] <;> simp
  cases o with
  | semGive a =>
      obtain ⟨r, hr, rfl⟩ := Option.map_eq_some_iff.mp hs
      exact h.tasks.lists.head_of_leaver h'.tasks.lists (waits_osSemGive hr).movesFirst ht ht'
  | semGiveFromIsr a =>
      obtain rfl := Option.some.inj hs
      exact h.tasks.lists.head_of_leaver h'.tasks.lists
        (waits_osSemGiveFromIsr s.kernel a).movesFirst ht ht'
  | queueSend q item n =>
      obtain ⟨c, k₁, r, hc, hr, rfl⟩ := Sys.blockingCall_inv hs
      refine h.tasks.lists.head_of_leaver h'.tasks.lists ?_ ht ht'
      rw [Sys.kernel_outcome _ _ _ _ fun _ => rfl]
      refine (waits_osQueueSend hc hr).movesFirst fun x hx => ?_
      exact Option.some.inj hx ▸ hcaller huse.1.1 c hc
  | queueSendFromIsr q item =>
      obtain rfl := Option.some.inj hs
      exact h.tasks.lists.head_of_leaver h'.tasks.lists
        ((waits_osQueueSendFromIsr s.kernel q item).movesFirst fun x hx => by cases hx) ht ht'
  | queueReceive q n =>
      obtain ⟨c, k₁, r, hc, hr, rfl⟩ := Sys.blockingCall_inv hs
      refine h.tasks.lists.head_of_leaver h'.tasks.lists ?_ ht ht'
      rw [Sys.kernel_outcome _ _ _ _ fun _ => rfl]
      refine (waits_osQueueReceive hc hr).movesFirst fun x hx => ?_
      exact Option.some.inj hx ▸ hcaller huse.1.1 c hc
  | queueReceiveFromIsr q =>
      obtain rfl := Option.some.inj hs
      exact h.tasks.lists.head_of_leaver h'.tasks.lists
        ((waits_osQueueReceiveFromIsr s.kernel q).movesFirst fun x hx => by cases hx) ht ht'
  -- The unlocking call moves a task only when it hands the mutex over, to the first waiter.
  | mutexUnlock m =>
      obtain rfl := Option.some.inj hw
      obtain ⟨c, hc, hl, -⟩ := Sys.Permits.task huse.1.1
      obtain ⟨a, u, -, ⟨-, L'', h'', hcalm⟩ | ⟨x, r, L'', -, hoff⟩⟩ := h.unlock_layout hsafe hc hl hs
      · rw [h'.tasks.lists.lists.unique h''.lists, hcalm.waits] at ht'
        exact absurd ht ht'
      · rw [h'.tasks.lists.lists.unique hoff.inv.lists, hoff.calm.waits, Layout.set_self] at ht'
        rw [hoff.split] at ht ⊢
        rcases List.mem_cons.mp ht with rfl | ht
        · rfl
        · exact absurd ht ht'
  | _ => cases hw

/-- **The most urgent waiter comes first**: every wait list is in the order of the current priorities
of its tasks, and among equals in the order in which they came; and a call that wakes a waiter of an
object wakes one of the most urgent. -/
structure WaitSys.MostUrgentFirst (x : WaitSys) : Prop where
  /-- The order. -/
  sorted : ∀ w, (x.sys.kernel.waiters w).Pairwise (Ahead x.sys.kernel.prio (x.since w))
  /-- Who is woken. -/
  woken : ∀ (o : Op) (w : WaitList) (s' : Sys), o.wakesFrom = some w → SafeStep x.sys o →
    step x.sys o = some s' → ∀ t ∈ x.sys.kernel.waiters w, t ∉ s'.kernel.waiters w →
      ∀ t' ∈ x.sys.kernel.waiters w, x.sys.kernel.prio t ≤ x.sys.kernel.prio t'

/-- **The most urgent waiter comes first as long as no waiter's priority changes**: in every state
that a run reaches whose steps neither change the priority of a task in a wait list nor break the task
lists. -/
theorem waiters_in_order {ops : List KernelOp} {x : WaitSys} (h₀ : s₀.Init) (hfree : s₀.NoneHeld)
    (hr : Run (fun x op => OrderedStep x.sys op) waitStep (.start s₀) ops x) : x.MostUrgentFirst := by
  obtain ⟨L, h, hi⟩ := hr.invariant
    (fun x => ∃ L, LockInv x.sys L ∧ InOrder x.sys.kernel L x.clock x.since)
    (fun _ _ _ ⟨_, h, hi⟩ hop hs => hi.step h hop hs)
    ⟨_, h₀.lockInv hfree, fun _ => List.Pairwise.nil, fun _ t ht => by cases ht⟩
  have hlist := h.tasks.lists.waiters_eq
  refine ⟨fun w => (hlist w).symm ▸ hi.sorted w, fun o w s' hw hop hs t ht hleft t' ht' => ?_⟩
  obtain ⟨L', h'⟩ := h.step hop hs
  rw [hlist] at ht ht'
  rw [h'.tasks.lists.waiters_eq] at hleft
  have hhead := h.first_woken hop hs h' hw ht hleft
  have hsorted := hi.sorted w
  cases hl : L (.wait w) with
  | nil =>
      rw [hl] at ht
      cases ht
  | cons a r =>
      rw [hl] at hhead hsorted ht'
      obtain rfl : a = t := Option.some.inj hhead
      exact rank_head_le hsorted t' ht'

/-- The steps of `ListedStep` without deletion, which can be decided. -/
def PlainStep (s : Sys) : KernelOp → Prop
  | .op o => s.PlainUse o ∧ ¬ s.BoostedRelease o
  | .setPriority t _ => s.Permits .startup ∧ t ∈ s.kernel.liveTcbs ∧ (s.kernel.tcb t).state ≠ .running
  | .overwrite .. => s.Permits .task
  | .overwriteFromIsr .. => True

/-- Whether a step is a plain one can be decided. -/
instance decidablePlainStep (s : Sys) : (op : KernelOp) → Decidable (PlainStep s op)
  | .op _ => inferInstanceAs (Decidable (_ ∧ _))
  | .setPriority .. => inferInstanceAs (Decidable (_ ∧ _))
  | .overwrite .. => inferInstanceAs (Decidable (s.Permits .task))
  | .overwriteFromIsr .. => inferInstanceAs (Decidable True)

/-- Whether a step reorders waiters can be decided. -/
instance Sys.decidableReorders (s : Sys) : (op : KernelOp) → Decidable (s.Reorders op)
  | .op o => inferInstanceAs (Decidable (∃ m ∈ o.locked, _))
  | .setPriority .. => inferInstanceAs (Decidable (_ ∧ _))
  | .overwrite .. => inferInstanceAs (Decidable False)
  | .overwriteFromIsr .. => inferInstanceAs (Decidable False)

/-- A plain step is one of the steps of the runs. -/
theorem PlainStep.listed {op : KernelOp} (h : PlainStep s op) : ListedStep s op := by
  cases op with
  | op o => exact ⟨h.1.proper, h.2⟩
  | _ => exact h

/-- Three tasks wait for a semaphore, two of them with priority 3 and one with priority 4, which it
got before it waited. -/
def waitersTrace : List KernelOp :=
  [.op (.semCreateCounting 0x10 5 0), .op (.create (taskAt 0x100 5)), .op (.create (taskAt 0x200 3)),
    .op (.create (taskAt 0x300 3)), .op (.create (taskAt 0x400 9)), .setPriority 0x100 4,
    .op .selectNext, .op (.semTake 0x10 waitForever), .op .selectNext,
    .op (.semTake 0x10 waitForever), .op .selectNext, .op (.semTake 0x10 waitForever),
    .op .selectNext]

/-- The two waiters of priority 3 stand first, in the order in which they came. -/
theorem waiters_in_order_waitersTrace : ∃ x,
    Run (fun x op => OrderedStep x.sys op) waitStep (.start .boot) waitersTrace x ∧
      x.sys.kernel.waiters (.sem 0x10) = [0x200, 0x300, 0x100] ∧ x.MostUrgentFirst := by
  obtain ⟨x, hr, hx⟩ := exists_run_of_exec
    (fun x op => PlainStep x.sys op ∧ ¬ x.sys.Reorders op) waitStep (.start .boot) waitersTrace
    (fun x => x.sys.kernel.waiters (.sem 0x10) = [0x200, 0x300, 0x100]) (by decide +kernel)
  have hr' : Run (fun x op => OrderedStep x.sys op) waitStep (.start .boot) waitersTrace x :=
    hr.mono fun _ _ h => ⟨h.1.listed, h.2⟩
  exact ⟨x, hr', hx, waiters_in_order Sys.boot_init Sys.boot_noneHeld hr'⟩

/-- A task of priority 3 and one of priority 5 wait for a semaphore; the second one gets priority 1. -/
def raisedTrace : List KernelOp :=
  [.op (.semCreateCounting 0x10 5 0), .op (.create (taskAt 0x100 3)), .op (.create (taskAt 0x200 5)),
    .op (.create (taskAt 0x300 7)), .op .selectNext, .op (.semTake 0x10 waitForever), .op .selectNext,
    .op (.semTake 0x10 waitForever), .op .selectNext, .setPriority 0x200 1]

/-- **A waiter that gets another priority keeps its place**: the list is out of order, and
`os_sem_give` wakes the task of priority 3 while one of priority 1 waits. -/
theorem raised_waiter_overtaken :
    (¬ ∀ (ops : List KernelOp) (x : WaitSys),
      Run (fun x op => ListedStep x.sys op) waitStep (.start .boot) ops x →
        ∀ w, (x.sys.kernel.waiters w).Pairwise (Ahead x.sys.kernel.prio (x.since w))) ∧
    ¬ ∀ (ops : List KernelOp) (x : WaitSys),
      Run (fun x op => ListedStep x.sys op) waitStep (.start .boot) ops x →
        ∀ (a : Addr) (s' : Sys), SafeStep x.sys (.semGive a) → step x.sys (.semGive a) = some s' →
          ∀ t ∈ x.sys.kernel.waiters (.sem a), t ∉ s'.kernel.waiters (.sem a) →
            ∀ t' ∈ x.sys.kernel.waiters (.sem a), x.sys.kernel.prio t ≤ x.sys.kernel.prio t' := by
  obtain ⟨x, hr, hx, hlt, hop, s', hs, hs'⟩ := exists_run_of_exec
    (fun x op => PlainStep x.sys op) waitStep (.start .boot) raisedTrace
    (fun x => x.sys.kernel.waiters (.sem 0x10) = [0x100, 0x200] ∧
      x.sys.kernel.prio 0x200 < x.sys.kernel.prio 0x100 ∧
      PlainStep x.sys (.op (.semGive 0x10)) ∧
      ∃ s' ∈ step x.sys (.semGive 0x10), s'.kernel.waiters (.sem 0x10) = [0x200]) (by decide +kernel)
  have hr' : Run (fun x op => ListedStep x.sys op) waitStep (.start .boot) raisedTrace x :=
    hr.mono fun _ _ h => h.listed
  refine ⟨fun hall => ?_, fun hall => ?_⟩
  · have hsorted := hall _ x hr' (.sem 0x10)
    rw [hx] at hsorted
    have hahead := List.rel_of_pairwise_cons hsorted (List.mem_singleton.mpr rfl)
    exact absurd hahead.rank_le (not_le.mpr hlt)
  · have hle := hall _ x hr' 0x10 s' hop.listed hs 0x100 (by rw [hx]; simp)
      (by rw [hs']; simp) 0x200 (by rw [hx]; simp)
    exact absurd hle (not_le.mpr hlt)

end MiniRTOS
