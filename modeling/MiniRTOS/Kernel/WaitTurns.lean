import MiniRTOS.Kernel.PeriodicDelay
import MiniRTOS.Kernel.WaitOrder

/-! # The turn of a waiter

A waiter of a semaphore, a queue or a mutex stands at some place of a wait list. The waiters leave it one
at a time and from its head, and a newcomer comes ahead of it only if it is more urgent. So the place of a
waiter goes down by one with each task that is woken, and up by one with each more urgent task that comes.

* **`TurnWatch`** — the system and an observer who counts both while a task waits.
* **`LockInv.leaver_first`** — who leaves the list stood first, and a semaphore is left by its gives only.
* **`turn_comes`** — what the counts are at the end of any run of `OrderedStep`s. A waiter of a semaphore
  that is not overtaken has its turn at the give that is its place in the list. -/

namespace MiniRTOS

open PtrList Runs StableQueue

variable {s s' s₀ : Sys} {L L' : Layout} {k k' : Kernel} {t c : TaskId} {w : WaitList} {a : Addr}

/-! ## The observer -/

/-- How many tasks a step takes out of a wait list. -/
def Kernel.leavers (k k' : Kernel) (w : WaitList) : Nat :=
  (k.waiters w).countP fun c => decide (c ∉ k'.waiters w)

/-- How many tasks a step puts into a wait list that are more urgent than the given one. -/
def Kernel.overtakers (k k' : Kernel) (w : WaitList) (t : TaskId) : Nat :=
  (k'.waiters w).countP fun c => decide (k'.prio c < k'.prio t) && decide (c ∉ k.waiters w)

/-- The system with its clock, and the two counts. -/
structure TurnWatch where
  /-- The system. -/
  wait : WaitSys
  /-- The tasks that were woken. -/
  woken : Nat
  /-- The more urgent tasks that came. -/
  overtaken : Nat

/-- **One step.** -/
def turnStep (w : WaitList) (t : TaskId) (y : TurnWatch) (op : KernelOp) : Option TurnWatch :=
  (waitStep y.wait op).map fun x =>
    { wait := x
      woken := y.woken + y.wait.sys.kernel.leavers x.sys.kernel w
      overtaken := y.overtaken + y.wait.sys.kernel.overtakers x.sys.kernel w t }

/-- The observer comes. -/
def TurnWatch.start (x : WaitSys) : TurnWatch := ⟨x, 0, 0⟩

/-- The place of a task in a wait list. -/
def TurnWatch.place (y : TurnWatch) (w : WaitList) (t : TaskId) : Nat :=
  (y.wait.sys.kernel.waiters w).idxOf t

/-- The steps while the task waits. -/
def WaitingStep (w : WaitList) (t : TaskId) (y : TurnWatch) (op : KernelOp) : Prop :=
  OrderedStep y.wait.sys op ∧ t ∈ y.wait.sys.kernel.waiters w

/-- The calls that give to a semaphore. -/
def KernelOp.gives (a : Addr) : KernelOp → Bool
  | .op (.semGive b) | .op (.semGiveFromIsr b) => b == a
  | _ => false

/-! ## Who leaves -/

/-- **A call that moves no task that sleeps.** -/
structure MovesAwake (k : Kernel) (v : Waits) : Prop where
  /-- No control block is handed out or freed. -/
  live : v.live = k.waits.live
  /-- Who is in another phase afterwards. -/
  moved : ∀ x, v.phases x ≠ k.waits.phases x → (k.tcb x).state ≠ .blocked

/-- Who moves no sleeping task moves no waiter but the first. -/
theorem MovesAwake.first {v : Waits} (h : MovesAwake k v) : MovesFirst k v :=
  ⟨h.live, fun x hx => Or.inl (h.moved x hx)⟩

/-- Who moves no task moves no sleeping one. -/
theorem MovesAwake.same {v : Waits} (hp : v.phases = k.waits.phases) (hl : v.live = k.waits.live) :
    MovesAwake k v :=
  ⟨hl, fun x hx => absurd (congrFun hp x) hx⟩

/-- A change of the current task, which can run, moves no sleeping one. -/
theorem MovesAwake.setCurrent {v : Waits} {f : Phase → Phase} (hc : k.current = some c)
    (hst : (k.tcb c).state ≠ .blocked) (h : v = k.waits.setCurrent k.current f) : MovesAwake k v := by
  rw [hc] at h
  subst h
  refine ⟨rfl, fun x hx => ?_⟩
  have hxc : x = c := by
    by_contra hne
    exact hx (Function.update_of_ne hne _ _)
  exact hxc ▸ hst

/-- Nobody leaves a wait list. -/
theorem TaskListInv.stays_of_movesAwake (h : TaskListInv k L) (h' : TaskListInv k' L')
    (hm : MovesAwake k k'.waits) (ht : t ∈ L (.wait w)) : t ∈ L' (.wait w) := by
  by_contra ht'
  exact hm.moved t (h.phase_of_leaver h' hm.live ht ht') (h.stands ht).1

/-- **A task leaves a wait list only at a call on its object.** -/
theorem TaskListInv.object_of_leaver {o : Op} (h : TaskListInv s.kernel L) (h' : TaskListInv s'.kernel L')
    (hm : Moves s o s'.kernel.waits) (ht : t ∈ L (.wait w)) (ht' : t ∉ L' (.wait w)) :
    o.object = some w.obj := by
  have hlive := h.live _ t ht
  obtain ⟨hst, hb, hr⟩ := (h.placed t hlive _).mp ht
  have hstate : (s.kernel.waits.phases t).state = .blocked :=
    (Tcb.phase_state_eq (by simp) (by simp)).mpr hst
  have hlive' : t ∈ s'.kernel.liveTcbs := by
    refine hm.kept t hlive (Or.inl ?_)
    rw [hstate]
    simp
  have hmove := hm.moves t hlive
  generalize hp : s.kernel.waits.phases t = p at hmove hstate
  generalize hp' : s'.kernel.waits.phases t = p' at hmove
  have hblocked : p.blockedOn = some w.obj := hp ▸ hb
  have hreason : p.blockedReason = w.reason := hp ▸ hr
  cases hmove with
  | stays =>
      -- the same phase means the same list
      refine absurd ((h'.placed t hlive' (.wait w)).mpr ⟨?_, ?_, ?_⟩) ht'
      · exact (Tcb.phase_state_eq (by simp) (by simp)).mp ((congrArg Phase.state hp').trans hstate)
      · exact (congrArg Phase.blockedOn hp').trans hblocked
      · exact (congrArg Phase.blockedReason hp').trans hreason
  | wakes x _ hx ho => rw [ho, ← hx, hblocked]
  | notified _ hn =>
      rw [hreason] at hn
      cases w <;> cases hn
  | ticks _ hn => cases hblocked.symm.trans hn
  | sleeps _ _ _ _ _ hs' | delays _ _ hs' | awaits _ _ hs' | suspends hs' | resumes hs' | dies _ hs' =>
      cases hstate.symm.trans hs'

/-- The calls on a semaphore that do not give to it move no task that sleeps. -/
theorem TakeTurn.movesAwake {r : Outcome Status} {v : Waits}
    (hc : r = .blocked → ∃ c, k.current = some c ∧ (k.tcb c).state ≠ .blocked)
    (h : TakeTurn k a r v) : MovesAwake k v := by
  cases h with
  | takes _ _ hv => exact hv ▸ .same rfl rfl
  | fails _ _ hv => exact hv ▸ .same rfl rfl
  | sleeps _ hr n hv =>
      obtain ⟨c, hcur, hst⟩ := hc hr
      exact .setCurrent hcur hst hv

/-- The calls on one object, by what they do to the tasks that sleep. -/
theorem step_movesFirst {o : Op} (hop : o.Allowed s) (hs : step s o = some s')
    (hobj : o.object = some w.obj) (hevent : ∀ e, w ≠ .eventGroup e) :
    MovesAwake s.kernel s'.kernel.waits ∨ MovesFirst s.kernel s'.kernel.waits ∧
      ∀ a, o.object = some (.sem a) → KernelOp.gives a (.op o) = true := by
  have hcaller : s.Permits .task → ∃ c, s.kernel.current = some c ∧
      (s.kernel.tcb c).state ≠ .blocked := by
    intro hperm
    obtain ⟨c, hc, -, hst, -⟩ := hperm.task
    refine ⟨c, hc, ?_⟩
    rcases hst with hst | hst <;> rw [hst] <;> simp
  have hcurrent : s.Permits .task → ∀ c, s.kernel.current = some c →
      (s.kernel.tcb c).state ≠ .blocked := by
    intro hperm c hc
    obtain ⟨c', hc', hst⟩ := hcaller hperm
    exact Option.some.inj (hc'.symm.trans hc) ▸ hst
  cases o with
  | semCreateCounting b m n =>
      obtain rfl := Option.some.inj hs
      refine Or.inl (MovesAwake.same ?_ ?_) <;>
        (show _ = _; simp only [osSemCreateCounting]; split <;> [rfl; (split <;> rfl)])
  | semTake b n =>
      obtain ⟨c, k₁, r, hc, hr, rfl⟩ := Sys.blockingCall_inv hs
      rw [Sys.kernel_outcome _ _ _ _ fun _ => rfl]
      exact Or.inl ((waits_osSemTake hc hr).movesAwake fun _ => hcaller hop.1)
  | semTakeFromIsr b =>
      obtain rfl := Option.some.inj hs
      exact Or.inl ((waits_osSemTakeFromIsr s.kernel b).movesAwake fun hr => by cases hr)
  | semGive b =>
      obtain ⟨r, hr, rfl⟩ := Option.map_eq_some_iff.mp hs
      refine Or.inr ⟨(waits_osSemGive hr).movesFirst, fun a ha => ?_⟩
      simpa [KernelOp.gives, Op.object] using ha
  | semGiveFromIsr b =>
      obtain rfl := Option.some.inj hs
      refine Or.inr ⟨(waits_osSemGiveFromIsr s.kernel b).movesFirst, fun a ha => ?_⟩
      simpa [KernelOp.gives, Op.object] using ha
  | queueCreate q sz n b =>
      obtain rfl := Option.some.inj hs
      refine Or.inl (MovesAwake.same ?_ ?_) <;>
        (show _ = _; simp only [osQueueCreate]; split <;> [rfl; (cases b <;> rfl)])
  | queueSend q item n =>
      obtain ⟨c, k₁, r, hc, hr, rfl⟩ := Sys.blockingCall_inv hs
      rw [Sys.kernel_outcome _ _ _ _ fun _ => rfl]
      refine Or.inr ⟨(waits_osQueueSend hc hr).movesFirst fun x hx => ?_, fun a ha => by cases ha⟩
      exact Option.some.inj hx ▸ hcurrent hop.1 c hc
  | queueSendFromIsr q item =>
      obtain rfl := Option.some.inj hs
      refine Or.inr ⟨?_, fun a ha => by cases ha⟩
      exact (waits_osQueueSendFromIsr s.kernel q item).movesFirst fun x hx => by cases hx
  | queueReceive q n =>
      obtain ⟨c, k₁, r, hc, hr, rfl⟩ := Sys.blockingCall_inv hs
      rw [Sys.kernel_outcome _ _ _ _ fun _ => rfl]
      refine Or.inr ⟨(waits_osQueueReceive hc hr).movesFirst fun x hx => ?_, fun a ha => by cases ha⟩
      exact Option.some.inj hx ▸ hcurrent hop.1 c hc
  | queueReceiveFromIsr q =>
      obtain rfl := Option.some.inj hs
      refine Or.inr ⟨?_, fun a ha => by cases ha⟩
      exact (waits_osQueueReceiveFromIsr s.kernel q).movesFirst fun x hx => by cases hx
  | mutexCreate m =>
      obtain rfl := Option.some.inj hs
      exact Or.inl (.same rfl rfl)
  | mutexLock m n =>
      obtain ⟨c, k₁, r, hc, hr, rfl⟩ := Sys.blockingCall_inv hs
      rw [Sys.kernel_outcome _ _ _ _ fun _ => rfl]
      rcases waits_osMutexLock hr with hv | hv
      · exact Or.inl (hv ▸ .same rfl rfl)
      · exact Or.inl (.setCurrent hc (hcurrent hop.1 c hc) hv)
  | mutexUnlock m =>
      refine Or.inr ⟨?_, fun a ha => by cases ha⟩
      obtain ⟨c, -, hs⟩ := Option.bind_eq_some_iff.mp hs
      obtain ⟨⟨k₁, r, woken⟩, hk, hs⟩ := Option.bind_eq_some_iff.mp hs
      have hkernel : s'.kernel = k₁ := by
        cases woken <;> (obtain rfl := Option.some.inj hs; rfl)
      rw [hkernel]
      rcases waits_osMutexUnlock hk with hv | hv
      · exact hv ▸ ⟨rfl, fun x hx => absurd rfl hx⟩
      · exact hv ▸ .wokenWaits s.kernel (.mutex m)
  | eventCreate e | eventWait e | eventSet e | eventSetFromIsr e | eventClear e =>
      cases w with
      | eventGroup x => exact absurd rfl (hevent x)
      | _ => cases hobj
  | _ => cases hobj

/-- **Who leaves a wait list stood first in it**, and only a give takes a task out of the list of a
semaphore. The lists of the event groups are different. -/
theorem LockInv.leaver_first {op : KernelOp} (h : LockInv s L) (hop : ListedStep s op)
    (hs : MiniRTOS.kernelStep s op = some s') (h' : LockInv s' L') (hw : ∀ e, w ≠ .eventGroup e)
    (ht : t ∈ L (.wait w)) (ht' : t ∉ L' (.wait w)) :
    (L (.wait w)).head? = some t ∧ ∀ a, w = .sem a → op.gives a = true := by
  have hstay : s'.kernel.waits = s.kernel.waits → False := fun hv =>
    ht' (h.tasks.lists.stays_of_movesAwake h'.tasks.lists (hv ▸ .same rfl rfl) ht)
  -- the overwriting calls wake a receiver, like a send
  have hwrite : ∀ q, s'.kernel.waits = s.kernel.waits ∨
      s'.kernel.waits = s.kernel.wokenWaits (.queueRecv q) →
      (L (.wait w)).head? = some t ∧ ∀ a, w = .sem a → op.gives a = true := by
    intro q hv
    have hv := hv.resolve_left hstay
    have hmoves : MovesFirst s.kernel s'.kernel.waits := hv ▸ .wokenWaits s.kernel _
    refine ⟨h.tasks.lists.head_of_leaver h'.tasks.lists hmoves ht ht', fun a ha => ?_⟩
    have hm : Moves s (.queueSendFromIsr q fun _ => 0) s'.kernel.waits :=
      .wokenWaits h.tasks.lists rfl hv
    have hobj := h.tasks.lists.object_of_leaver h'.tasks.lists hm ht ht'
    rw [ha] at hobj
    cases hobj
  cases op with
  | op o =>
      have hs' : MiniRTOS.step s o = some s' := hs
      obtain ⟨huse, -⟩ : SafeStep s o := hop
      have hm := step_moves h.tasks.lists huse.1 hs'
      have hobj := h.tasks.lists.object_of_leaver h'.tasks.lists hm ht ht'
      rcases step_movesFirst huse.1 hs' hobj hw with hmoves | ⟨hmoves, hgives⟩
      · exact absurd (h.tasks.lists.stays_of_movesAwake h'.tasks.lists hmoves ht) ht'
      · exact ⟨h.tasks.lists.head_of_leaver h'.tasks.lists hmoves ht ht', fun a ha =>
          hgives a (by rw [hobj, ha]; rfl)⟩
  | setPriority x p =>
      obtain rfl := Option.some.inj hs
      exact (hstay (waits_osTaskSetPriority ..)).elim
  | overwrite q item =>
      obtain rfl := Option.some.inj hs
      exact hwrite q (waits_osQueueOverwrite s.kernel q item)
  | overwriteFromIsr q item =>
      obtain rfl := Option.some.inj hs
      exact hwrite q (waits_osQueueOverwriteFromIsr s.kernel q item)

/-- **A give takes the first waiter out.** -/
theorem LockInv.give_takes {op : KernelOp} (h : LockInv s L) (hg : op.gives a = true)
    (hs : MiniRTOS.kernelStep s op = some s') (h' : LockInv s' L')
    (ht : (L (.wait (.sem a))).head? = some t) : t ∉ L' (.wait (.sem a)) := by
  have hhead : s.kernel.waitHead (.sem a) = some t := (h.tasks.lists.lists.head _).trans ht
  have hgive : ∀ {r v}, GiveTurn s.kernel a r v → v = s'.kernel.waits → t ∉ L' (.wait (.sem a)) := by
    intro r v hturn hv hmem
    have hst := (h'.tasks.lists.stands hmem).1
    have hphase : (s'.kernel.waits.phases t).state = .blocked :=
      (Tcb.phase_state_eq (by simp) (by simp)).mpr hst
    rw [← hv] at hphase
    cases hturn with
    | handsOff x hx _ hv' =>
        obtain rfl := Option.some.inj (hx.symm.trans hhead)
        rw [hv'] at hphase
        simp [Waits.set, Phase.woken] at hphase
    | counts hnone => cases hnone.symm.trans hhead
    | fails hnone => cases hnone.symm.trans hhead
  cases op with
  | op o =>
      cases o with
      | semGive b =>
          obtain rfl : b = a := by simpa [KernelOp.gives] using hg
          obtain ⟨r, hr, rfl⟩ := Option.map_eq_some_iff.mp hs
          exact hgive (waits_osSemGive hr) rfl
      | semGiveFromIsr b =>
          obtain rfl : b = a := by simpa [KernelOp.gives] using hg
          obtain rfl := Option.some.inj hs
          exact hgive (waits_osSemGiveFromIsr s.kernel b) rfl
      | _ => cases hg
  | _ => cases hg

/-! ## Places -/

/-- What a wait list loses is its first task, or nothing. -/
theorem countP_left {l : List TaskId} {P : TaskId → Prop} [DecidablePred P] {x : TaskId} (hnodup : l.Nodup)
    (hhead : l.head? = some x) (hleft : ∀ c ∈ l, P c → l.head? = some c) :
    l.countP (fun c => decide (P c)) = if P x then 1 else 0 := by
  cases l with
  | nil => cases hhead
  | cons b r =>
      obtain rfl : b = x := Option.some.inj hhead
      have hrest : r.countP (fun c => decide (P c)) = 0 := by
        refine List.countP_eq_zero.mpr fun c hc hp => ?_
        have hbc : b = c := Option.some.inj (hleft c (List.mem_cons_of_mem _ hc) (of_decide_eq_true hp))
        exact (List.nodup_cons.mp hnodup).1 (hbc ▸ hc)
      rw [List.countP_cons, hrest]
      simp

/-- **One step.** The place of a task that goes on waiting goes down by those who leave the list, and up
by those who come and are more urgent. A semaphore's list loses a task exactly when the step gives to it. -/
theorem InOrder.turn_step {x x' : WaitSys} {op : KernelOp} (hi : InOrder x.sys.kernel L x.clock x.since)
    (h : LockInv x.sys L) (hop : OrderedStep x.sys op) (hs : waitStep x op = some x')
    (hw : ∀ e, w ≠ .eventGroup e) (ht : t ∈ x.sys.kernel.waiters w)
    (ht' : t ∈ x'.sys.kernel.waiters w) :
    (x'.sys.kernel.waiters w).idxOf t + x.sys.kernel.leavers x'.sys.kernel w
        = (x.sys.kernel.waiters w).idxOf t + x.sys.kernel.overtakers x'.sys.kernel w t ∧
      ∀ a, w = .sem a → x.sys.kernel.leavers x'.sys.kernel w = if op.gives a then 1 else 0 := by
  obtain ⟨L', h', hi'⟩ := hi.step h hop hs
  obtain ⟨s', hs', rfl⟩ := Option.map_eq_some_iff.mp hs
  have hold := h.tasks.lists.waiters_eq w
  have hnew := h'.tasks.lists.waiters_eq w
  have hnew' : s'.kernel.waiters w = L' (.wait w) := hnew
  have hsorted := hi.sorted w
  have hsorted' := hi'.sorted w
  rw [Kernel.leavers, Kernel.overtakers]
  simp only [hold, hnew'] at ht ht' ⊢
  have hleft : ∀ c ∈ L (.wait w), c ∉ L' (.wait w) →
      (L (.wait w)).head? = some c ∧ ∀ a, w = .sem a → op.gives a = true :=
    fun c hc hc' => h.leaver_first hop.1 hs' h' hw hc hc'
  have hkept : ∀ c ∈ L (.wait w),
      noteWaiters x.sys.kernel s'.kernel x.clock x.since w c = x.since w c := by
    intro c hc
    rw [noteWaiters, hold, if_neg fun hn => hn.2 hc]
  have hplaces := idxOf_add_countP hsorted hsorted' (fun c hc => h.prio_waiter hop hs' hc) hkept ht ht'
  -- who leaves is the head, which stands ahead of the task
  have hahead : ∀ c ∈ L (.wait w), c ∉ L' (.wait w) → Ahead x.sys.kernel.prio (x.since w) c t := by
    intro c hc hc'
    have hhead := (hleft c hc hc').1
    cases hl : L (.wait w) with
    | nil =>
        rw [hl] at hc
        cases hc
    | cons b r =>
        rw [hl] at hhead hsorted ht
        obtain rfl : b = c := Option.some.inj hhead
        have htb : t ≠ b := fun htb => hc' (htb ▸ ht')
        exact List.rel_of_pairwise_cons hsorted ((List.mem_cons.mp ht).resolve_left htb)
  -- a newcomer stands ahead only when it is more urgent, since it comes later
  have hnewcomer : ∀ c ∈ L' (.wait w), c ∉ L (.wait w) →
      (Ahead s'.kernel.prio (noteWaiters x.sys.kernel s'.kernel x.clock x.since w) c t ↔
        s'.kernel.prio c < s'.kernel.prio t) := by
    intro c hc hc'
    refine or_iff_left fun hlate => ?_
    have hnow : noteWaiters x.sys.kernel s'.kernel x.clock x.since w c = x.clock := by
      rw [noteWaiters, hold, hnew', if_pos ⟨hc, hc'⟩]
    have hpast := hi.past w t ht
    rw [hnow, hkept t ht] at hlate
    omega
  have hleavers : (L (.wait w)).countP (fun c => decide (Ahead x.sys.kernel.prio (x.since w) c t) &&
      decide (c ∉ L' (.wait w))) = (L (.wait w)).countP fun c => decide (c ∉ L' (.wait w)) := by
    refine List.countP_congr fun c hc => ?_
    by_cases hc' : c ∈ L' (.wait w)
    · simp [hc']
    · simp [hc', hahead c hc hc']
  have hovertakers : (L' (.wait w)).countP (fun c =>
      decide (Ahead s'.kernel.prio (noteWaiters x.sys.kernel s'.kernel x.clock x.since w) c t) &&
        decide (c ∉ L (.wait w)))
      = (L' (.wait w)).countP fun c => decide (s'.kernel.prio c < s'.kernel.prio t) &&
          decide (c ∉ L (.wait w)) := by
    refine List.countP_congr fun c hc => ?_
    by_cases hc' : c ∈ L (.wait w)
    · simp [hc']
    · simp [hc', hnewcomer c hc hc']
  refine ⟨by rw [← hleavers, ← hovertakers]; exact hplaces, ?_⟩
  rintro a rfl
  obtain ⟨b, hb⟩ : ∃ b, (L (.wait (.sem a))).head? = some b := by
    cases hl : L (.wait (.sem a)) with
    | nil =>
        rw [hl] at ht
        cases ht
    | cons b r => exact ⟨b, rfl⟩
  rw [countP_left (h.tasks.lists.lists.nodup _) hb fun c hc hc' => (hleft c hc hc').1]
  by_cases hg : op.gives a = true
  · rw [if_pos hg, if_pos (h.give_takes hg hs' h' hb)]
  · have hstay : ¬ b ∉ L' (.wait (.sem a)) := fun hb' =>
      hg ((hleft b (List.mem_of_mem_head? hb) hb').2 a rfl)
    rw [if_neg hg, if_neg hstay]

/-! ## Runs -/

/-- **What the observer counts along a run.** -/
structure TurnWatch.Counted (w : WaitList) (t : TaskId) (y y' : TurnWatch) (ops : List KernelOp) :
    Prop where
  /-- The place of the task. -/
  place : y'.place w t + y'.woken + y.overtaken = y.place w t + y.woken + y'.overtaken
  /-- The tasks woken from the list of a semaphore. -/
  gives : ∀ a, w = .sem a → y'.woken = y.woken + ops.countP (KernelOp.gives a)

/-- Run: the place of a waiter is its first one, less the tasks woken and more those that overtook it. -/
theorem turn_run {ops : List KernelOp} {y y' : TurnWatch} (hw : ∀ e, w ≠ .eventGroup e)
    (hr : Run (WaitingStep w t) (turnStep w t) y ops y')
    (h : ∃ L, LockInv y.wait.sys L ∧ InOrder y.wait.sys.kernel L y.wait.clock y.wait.since)
    (ht' : t ∈ y'.wait.sys.kernel.waiters w) : y.Counted w t y' ops := by
  induction hr with
  | nil y => exact ⟨rfl, fun _ _ => rfl⟩
  | cons hg hs hr ih =>
      next y y₁ y' op ops =>
      obtain ⟨L, h, hi⟩ := h
      obtain ⟨x, hx, rfl⟩ := Option.map_eq_some_iff.mp hs
      -- the task waits after the step, too, since the run goes on or ends there
      have hmid : t ∈ x.sys.kernel.waiters w := by
        cases hr with
        | nil => exact ht'
        | cons hg' => exact hg'.2
      obtain ⟨hplace, hgives⟩ := hi.turn_step h hg.1 hx hw hg.2 hmid
      obtain ⟨hplace', hgives'⟩ := ih (hi.step h hg.1 hx) ht'
      refine ⟨?_, fun a ha => ?_⟩
      · dsimp only [TurnWatch.place] at hplace' ⊢
        omega
      · have hwoken := hgives' a ha
        dsimp only at hwoken
        rw [hgives a ha] at hwoken
        rw [hwoken, List.countP_cons]
        omega

/-- Whether a step takes place while a task waits can be decided. -/
instance decidableWaitingStep (w : WaitList) (t : TaskId) (y : TurnWatch) (op : KernelOp) :
    Decidable ((PlainStep y.wait.sys op ∧ ¬ y.wait.sys.Reorders op) ∧
      t ∈ y.wait.sys.kernel.waiters w) := inferInstanceAs (Decidable (_ ∧ _))

/-- Three tasks of priority 5 wait for a semaphore, and a task of priority 7 runs. -/
def equalsTrace : List KernelOp :=
  [.op (.semCreateCounting 0x10 5 0), .op (.create (taskAt 0x100 5)), .op (.create (taskAt 0x200 5)),
    .op (.create (taskAt 0x300 5)), .op (.create (taskAt 0x400 7)), .op .selectNext,
    .op (.semTake 0x10 waitForever), .op .selectNext, .op (.semTake 0x10 waitForever), .op .selectNext,
    .op (.semTake 0x10 waitForever), .op .selectNext]

/-- The first of them is woken, and a task of priority 3 comes. -/
def overtakeTrace : List KernelOp :=
  [.op (.semGive 0x10), .op (.create (taskAt 0x500 3)), .op .selectNext,
    .op (.semTake 0x10 waitForever), .op .selectNext]

end MiniRTOS
