import MiniRTOS.Kernel.SystemInv
import MiniRTOS.Kernel.Waits

/-! # How a task moves

The state machine of one task. `Move s op t p p'` lists every way in which the step `op` can take the
task `t` from phase `p` to phase `p'`: it sleeps on an object or in `blocked_list`, it is woken by a
call on its object or by a notification, a tick counts its delay down, it is suspended, resumed or
deleted; or nothing happens to it.

* **`step_moves`** — every step makes only such moves, changes the levels of its own object only, and
  keeps every control block that is not deleted. What an invariant about waits needs of the steps it
  is not about is read off here. -/

namespace MiniRTOS

open Runs

variable {s s' : Sys} {L : Layout} {op : Op} {t : TaskId} {p : Phase} {v : Waits}

/-- The object whose levels or wait lists a call works on. -/
def Op.object : Op → Option Obj
  | .semCreateCounting a .. | .semTake a _ | .semTakeFromIsr a | .semGive a | .semGiveFromIsr a =>
      some (.sem a)
  | .queueCreate q .. | .queueSend q .. | .queueSendFromIsr q _ | .queueReceive q _
  | .queueReceiveFromIsr q => some (.queue q)
  | .mutexCreate m | .mutexLock m _ | .mutexUnlock m => some (.mutex m)
  | .eventCreate e | .eventWait e .. | .eventSet e _ | .eventSetFromIsr e _ | .eventClear e _ =>
      some (.eventGroup e)
  | _ => none

/-- The calls that put their caller into `blocked_list` for a number of ticks. -/
def Op.delays : Op → Bool
  | .delay _ | .delayUntil .. => true
  | _ => false

/-- The task a call notifies. -/
def Op.notifies : Op → Option TaskId
  | .notify t _ | .notifyFromIsr t _ => some t
  | _ => none

/-- **The moves of one task.** -/
inductive Move (s : Sys) (op : Op) (t : TaskId) (p : Phase) : Phase → Prop
  /-- Nothing happens to the task. -/
  | stays : Move s op t p p
  /-- It goes to sleep on an object. -/
  | sleeps (w : WaitList) (n : Nat) (b o : BitVec 32) (hc : s.kernel.current = some t)
      (hp : p.state = .ready) (ho : op.object = some w.obj) :
      Move s op t p (({ p with eventWaitBits := b, eventWaitOptions := o } : Phase).waiting w n)
  /-- It is woken by a call on its object. -/
  | wakes (o : Obj) (hp : p.state = .blocked) (hb : p.blockedOn = some o) (ho : op.object = some o) :
      Move s op t p p.woken
  /-- It delays itself. -/
  | delays (n : Nat) (hc : s.kernel.current = some t) (hp : p.state = .ready)
      (hop : op.delays = true) : Move s op t p (p.delayed n)
  /-- It waits for a notification. -/
  | awaits (n : Nat) (hc : s.kernel.current = some t) (hp : p.state = .ready)
      (hop : ∃ m, op = .notifyWait m) : Move s op t p (p.notifyWaiting n)
  /-- It is notified. -/
  | notified (hp : p.state = .blocked) (hr : p.blockedReason = .onNotify)
      (hop : op.notifies = some t) : Move s op t p p.notified
  /-- A tick counts its delay down. -/
  | ticks (hp : p.state = .blocked) (hb : p.blockedOn = none) (hop : op = .tick) :
      Move s op t p p.ticked
  /-- It is suspended. -/
  | suspends (hp : p.state = .ready) (hop : op = .suspend t) :
      Move s op t p { p with state := .suspended }
  /-- It is resumed. -/
  | resumes (hp : p.state = .suspended) (hop : op = .resume t) :
      Move s op t p { p with state := .ready }
  /-- It deletes itself. -/
  | dies (hc : s.kernel.current = some t) (hp : p.state = .ready) (hop : op = .deleteSelf) :
      Move s op t p { p with state := .deleted }

/-- **What one step does to the waits.** -/
structure Moves (s : Sys) (op : Op) (v : Waits) : Prop where
  /-- Every live task makes a move. -/
  moves : ∀ t ∈ s.kernel.liveTcbs, Move s op t (s.kernel.waits.phases t) (v.phases t)
  /-- Only deleted tasks are freed, and only by a tick. -/
  kept : ∀ t ∈ s.kernel.liveTcbs, (s.kernel.waits.phases t).state ≠ .deleted ∨ op ≠ .tick → t ∈ v.live
  /-- New tasks wait for nothing. -/
  born : ∀ t ∈ v.live, t ∈ s.kernel.liveTcbs ∨
    op.unowned = some t ∧ (v.phases t).blockedOn = none ∧ (v.phases t).state ≠ .deleted
  /-- Tokens of other semaphores. -/
  tokens : ∀ a, op.object ≠ some (.sem a) → v.tokens a = s.kernel.waits.tokens a
  /-- Bits of other event groups. -/
  bits : ∀ e, op.object ≠ some (.eventGroup e) → v.bits e = s.kernel.waits.bits e

namespace Moves

/-- A step that changes nothing. -/
theorem same (h : v = s.kernel.waits) : Moves s op v := by
  subst h
  exact ⟨fun _ _ => .stays, fun _ ht _ => ht, fun _ ht => Or.inl ht, fun _ _ => rfl, fun _ _ => rfl⟩

/-- A step that moves one task. -/
theorem set (h : v = s.kernel.waits.set t p)
    (ht : t ∈ s.kernel.liveTcbs → Move s op t (s.kernel.waits.phases t) p) : Moves s op v := by
  subst h
  refine ⟨fun x hx => ?_, fun _ hx _ => hx, fun _ hx => Or.inl hx, fun _ _ => rfl, fun _ _ => rfl⟩
  show Move s op x _ (Function.update s.kernel.waits.phases t p x)
  by_cases hxt : x = t
  · subst hxt
    rw [Function.update_self]
    exact ht hx
  · rw [Function.update_of_ne hxt]
    exact .stays

/-- A step that moves the current task. -/
theorem setCurrent {f : Phase → Phase} {c : TaskId} (hc : s.kernel.current = some c)
    (h : v = s.kernel.waits.setCurrent s.kernel.current f)
    (ht : Move s op c (s.kernel.waits.phases c) (f (s.kernel.waits.phases c))) : Moves s op v := by
  rw [hc] at h
  exact set h fun _ => ht

/-- A step that wakes the first waiter of a list. -/
theorem wokenWaits {w : WaitList} (hinv : TaskListInv s.kernel L) (hop : op.object = some w.obj)
    (h : v = s.kernel.wokenWaits w) : Moves s op v := by
  have hhead := hinv.lists.head (.wait w)
  simp only [Kernel.listHead] at hhead
  unfold Kernel.wokenWaits at h
  cases hw : s.kernel.waitHead w with
  | none =>
      rw [hw] at h
      exact same h
  | some t =>
      rw [hw] at h hhead
      have hmem : t ∈ L (.wait w) := List.mem_of_mem_head? hhead.symm
      obtain ⟨hst, hbo, -⟩ := (hinv.placed t (hinv.live _ t hmem) _).mp hmem
      refine set h fun _ => .wakes w.obj ?_ hbo hop
      exact (Tcb.phase_state_eq (by simp) (by simp)).mpr hst

/-- A call on a queue. -/
theorem queueTurn {q : Addr} {caller : Option TaskId} (hinv : TaskListInv s.kernel L)
    (hc : ∀ c, caller = some c → s.kernel.current = some c ∧ (s.kernel.waits.phases c).state = .ready)
    (hop : op.object = some (.queue q)) (h : QueueTurn s.kernel q caller v) : Moves s op v := by
  cases h with
  | same h => exact same h
  | wakes w hw h => exact wokenWaits hinv (hw ▸ hop) h
  | sleeps w hw n c hcaller h =>
      obtain ⟨hcur, hready⟩ := hc c hcaller
      exact set h fun _ => .sleeps w n _ _ hcur hready (hw ▸ hop)

/-- A step that writes the tokens of its semaphore. -/
theorem setTokens {a : Addr} {n : Nat × Nat} (hop : op.object = some (.sem a))
    (h : v = s.kernel.waits.setTokens a n) : Moves s op v := by
  subst h
  refine ⟨fun _ _ => .stays, fun _ ht _ => ht, fun _ ht => Or.inl ht, fun x hx => ?_, fun _ _ => rfl⟩
  have hne : x ≠ a := fun hxa => hx (hxa ▸ hop)
  exact Function.update_of_ne hne _ _

/-- A step that writes the bits of its event group. -/
theorem setBits {e : Addr} {b : BitVec 32} (hop : op.object = some (.eventGroup e))
    (h : v = s.kernel.waits.setBits e b) : Moves s op v := by
  subst h
  refine ⟨fun _ _ => .stays, fun _ ht _ => ht, fun _ ht => Or.inl ht, fun _ _ => rfl, fun x hx => ?_⟩
  have hne : x ≠ e := fun hxe => hx (hxe ▸ hop)
  exact Function.update_of_ne hne _ _

/-- A step that creates a task. -/
theorem add (hfresh : t ∉ s.kernel.liveTcbs) (hop : op.unowned = some t) (hb : p.blockedOn = none)
    (hst : p.state ≠ .deleted) (h : v = s.kernel.waits.add t p) : Moves s op v := by
  subst h
  refine ⟨fun x hx => ?_, fun x hx _ => List.mem_append_left _ hx, fun x hx => ?_, fun _ _ => rfl,
    fun _ _ => rfl⟩
  · have hxt : x ≠ t := fun hxt => hfresh (hxt ▸ hx)
    show Move s op x _ (Function.update s.kernel.waits.phases t p x)
    rw [Function.update_of_ne hxt]
    exact .stays
  · rcases List.mem_append.mp hx with hx | hx
    · exact Or.inl hx
    · obtain rfl := List.mem_singleton.mp hx
      refine Or.inr ⟨hop, ?_⟩
      show (Function.update s.kernel.waits.phases x p x).blockedOn = none ∧
        (Function.update s.kernel.waits.phases x p x).state ≠ .deleted
      rw [Function.update_self]
      exact ⟨hb, hst⟩

/-- A taking call. -/
theorem takeTurn {a : Addr} {r : Outcome Status}
    (hc : r = .blocked →
      ∃ c, s.kernel.current = some c ∧ (s.kernel.waits.phases c).state = .ready)
    (hop : op.object = some (.sem a)) (h : TakeTurn s.kernel a r v) : Moves s op v := by
  cases h with
  | takes _ _ h => exact setTokens hop h
  | fails _ _ h => exact same h
  | sleeps _ hr n h =>
      obtain ⟨c, hcur, hready⟩ := hc hr
      exact setCurrent hcur h (.sleeps (.sem a) n _ _ hcur hready hop)

/-- A giving call. -/
theorem giveTurn {a : Addr} {r : Status} (hinv : TaskListInv s.kernel L)
    (hop : op.object = some (.sem a)) (h : GiveTurn s.kernel a r v) : Moves s op v := by
  cases h with
  | handsOff t ht _ h =>
      refine wokenWaits (w := .sem a) hinv hop ?_
      rw [h, Kernel.wokenWaits, ht]
  | counts _ _ _ h => exact setTokens hop h
  | fails _ _ h => exact same h

/-- A setting call: the satisfied waiters of the group wake up. -/
theorem wakePass {e : Addr} {b : BitVec 32} (hinv : TaskListInv s.kernel L)
    (hop : op.object = some (.eventGroup e))
    (h : v = (s.kernel.waits.setBits e b).wakePass e (L (.wait (.eventGroup e)))) : Moves s op v := by
  have hpass := Waits.wakePass_passed e (s.kernel.waits.setBits e b)
    (hinv.lists.nodup (.wait (.eventGroup e)))
  rw [← h] at hpass
  have hlive : v.live = s.kernel.liveTcbs := hpass.live
  refine ⟨fun t ht => ?_, fun t ht _ => hlive ▸ ht, fun t ht => Or.inl (hlive ▸ ht), fun a _ => ?_,
    fun x hx => ?_⟩
  · by_cases hmem : t ∈ L (.wait (.eventGroup e))
    · obtain ⟨hst, hbo, -⟩ := (hinv.placed t ht _).mp hmem
      rcases hpass.waiters t hmem with hw | ⟨hw, -⟩
      · rw [hw]
        exact .wakes (.eventGroup e) ((Tcb.phase_state_eq (by simp) (by simp)).mpr hst) hbo hop
      · rw [hw]
        exact .stays
    · rw [hpass.apart t hmem]
      exact .stays
  · rw [hpass.tokens]
    rfl
  · have hne : x ≠ e := fun hxe => hx (hxe ▸ hop)
    rw [hpass.others x hne]
    exact Function.update_of_ne hne _ _

/-- The tick. -/
theorem tick (hinv : TaskListInv s.kernel L)
    (h : v = { s.kernel.waits with
      phases := fun x => if x ∈ L .blocked then (s.kernel.waits.phases x).ticked
        else s.kernel.waits.phases x
      live := s.kernel.liveTcbs.diff (L .deferred) }) : Moves s .tick v := by
  subst h
  have hmem : ∀ x, x ∈ s.kernel.liveTcbs.diff (L .deferred) ↔
      x ∈ s.kernel.liveTcbs ∧ x ∉ L .deferred := fun x => List.Nodup.mem_sdiff_iff hinv.liveNodup
  refine ⟨fun t ht => ?_, fun t ht hd => ?_, fun t ht => Or.inl ((hmem t).mp ht).1, fun _ _ => rfl,
    fun _ _ => rfl⟩
  · show Move s .tick t _ (if t ∈ L .blocked then _ else _)
    split
    · next hb =>
        obtain ⟨hst, hbo⟩ := (hinv.placed t ht .blocked).mp hb
        exact .ticks ((Tcb.phase_state_eq (by simp) (by simp)).mpr hst) hbo rfl
    · exact .stays
  · refine (hmem t).mpr ⟨ht, fun hdef => (hd.resolve_right fun hne => hne rfl) ?_⟩
    exact (Tcb.phase_state_eq (by simp) (by simp)).mpr ((hinv.placed t ht .deferred).mp hdef)

end Moves

/-! ## Steps -/

/-- The task that makes a new call is current and READY. -/
theorem Sys.Permits.ready (h : s.Permits .task) :
    ∃ c, s.kernel.current = some c ∧ c ∈ s.kernel.liveTcbs ∧
      (s.kernel.waits.phases c).state = .ready := by
  obtain ⟨c, hc, hl, hs, -⟩ := h.task
  exact ⟨c, hc, hl, Tcb.phase_state_ready.mpr hs⟩

/-- The kernel after the return of a call keeps the waits. -/
theorem Sys.waits_returnFrom {c : TaskId} {call : Call} (h : s.returnFrom c call = some s') :
    s'.kernel.waits = s.kernel.waits := by
  cases call with
  | idle => cases h
  | notifyWait =>
      obtain rfl := Option.some.inj h
      exact waits_osTaskNotifyWaitResume s.kernel c
  | _ =>
      obtain rfl := Option.some.inj h
      rfl

/-- **Every step makes only moves of the task state machine.** -/
theorem step_moves (hinv : TaskListInv s.kernel L) (hop : op.Allowed s)
    (hs : step s op = some s') : Moves s op s'.kernel.waits := by
  obtain ⟨hperm, -, hunowned, -⟩ := hop
  cases op with
  | create a =>
      obtain rfl := Option.some.inj hs
      rw [Sys.kernel_created]
      rcases waits_osTaskCreate s.kernel a with ⟨-, h⟩ | ⟨t, ht, h, -⟩
      · exact .same h
      · exact .add (hunowned t ht) ht rfl (by simp [Phase.new]) h
  | createSuspended a =>
      obtain rfl := Option.some.inj hs
      rw [Sys.kernel_created]
      rcases waits_osTaskCreateSuspended s.kernel a with h | ⟨t, st, ht, hst, h⟩
      · exact .same h
      · refine .add (hunowned t ht) ht rfl ?_ h
        rcases hst with rfl | rfl <;> simp
  -- nothing happens to a task that is neither READY nor RUNNING
  | suspend t =>
      obtain rfl := Option.some.inj hs
      have h := waits_osTaskSuspend s.kernel t
      split at h
      · next hr => exact .set h fun _ => .suspends hr rfl
      · exact .same h
  | resume t =>
      obtain rfl := Option.some.inj hs
      have h := waits_osTaskResume s.kernel t
      split at h
      · next hr => exact .set h fun _ => .resumes hr rfl
      · exact .same h
  | delay n =>
      obtain ⟨c, hc, -, hr⟩ := Sys.Permits.ready hperm
      obtain ⟨k, hk, rfl⟩ := Option.map_eq_some_iff.mp hs
      have h := waits_osTaskDelay hk
      split at h
      · exact .same h
      · exact .setCurrent hc h (.delays n hc hr rfl)
  | delayUntil a b =>
      obtain ⟨c, hc, -, hr⟩ := Sys.Permits.ready hperm
      obtain ⟨r, hk, rfl⟩ := Option.map_eq_some_iff.mp hs
      rcases waits_osTaskDelayUntil hk with h | ⟨n, h⟩
      · exact .same h
      · exact .setCurrent hc h (.delays n hc hr rfl)
  | deleteSelf =>
      obtain ⟨c, hc, -, hr⟩ := Sys.Permits.ready hperm
      obtain ⟨k, hk, rfl⟩ := Option.map_eq_some_iff.mp hs
      exact .setCurrent hc (waits_osTaskDeleteSelf hk) (.dies hc hr rfl)
  | notify t x =>
      obtain ⟨r, hk, rfl⟩ := Option.map_eq_some_iff.mp hs
      have h := (waits_osTaskNotify hk).trans (waits_notifyTask _ t x)
      split at h
      · next hb => exact .set h fun _ => .notified hb.1 hb.2 rfl
      · exact .same h
  | notifyFromIsr t x =>
      obtain rfl := Option.some.inj hs
      have h := (waits_osTaskNotifyFromIsr s.kernel t x).trans (waits_notifyTask _ t x)
      split at h
      · next hb => exact .set h fun _ => .notified hb.1 hb.2 rfl
      · exact .same h
  -- a pending notification is taken at once, otherwise the caller goes to sleep
  | notifyWait n =>
      obtain ⟨c, hc, -, hr⟩ := Sys.Permits.ready hperm
      obtain ⟨c', k, r, -, hk, rfl⟩ := Sys.blockingCall_inv hs
      rw [Sys.kernel_outcome _ _ _ _ fun _ => rfl]
      rcases waits_osTaskNotifyWait hk with ⟨-, h⟩ | ⟨-, h⟩
      · exact .same h
      · exact .setCurrent hc h (.awaits _ hc hr ⟨n, rfl⟩)
  | semCreateCounting a m n =>
      obtain rfl := Option.some.inj hs
      show Moves s _ (osSemCreateCounting s.kernel a m n).2.waits
      unfold osSemCreateCounting
      split
      · exact .same rfl
      · split
        · exact .same rfl
        · exact .setTokens rfl (waits_setSem ..)
  | semTake a n =>
      obtain ⟨c, hc, -, hr⟩ := Sys.Permits.ready hperm
      obtain ⟨c', k, r, -, hk, rfl⟩ := Sys.blockingCall_inv hs
      rw [Sys.kernel_outcome _ _ _ _ fun _ => rfl]
      exact .takeTurn (fun _ => ⟨c, hc, hr⟩) rfl (waits_osSemTake hc hk)
  | semTakeFromIsr a =>
      obtain rfl := Option.some.inj hs
      exact .takeTurn (fun h => by cases h) rfl (waits_osSemTakeFromIsr s.kernel a)
  | semGive a =>
      obtain ⟨r, hk, rfl⟩ := Option.map_eq_some_iff.mp hs
      exact .giveTurn hinv rfl (waits_osSemGive hk)
  | semGiveFromIsr a =>
      obtain rfl := Option.some.inj hs
      exact .giveTurn hinv rfl (waits_osSemGiveFromIsr s.kernel a)
  | queueCreate q sz n b =>
      obtain rfl := Option.some.inj hs
      show Moves s _ (osQueueCreate s.kernel q sz n b).2.waits
      unfold osQueueCreate
      split
      · exact .same rfl
      · cases b <;> exact .same rfl
  | queueSend q item n =>
      obtain ⟨c, hc, -, hr⟩ := Sys.Permits.ready hperm
      obtain ⟨c', k, r, -, hk, rfl⟩ := Sys.blockingCall_inv hs
      rw [Sys.kernel_outcome _ _ _ _ fun _ => rfl]
      refine .queueTurn hinv (fun x hx => ?_) rfl (waits_osQueueSend hc hk)
      obtain rfl := Option.some.inj hx
      exact ⟨hc, hr⟩
  | queueSendFromIsr q item =>
      obtain rfl := Option.some.inj hs
      exact .queueTurn hinv (fun x hx => by cases hx) rfl (waits_osQueueSendFromIsr s.kernel q item)
  | queueReceive q n =>
      obtain ⟨c, hc, -, hr⟩ := Sys.Permits.ready hperm
      obtain ⟨c', k, r, -, hk, rfl⟩ := Sys.blockingCall_inv hs
      rw [Sys.kernel_outcome _ _ _ _ fun _ => rfl]
      refine .queueTurn hinv (fun x hx => ?_) rfl (waits_osQueueReceive hc hk)
      obtain rfl := Option.some.inj hx
      exact ⟨hc, hr⟩
  | queueReceiveFromIsr q =>
      obtain rfl := Option.some.inj hs
      exact .queueTurn hinv (fun x hx => by cases hx) rfl (waits_osQueueReceiveFromIsr s.kernel q)
  | mutexCreate m =>
      obtain rfl := Option.some.inj hs
      exact .same rfl
  | mutexLock m n =>
      obtain ⟨c, hc, -, hr⟩ := Sys.Permits.ready hperm
      obtain ⟨c', k, r, -, hk, rfl⟩ := Sys.blockingCall_inv hs
      rw [Sys.kernel_outcome _ _ _ _ fun _ => rfl]
      rcases waits_osMutexLock hk with h | h
      · exact .same h
      · exact .setCurrent hc h (.sleeps (.mutex m) n _ _ hc hr rfl)
  | mutexUnlock m =>
      obtain ⟨c, -, h⟩ := Option.bind_eq_some_iff.mp hs
      obtain ⟨⟨k, r, woken⟩, hk, h⟩ := Option.bind_eq_some_iff.mp h
      have hkernel : s'.kernel = k := by
        cases woken <;> (obtain rfl := Option.some.inj h; rfl)
      rw [hkernel]
      rcases waits_osMutexUnlock hk with h | h
      · exact .same h
      · exact .wokenWaits hinv rfl h
  | eventCreate e =>
      obtain rfl := Option.some.inj hs
      exact .setBits rfl (waits_setEventGroup ..)
  | eventWait e bits options n =>
      obtain ⟨c, hc, -, hr⟩ := Sys.Permits.ready hperm
      obtain ⟨c', k, r, -, hk, rfl⟩ := Sys.blockingCall_inv hs
      rw [Sys.kernel_outcome _ _ _ _ fun _ => rfl]
      cases waits_osEventgroupWaitBits hc hk with
      | returns b hb h => exact .setBits rfl h
      | sleeps hun m h => exact .setCurrent hc h (.sleeps (.eventGroup e) m bits options hc hr rfl)
  -- one pass over the waiters, with a move for each of them
  | eventSet e bits =>
      obtain ⟨r, hk, rfl⟩ := Option.map_eq_some_iff.mp hs
      exact .wakePass hinv rfl (hinv.waits_osEventgroupSetBits hk)
  | eventSetFromIsr e bits =>
      obtain ⟨r, hk, rfl⟩ := Option.map_eq_some_iff.mp hs
      exact .wakePass hinv rfl (hinv.waits_osEventgroupSetBitsFromIsr hk)
  | eventClear e bits =>
      obtain rfl := Option.some.inj hs
      exact .setBits rfl (waits_osEventgroupClearBits s.kernel e bits)
  | tick =>
      obtain ⟨k, hk, rfl⟩ := Option.map_eq_some_iff.mp hs
      exact .tick hinv (hinv.waits_osTaskTick hk)
  | selectNext =>
      obtain rfl := Option.some.inj hs
      exact .same hinv.waits_osSchedSelectNext
  | returnFromCall =>
      obtain ⟨c, -, hs⟩ := Option.bind_eq_some_iff.mp hs
      exact .same (Sys.waits_returnFrom hs)
  | writeStack a x =>
      obtain rfl := Option.some.inj hs
      exact .same rfl
  | scribble t x nx pv =>
      obtain rfl := Option.some.inj hs
      -- memory that is not a live control block
      exact .set (waits_setTcb _ t x) fun ht => absurd ht (hunowned t rfl)

/-! ## What moves keep -/

/-- A live task waits for an object. -/
def Kernel.WaitsOn (k : Kernel) (o : Obj) (t : TaskId) : Prop :=
  t ∈ k.liveTcbs ∧ (k.waits.phases t).blockedOn = some o

/-- The waiters are the same when all phases are. -/
theorem waitsOn_congr {k k' : Kernel} {o : Obj} (hp : k'.waits.phases = k.waits.phases)
    (hl : k'.waits.live = k.waits.live) (t : TaskId) : k'.WaitsOn o t ↔ k.WaitsOn o t := by
  unfold Kernel.WaitsOn
  rw [hp]
  have hlive : k'.liveTcbs = k.liveTcbs := hl
  rw [hlive]

/-- The waiters after one phase was rewritten. -/
theorem waitsOn_set {k k' : Kernel} {o : Obj} {p : Phase} (h : k'.waits = k.waits.set t p)
    (x : TaskId) :
    k'.WaitsOn o x ↔ if x = t then x ∈ k.liveTcbs ∧ p.blockedOn = some o else k.WaitsOn o x := by
  have hlive : k'.liveTcbs = k.liveTcbs := congrArg Waits.live h
  unfold Kernel.WaitsOn
  rw [hlive, h]
  show _ ∧ (Function.update k.waits.phases t p x).blockedOn = some o ↔ _
  rw [Function.update_apply]
  split <;> rfl

/-- The tasks of a wait list are those that wait on its object, where it is the only one. -/
theorem TaskListInv.mem_wait_iff {k : Kernel} (h : TaskListInv k L) {w : WaitList}
    (huniq : ∀ u : WaitList, u.obj = w.obj → u = w) : t ∈ L (.wait w) ↔ k.WaitsOn w.obj t := by
  constructor
  · intro ht
    have hlive := h.live _ t ht
    exact ⟨hlive, ((h.placed t hlive _).mp ht).2.1⟩
  · rintro ⟨hlive, hb⟩
    refine (h.placed t hlive _).mpr ?_
    rcases h.coherent t hlive with hc | ⟨hst, u, hu, hr⟩
    · cases hb.symm.trans hc
    · obtain rfl := huniq u (Option.some.inj (hu.symm.trans hb))
      exact ⟨hst, hu, hr⟩

/-- A waiting task is BLOCKED. -/
theorem TaskListInv.blocked_of_waitsOn {k : Kernel} {o : Obj} (h : TaskListInv k L)
    (ht : k.WaitsOn o t) : (k.waits.phases t).state = .blocked := by
  rcases h.coherent t ht.1 with hc | ⟨hst, -⟩
  · cases ht.2.symm.trans hc
  · exact (Tcb.phase_state_eq (by simp) (by simp)).mpr hst

/-- A READY task waits for nothing. -/
theorem TaskListInv.blockedOn_of_ready {k : Kernel} (h : TaskListInv k L) (ht : t ∈ k.liveTcbs)
    (hr : (k.waits.phases t).state = .ready) : (k.waits.phases t).blockedOn = none := by
  refine h.blockedOn_eq_none ht fun hb => ?_
  have hb' : (k.waits.phases t).state = .blocked := (Tcb.phase_state_eq (by simp) (by simp)).mpr hb
  cases hr.symm.trans hb'

/-- A tick leaves what a task waits for alone. -/
theorem Phase.blockedOn_ticked (p : Phase) : p.ticked.blockedOn = p.blockedOn := by
  unfold Phase.ticked
  split
  · rfl
  · split <;> rfl

/-- It leaves `timed_out` alone. -/
theorem Phase.timedOut_ticked (p : Phase) : p.ticked.timedOut = p.timedOut := by
  unfold Phase.ticked
  split
  · rfl
  · split <;> rfl

/-- A move under a call on another object starts or ends no wait for `o`. -/
theorem Move.blockedOn_iff {p' : Phase} {o : Obj} (h : Move s op t p p') (hop : op.object ≠ some o)
    (hready : p.state = .ready → p.blockedOn = none) :
    p'.blockedOn = some o ↔ p.blockedOn = some o := by
  cases h with
  | sleeps w n b o' hc hp ho =>
      have hne : (some w.obj : Option Obj) ≠ some o := fun hw => hop (ho.trans hw)
      rw [hready hp]
      exact iff_of_false hne (by simp)
  | wakes o' hp hb ho =>
      have hne : p.blockedOn ≠ some o := fun hb' => hop (ho.trans (hb.symm.trans hb'))
      exact iff_of_false (by simp [Phase.woken]) hne
  | ticks hp hb hop => rw [Phase.blockedOn_ticked]
  | _ => exact Iff.rfl

/-- No move times a task out. -/
theorem Move.timedOut {p' : Phase} (h : Move s op t p p') (hp : p.timedOut = false) :
    p'.timedOut = false := by
  cases h with
  | ticks _ _ _ => rw [Phase.timedOut_ticked, hp]
  | stays => exact hp
  | delays _ _ _ _ => exact hp
  | suspends _ _ => exact hp
  | resumes _ _ => exact hp
  | dies _ _ _ => exact hp
  | _ => rfl

/-- A tick makes a task READY, or leaves its state alone. -/
theorem Phase.state_ticked (p : Phase) : p.ticked.state = p.state ∨ p.ticked.state = .ready := by
  unfold Phase.ticked
  split
  · exact Or.inl rfl
  · split
    · exact Or.inr rfl
    · exact Or.inl rfl

/-- Only the current task deletes itself. -/
theorem Move.of_deleted {p' : Phase} (h : Move s op t p p') (hp : p.state ≠ .deleted)
    (hp' : p'.state = .deleted) : op = .deleteSelf ∧ s.kernel.current = some t := by
  cases h with
  | stays => exact absurd hp' hp
  | dies hc _ hop => exact ⟨hop, hc⟩
  | ticks _ _ _ =>
      rcases p.state_ticked with hst | hst
      · exact absurd (hst.symm.trans hp') hp
      · cases hst.symm.trans hp'
  | _ => cases hp'

/-- **Steps elsewhere.** A step on another object leaves the set of tasks that wait on `o` alone. -/
theorem Moves.waitsOn_iff {o : Obj} (hinv : TaskListInv s.kernel L)
    (h : Moves s op s'.kernel.waits) (hop : op.object ≠ some o) (t : TaskId) :
    s'.kernel.WaitsOn o t ↔ s.kernel.WaitsOn o t := by
  have hmove : ∀ x ∈ s.kernel.liveTcbs, (s'.kernel.waits.phases x).blockedOn = some o ↔
      (s.kernel.waits.phases x).blockedOn = some o := fun x hx =>
    (h.moves x hx).blockedOn_iff hop (hinv.blockedOn_of_ready hx)
  constructor
  · rintro ⟨hlive, hb⟩
    rcases h.born t hlive with hl | ⟨-, hnone, -⟩
    · exact ⟨hl, (hmove t hl).mp hb⟩
    · cases hb.symm.trans hnone
  · intro ht
    refine ⟨h.kept t ht.1 (Or.inl fun hd => ?_), (hmove t ht.1).mpr ht.2⟩
    cases hd.symm.trans (hinv.blocked_of_waitsOn ht)

/-! ## Calls in progress -/

/-- The calls of the other tasks after a blocking call. -/
theorem Sys.call_outcome_of_ne {α : Type} {s : Sys} {c : TaskId} (call : Call) (ret : Sys → α → Sys)
    (hret : ∀ a, (ret s a).call = s.call) (r : Outcome α) (ht : t ≠ c) :
    (s.outcome c call ret r).call t = s.call t := by
  cases r with
  | done a => exact congrFun (hret a) t
  | blocked => exact Function.update_of_ne ht _ _

/-- **Calls begin and end with the current task**: another step leaves the call a task is in. -/
theorem step_call (hop : op.Allowed s) (ht : t ∈ s.kernel.liveTcbs) (hs : step s op = some s') :
    s'.call t = s.call t ∨ s.kernel.current = some t ∧ (s.kernel.waits.phases t).state = .ready ∧
      (op = .returnFromCall ∨ s.call t = .idle) := by
  obtain ⟨hperm, -, hunowned, -⟩ := hop
  -- a blocking call changes where its caller is
  have hblock : ∀ {α : Type} {s₁ : Sys} {c : TaskId} (call : Call) (ret : Sys → α → Sys) (r : Outcome α),
      s₁.call = s.call → (∀ a, (ret s₁ a).call = s₁.call) → s.Permits .task →
      s.kernel.current = some c → (s₁.outcome c call ret r).call t = s.call t ∨
        s.kernel.current = some t ∧ (s.kernel.waits.phases t).state = .ready ∧
          (op = .returnFromCall ∨ s.call t = .idle) := by
    intro α s₁ c call ret r hs₁ hret hp hc
    by_cases htc : t = c
    · obtain ⟨x, hx, -, hst, hidle⟩ := hp.task
      obtain rfl := Option.some.inj (hx.symm.trans hc)
      exact Or.inr (htc ▸ ⟨hc, Tcb.phase_state_ready.mpr hst, Or.inr hidle⟩)
    · exact Or.inl ((Sys.call_outcome_of_ne call ret hret r htc).trans (congrFun hs₁ t))
  -- a new task is put in no call, and its block was not live before
  have hcreated : ∀ a r, (∀ x, a.tcbBlock = some x → x ∉ s.kernel.liveTcbs) →
      (s.created a r).call t = s.call t := by
    intro a r hfresh
    unfold Sys.created
    split
    · next x _ hx => exact Function.update_of_ne (fun htx : t = x => hfresh x hx (htx ▸ ht)) _ _
    · rfl
  cases op with
  | create a =>
      obtain rfl := Option.some.inj hs
      exact Or.inl (hcreated a _ hunowned)
  | createSuspended a =>
      obtain rfl := Option.some.inj hs
      exact Or.inl (hcreated a _ hunowned)
  | notifyWait n =>
      obtain ⟨c, k, r, hc, hk, rfl⟩ := Sys.blockingCall_inv hs
      exact hblock _ _ _ rfl (fun _ => rfl) hperm hc
  | semTake a n =>
      obtain ⟨c, k, r, hc, hk, rfl⟩ := Sys.blockingCall_inv hs
      exact hblock _ _ _ rfl (fun _ => rfl) hperm hc
  | queueSend q item n =>
      obtain ⟨c, k, r, hc, hk, rfl⟩ := Sys.blockingCall_inv hs
      exact hblock _ _ _ rfl (fun _ => rfl) hperm hc
  | queueReceive q n =>
      obtain ⟨c, k, r, hc, hk, rfl⟩ := Sys.blockingCall_inv hs
      exact hblock _ _ _ rfl (fun _ => rfl) hperm hc
  | mutexLock m n =>
      obtain ⟨c, k, r, hc, hk, rfl⟩ := Sys.blockingCall_inv hs
      exact hblock _ _ _ rfl (fun _ => rfl) hperm hc
  | mutexUnlock m =>
      obtain ⟨c, hc, hs⟩ := Option.bind_eq_some_iff.mp hs
      obtain ⟨⟨k, r, woken⟩, hk, hs⟩ := Option.bind_eq_some_iff.mp hs
      obtain rfl := Option.some.inj hs
      cases woken <;> exact Or.inl rfl
  | eventWait e bits options n =>
      obtain ⟨c, k, r, hc, hk, rfl⟩ := Sys.blockingCall_inv hs
      exact hblock _ _ _ rfl (fun _ => rfl) hperm hc
  -- only the caller itself leaves its call
  | returnFromCall =>
      obtain ⟨c, hc, hs⟩ := Option.bind_eq_some_iff.mp hs
      by_cases htc : t = c
      · obtain ⟨x, hx, -, hst, -⟩ := Sys.Permits.resumed hperm
        obtain rfl := Option.some.inj (hx.symm.trans hc)
        exact Or.inr (htc ▸ ⟨hc, Tcb.phase_state_ready.mpr hst, Or.inl rfl⟩)
      · refine Or.inl ?_
        cases hcl : s.call c with
        | idle =>
            rw [hcl] at hs
            cases hs
        | _ =>
            rw [hcl] at hs
            obtain rfl := Option.some.inj hs
            exact Function.update_of_ne htc _ _
  | delay n =>
      obtain ⟨k, hk, rfl⟩ := Option.map_eq_some_iff.mp hs
      exact Or.inl rfl
  | delayUntil a b =>
      obtain ⟨k, hk, rfl⟩ := Option.map_eq_some_iff.mp hs
      exact Or.inl rfl
  | deleteSelf =>
      obtain ⟨k, hk, rfl⟩ := Option.map_eq_some_iff.mp hs
      exact Or.inl rfl
  | notify x v =>
      obtain ⟨k, hk, rfl⟩ := Option.map_eq_some_iff.mp hs
      exact Or.inl rfl
  | semGive a =>
      obtain ⟨k, hk, rfl⟩ := Option.map_eq_some_iff.mp hs
      exact Or.inl rfl
  | eventSet e bits =>
      obtain ⟨k, hk, rfl⟩ := Option.map_eq_some_iff.mp hs
      exact Or.inl rfl
  | eventSetFromIsr e bits =>
      obtain ⟨k, hk, rfl⟩ := Option.map_eq_some_iff.mp hs
      exact Or.inl rfl
  | tick =>
      obtain ⟨k, hk, rfl⟩ := Option.map_eq_some_iff.mp hs
      exact Or.inl rfl
  | _ =>
      obtain rfl := Option.some.inj hs
      exact Or.inl rfl

end MiniRTOS
