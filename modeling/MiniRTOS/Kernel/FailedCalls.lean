import MiniRTOS.Kernel.MutexInv

/-! # Calls that fail without waiting

A call made with `OS_WAIT_NONE`, and a call that never waits, can be refused: the queue is full or
empty, the token is not there, the mutex belongs to another task. Each call makes its checks in its
own order. All of them but one check first and write afterwards; `os_mutex_lock` lends the caller's
priority to the owner before it looks at the timeout, so a refused attempt leaves the owner boosted
although nobody waits for the mutex.

* **`TryCall`** — the calls that can be refused, with the status that says so.
* **`TryCall.BoostsOwner`** — the refused attempts that change a priority.
* **`refused_unchanged_iff`** — every other refused call changes nothing. -/

namespace MiniRTOS

open Runs ByteMemory

variable {k k' : Kernel}

/-! ## What a refused call may change -/

/-- The kernel without PRIMASK and the masks that nested critical sections have saved. -/
def Kernel.unmasked (k : Kernel) : Kernel := { k with savedMask := fun _ => 0, primask := 0 }

/-- **Nothing has changed**: objects, control blocks, ready, blocked and wait lists, the bitmap and
everything else that is not the interrupt mask of a critical section. -/
def Kernel.Untouched (k k' : Kernel) : Prop := k'.unmasked = k.unmasked

/-- A critical section with nothing in it. -/
theorem untouched_critical (k : Kernel) : k.Untouched (osSchedExitCritical (osSchedEnterCritical k)) := rfl

/-- No control block has changed. -/
theorem Kernel.Untouched.tcb (h : k.Untouched k') : k'.tcb = k.tcb := (congrArg Kernel.tcb h : _)

/-! ## The calls -/

/-- The calls that can be refused at once; those that take a timeout are made with `OS_WAIT_NONE`. -/
inductive TryCall
  /-- `os_queue_send`. -/
  | queueSend (q : Addr) (item : Mem)
  /-- `os_queue_receive`. -/
  | queueReceive (q : Addr)
  /-- `os_queue_peek`. -/
  | queuePeek (q : Addr)
  /-- `os_queue_overwrite`. -/
  | queueOverwrite (q : Addr) (item : Mem)
  /-- `os_queue_reset`. -/
  | queueReset (q : Addr)
  /-- `os_sem_take`. -/
  | semTake (s : Addr)
  /-- `os_sem_give`. -/
  | semGive (s : Addr)
  /-- `os_mutex_lock`. -/
  | mutexLock (m : Addr)
  /-- `os_mutex_unlock`. -/
  | mutexUnlock (m : Addr)
  /-- `os_task_notify_wait`. -/
  | notifyWait

/-- The status of a call that has returned. -/
def Outcome.returned {α : Type} (f : α → Status) : Kernel × Outcome α → Option (Kernel × Status)
  | (k, .done r) => some (k, f r)
  | (_, .blocked) => none

/-- The state and the status with which a call returns; `none` for a null current task. -/
def TryCall.run (k : Kernel) : TryCall → Option (Kernel × Status)
  | .queueSend q item => (osQueueSend k q item waitNone).bind (Outcome.returned id)
  | .queueReceive q => (osQueueReceive k q waitNone).bind (Outcome.returned Prod.fst)
  | .queuePeek q => some ((osQueuePeek k q).1, (osQueuePeek k q).2.1)
  | .queueOverwrite q item => some (osQueueOverwrite k q item)
  | .queueReset q => some (osQueueReset k q)
  | .semTake s => (osSemTake k s waitNone).bind (Outcome.returned id)
  | .semGive s => osSemGive k s
  | .mutexLock m => (osMutexLock k m waitNone).bind (Outcome.returned id)
  | .mutexUnlock m => (osMutexUnlock k m).map fun r => (r.1, r.2.1)
  | .notifyWait => (osTaskNotifyWait k waitNone).bind (Outcome.returned Prod.fst)

/-- The status with which each call is refused. -/
def TryCall.refusal : TryCall → Status
  | .queueSend .. | .semGive _ => .errFull
  | .queueReceive _ | .queuePeek _ | .semTake _ => .errEmpty
  | .queueOverwrite .. | .queueReset _ | .mutexUnlock _ => .errState
  | .mutexLock _ => .errWouldBlock
  | .notifyWait => .errTimeout

/-- **The attempt to lock a mutex whose owner is less urgent than the caller.** -/
def TryCall.BoostsOwner (k : Kernel) : TryCall → Prop
  | .mutexLock m => ∃ c ∈ k.current, ∃ o ∈ (k.mutexes m).owner, k.prio c < k.prio o
  | _ => False

/-- A call that returned has not blocked its caller. -/
theorem Outcome.of_returned {α : Type} {f : α → Status} {x : Option (Kernel × Outcome α)} {st : Status}
    (h : x.bind (Outcome.returned f) = some (k', st)) : ∃ r, x = some (k', .done r) ∧ f r = st := by
  obtain ⟨⟨k₁, r⟩, hx, h⟩ := Option.bind_eq_some_iff.mp h
  cases r with
  | done r =>
      cases h
      exact ⟨r, hx, rfl⟩
  | blocked => cases h

/-! ## Call by call -/

/-- A sender that finds no room. -/
theorem untouched_osQueueSend {q : Addr} {item : Mem}
    (h : osQueueSend k q item waitNone = some (k', .done .errFull)) : k.Untouched k' := by
  simp only [osQueueSend, if_true] at h
  split at h
  · obtain ⟨k₃, -, h⟩ := Option.bind_eq_some_iff.mp h
    cases h
  · cases h
    exact untouched_critical k

/-- A receiver that finds no item. -/
theorem untouched_osQueueReceive {q : Addr} {copied : Option (List UInt8)}
    (h : osQueueReceive k q waitNone = some (k', .done (.errEmpty, copied))) : k.Untouched k' := by
  simp only [osQueueReceive, if_true] at h
  split at h
  · obtain ⟨k₃, -, h⟩ := Option.bind_eq_some_iff.mp h
    cases h
  · cases h
    exact untouched_critical k

/-- Looking at the first item never writes anything. -/
theorem untouched_osQueuePeek (k : Kernel) (q : Addr) : k.Untouched (osQueuePeek k q).1 := by
  unfold osQueuePeek
  dsimp only
  split <;> exact untouched_critical k

/-- A refused overwrite: the queue has room for more than one item. -/
theorem untouched_osQueueOverwrite {q : Addr} {item : Mem}
    (h : osQueueOverwrite k q item = (k', .errState)) : k.Untouched k' := by
  unfold osQueueOverwrite at h
  dsimp only at h
  split at h
  · cases h
    exact untouched_critical k
  · split at h <;> cases congrArg Prod.snd h

/-- A refused reset: somebody waits at the queue. -/
theorem untouched_osQueueReset {q : Addr} (h : osQueueReset k q = (k', .errState)) : k.Untouched k' := by
  unfold osQueueReset at h
  dsimp only at h
  split at h
  · cases h
    exact untouched_critical k
  · cases congrArg Prod.snd h

/-- A take that finds no token. -/
theorem untouched_osSemTake {a : Addr} (h : osSemTake k a waitNone = some (k', .done .errEmpty)) :
    k.Untouched k' := by
  simp only [osSemTake, if_true] at h
  split at h
  · cases h
  · cases h
    exact untouched_critical k

/-- A give that finds neither a waiter nor room for the token. -/
theorem untouched_osSemGive {a : Addr} (h : osSemGive k a = some (k', .errFull)) : k.Untouched k' := by
  unfold osSemGive at h
  dsimp only at h
  split at h
  · obtain ⟨cur, -, h⟩ := Option.bind_eq_some_iff.mp h
    cases h
  · split at h
    · cases h
    · cases h
      exact untouched_critical k

/-- An unlock by a task that is not the owner. -/
theorem untouched_osMutexUnlock {m : Addr} {w : Option TaskId}
    (h : osMutexUnlock k m = some (k', .errState, w)) : k.Untouched k' := by
  obtain ⟨cur, -, h⟩ := Option.bind_eq_some_iff.mp h
  split at h
  · cases h
    exact untouched_critical k
  · dsimp only at h
    split at h
    · cases h
    · split at h <;> cases h

/-- A task without a pending notification that does not wait for one. -/
theorem untouched_osTaskNotifyWait {v : Option (BitVec 32)}
    (h : osTaskNotifyWait k waitNone = some (k', .done (.errTimeout, v))) : k.Untouched k' := by
  obtain ⟨t, -, h⟩ := Option.bind_eq_some_iff.mp h
  simp only [if_true] at h
  split at h
  · cases h
  · cases h
    exact untouched_critical k

/-- A refused lock: another task owns the mutex, and has been lent the caller's priority. -/
theorem osMutexLock_refused {m : Addr} (h : osMutexLock k m waitNone = some (k', .done .errWouldBlock)) :
    ∃ c o, k.current = some c ∧ (k.mutexes m).owner = some o ∧
      k' = osSchedExitCritical (Mutex.prvBoostPriority (osSchedEnterCritical k) m (k.prio c)) := by
  obtain ⟨c, hc, h⟩ := Option.bind_eq_some_iff.mp h
  simp only [if_true] at h
  split at h
  · cases h
  · next o ho =>
      split at h
      · cases h
      · cases h
        exact ⟨c, o, hc, ho, rfl⟩

/-- The owner of the mutex is boosted when the caller is more urgent, and only then. -/
theorem untouched_osMutexLock_iff {m : Addr}
    (h : osMutexLock k m waitNone = some (k', .done .errWouldBlock)) :
    k.Untouched k' ↔ ¬ (TryCall.mutexLock m).BoostsOwner k := by
  obtain ⟨c, o, hc, ho, rfl⟩ := osMutexLock_refused h
  have hboosts : (TryCall.mutexLock m).BoostsOwner k ↔ k.prio c < k.prio o := by
    simp [TryCall.BoostsOwner, hc, ho]
  have hboost : Mutex.prvBoostPriority (osSchedEnterCritical k) m (k.prio c)
      = if k.prio c < k.prio o then osTaskSetPriority (osSchedEnterCritical k) o (k.prio c)
        else osSchedEnterCritical k := by
    unfold Mutex.prvBoostPriority
    rw [show ((osSchedEnterCritical k).mutexes m).owner = some o from ho]
    rfl
  rw [hboosts, hboost]
  by_cases hlt : k.prio c < k.prio o
  · rw [if_pos hlt]
    refine iff_of_false (fun hun => ?_) (not_not_intro hlt)
    -- the owner's control block holds the caller's priority now
    have hsame : (osTaskSetPriority (osSchedEnterCritical k) o (k.prio c)).prio o = k.prio o :=
      congrArg Tcb.priority (congrFun hun.tcb o)
    have hprio : (osTaskSetPriority (osSchedEnterCritical k) o (k.prio c)).prio o = k.prio c := by
      have hview := congrFun (congrArg View.prios
        (view_osTaskSetPriority (osSchedEnterCritical k) o (k.prio c))) o
      exact hview.trans (Function.update_self ..)
    exact absurd (hprio.symm.trans hsame) (ne_of_lt hlt)
  · rw [if_neg hlt]
    exact iff_of_true (untouched_critical k) hlt

/-! ## All calls -/

/-- **A refused call changes nothing**, whatever the state is, except that an attempt to lock a mutex
of a less urgent owner raises the owner's priority. -/
theorem refused_unchanged_iff (k k' : Kernel) (call : TryCall)
    (h : call.run k = some (k', call.refusal)) : k.Untouched k' ↔ ¬ call.BoostsOwner k := by
  cases call with
  | queueSend q item =>
      obtain ⟨r, hr, rfl⟩ := Outcome.of_returned h
      exact iff_of_true (untouched_osQueueSend hr) id
  | queueReceive q =>
      obtain ⟨⟨_, copied⟩, hr, rfl⟩ := Outcome.of_returned h
      exact iff_of_true (untouched_osQueueReceive hr) id
  | queuePeek q =>
      obtain rfl := congrArg Prod.fst (Option.some.inj h)
      exact iff_of_true (untouched_osQueuePeek k q) id
  | queueOverwrite q item => exact iff_of_true (untouched_osQueueOverwrite (Option.some.inj h)) id
  | queueReset q => exact iff_of_true (untouched_osQueueReset (Option.some.inj h)) id
  | semTake a =>
      obtain ⟨r, hr, rfl⟩ := Outcome.of_returned h
      exact iff_of_true (untouched_osSemTake hr) id
  | semGive a => exact iff_of_true (untouched_osSemGive h) id
  | mutexLock m =>
      obtain ⟨r, hr, rfl⟩ := Outcome.of_returned h
      exact untouched_osMutexLock_iff hr
  | mutexUnlock m =>
      obtain ⟨⟨_, _, w⟩, hr, h⟩ := Option.map_eq_some_iff.mp h
      cases h
      exact iff_of_true (untouched_osMutexUnlock hr) id
  | notifyWait =>
      obtain ⟨⟨_, v⟩, hr, rfl⟩ := Outcome.of_returned h
      exact iff_of_true (untouched_osTaskNotifyWait hr) id

/-- A task of priority 5 takes a mutex, and a task of priority 2 gets the CPU. -/
def ownedTrace : List Op :=
  [.create (taskAt 0x100 5), .selectNext, .mutexCreate 0x10, .mutexLock 0x10 waitForever,
    .create (taskAt 0x200 2), .selectNext]

/-- The task of priority 2 cannot unlock the mutex, and its attempt changes nothing. -/
theorem refused_unchanged_ownedTrace :
    ∃ s, Run (fun s op => op.Allowed s) step .boot ownedTrace s ∧ ∃ k',
      (TryCall.mutexUnlock 0x10).run s.kernel = some (k', (TryCall.mutexUnlock 0x10).refusal) ∧
        s.kernel.Untouched k' := by
  obtain ⟨s, hr, hp⟩ := exists_run_of_exec (fun s op => op.Allowed s) step Sys.boot ownedTrace
    (fun s => ((TryCall.mutexUnlock 0x10).run s.kernel).any
      (fun r => decide (r.2 = (TryCall.mutexUnlock 0x10).refusal)) = true) (by decide +kernel)
  obtain ⟨⟨k', st⟩, hk, hst⟩ := (Option.any_eq_true _ _).mp hp
  obtain rfl := of_decide_eq_true hst
  exact ⟨s, hr, k', hk, (refused_unchanged_iff _ _ _ hk).mpr id⟩

/-- Its attempt to lock the mutex without waiting is refused as well, but leaves the owner with
priority 2. -/
theorem refused_lock_boosts :
    ∃ s, Run (fun s op => op.Allowed s) step .boot ownedTrace s ∧ ∃ k',
      (TryCall.mutexLock 0x10).run s.kernel = some (k', (TryCall.mutexLock 0x10).refusal) ∧
        (s.kernel.tcb 0x100).priority = 5 ∧ (k'.tcb 0x100).priority = 2 ∧
        ¬ s.kernel.Untouched k' := by
  obtain ⟨s, hr, hp, hlow⟩ := exists_run_of_exec (fun s op => op.Allowed s) step Sys.boot ownedTrace
    (fun s => ((TryCall.mutexLock 0x10).run s.kernel).any (fun r => decide
      (r.2 = (TryCall.mutexLock 0x10).refusal ∧ (r.1.tcb 0x100).priority = 2)) = true ∧
        (s.kernel.tcb 0x100).priority = 5) (by decide +kernel)
  obtain ⟨⟨k', st⟩, hk, hst⟩ := (Option.any_eq_true _ _).mp hp
  obtain ⟨rfl, hhigh⟩ := of_decide_eq_true hst
  refine ⟨s, hr, k', hk, hlow, hhigh, fun hun => ?_⟩
  have hsame : (k'.tcb 0x100).priority = (s.kernel.tcb 0x100).priority := by rw [hun.tcb]
  rw [hlow, hhigh] at hsame
  exact absurd hsame (by decide)

end MiniRTOS
