import MiniRTOS.Kernel.WaitList

/-! # Mutexes with priority inheritance

The functions of `mutex.c`; a blocking call is cut at its `os_sched_yield()` as in `Queue`. -/

namespace MiniRTOS

/-- `prv_block_task` of `mutex.c`. -/
def Mutex.prvBlockTask (k : Kernel) (m : Addr) (t : TaskId) (timeout : Nat) : Option Kernel :=
  blockTask k (.mutex m) t timeout .onMutexLock (.mutex m)

/-- `prv_wake_and_transfer`: the first waiter becomes READY and owner, at lock depth one. -/
def Mutex.prvWakeAndTransfer (k : Kernel) (m : Addr) : Option TaskId × Kernel :=
  match wakeTask k (.mutex m) with
  | (none, k₁) => (none, k₁)
  | (some t, k₁) =>
      (some t, k₁.setMutex m
        { k₁.mutexes m with owner := some t, lockCount := 1, originalPrio := k₁.prio t })

/-- `prv_boost_priority`. -/
def Mutex.prvBoostPriority (k : Kernel) (m : Addr) (newPrio : Prio) : Kernel :=
  match (k.mutexes m).owner with
  | none => k
  | some o => if newPrio < k.prio o then osTaskSetPriority k o newPrio else k

/-- `prv_restore_priority`. -/
def Mutex.prvRestorePriority (k : Kernel) (m : Addr) : Kernel :=
  match (k.mutexes m).owner with
  | none => k
  | some o => osTaskSetPriority k o (k.mutexes m).originalPrio

/-- `os_mutex_create`. -/
def osMutexCreate (k : Kernel) (m : Addr) : Status × Kernel := (.ok, k.setMutex m ⟨none, 0, 0, none⟩)

/-- `os_mutex_lock` up to the point where it returns or suspends its caller. -/
def osMutexLock (k : Kernel) (m : Addr) (timeout : Nat) : Option (Kernel × Outcome Status) := do
  let k₁ := osSchedEnterCritical k
  let cur ← k₁.current
  match (k₁.mutexes m).owner with
  -- the saved priority may already be a boosted one
  | none =>
      some (osSchedExitCritical (k₁.setMutex m
        { k₁.mutexes m with owner := some cur, lockCount := 1, originalPrio := k₁.prio cur }),
        .done .ok)
  | some o =>
      if o = cur then
        some (osSchedExitCritical (k₁.setMutex m
          { k₁.mutexes m with lockCount := ((k₁.mutexes m).lockCount + 1) % 2 ^ 32 }), .done .ok)
      else
        -- the owner is boosted before the timeout is looked at
        let k₂ := Mutex.prvBoostPriority k₁ m (k₁.prio cur)
        if timeout = waitNone then some (osSchedExitCritical k₂, .done .errWouldBlock)
        else do
          let k₃ ← Mutex.prvBlockTask k₂ m cur timeout
          some (osSchedYield (osSchedExitCritical k₃), .blocked)

/-- `os_mutex_lock` after its `os_sched_yield()`. -/
def osMutexLockResume (k : Kernel) (cur : TaskId) : Status :=
  if (k.tcb cur).timedOut then .errTimeout else .ok

/-- The full release in `os_mutex_unlock`: restore the owner's priority, clear the ownership and
hand it to the first waiter. -/
def Mutex.release (k : Kernel) (m : Addr) : Option TaskId × Kernel :=
  let k₁ := Mutex.prvRestorePriority k m
  Mutex.prvWakeAndTransfer (k₁.setMutex m { k₁.mutexes m with owner := none }) m

/-- `os_mutex_unlock`, with the task that the ownership was handed to. -/
def osMutexUnlock (k : Kernel) (m : Addr) : Option (Kernel × Status × Option TaskId) := do
  let k₁ := osSchedEnterCritical k
  let cur ← k₁.current
  if (k₁.mutexes m).owner ≠ some cur then some (osSchedExitCritical k₁, .errState, none)
  else
    let k₂ := k₁.setMutex m
      { k₁.mutexes m with lockCount := ((k₁.mutexes m).lockCount + (2 ^ 32 - 1)) % 2 ^ 32 }
    -- inner unlock of a recursive lock
    if (k₂.mutexes m).lockCount > 0 then some (osSchedExitCritical k₂, .ok, none)
    else
      let (woken, k₃) := Mutex.release k₂ m
      let k₄ := osSchedExitCritical k₃
      match woken with
      | none => some (k₄, .ok, none)
      -- compared with the restored priority of the caller
      | some w => some (if k₄.prio w < k₄.prio cur then osSchedYield k₄ else k₄, .ok, some w)

/-- The next unlock brings the lock count to zero. -/
def Mutex.lastLock (mu : Mutex) : Prop := (mu.lockCount + (2 ^ 32 - 1)) % 2 ^ 32 = 0

/-- Whether a lock is the last one can be decided. -/
instance (mu : Mutex) : Decidable mu.lastLock := inferInstanceAs (Decidable (_ = _))

/-- The state inside `os_mutex_unlock` in which the owner holds one lock less. -/
def Mutex.dropLock (k : Kernel) (m : Addr) : Kernel :=
  (osSchedEnterCritical k).setMutex m
    { k.mutexes m with lockCount := ((k.mutexes m).lockCount + (2 ^ 32 - 1)) % 2 ^ 32 }

/-- Dropping a lock counts it down. -/
theorem Mutex.mutexes_dropLock (k : Kernel) (m : Addr) :
    (Mutex.dropLock k m).mutexes m
      = { k.mutexes m with lockCount := ((k.mutexes m).lockCount + (2 ^ 32 - 1)) % 2 ^ 32 } :=
  Function.update_self ..

/-- The waiters stay. -/
theorem Mutex.waitHead_dropLock (k : Kernel) (m : Addr) :
    (Mutex.dropLock k m).waitHead (.mutex m) = k.waitHead (.mutex m) := by
  show ((Mutex.dropLock k m).mutexes m).waitList = _
  rw [Mutex.mutexes_dropLock]
  rfl

/-- **The three ways of `os_mutex_unlock`**: refused, one lock less, or the full release. -/
theorem osMutexUnlock_eq {k : Kernel} {m : Addr} {c : TaskId} (hc : k.current = some c) :
    osMutexUnlock k m
      = if (k.mutexes m).owner ≠ some c then
          some (osSchedExitCritical (osSchedEnterCritical k), .errState, none)
        else if ¬ (k.mutexes m).lastLock then some (osSchedExitCritical (Mutex.dropLock k m), .ok, none)
        else
          let k₄ := osSchedExitCritical (Mutex.release (Mutex.dropLock k m) m).2
          match (Mutex.release (Mutex.dropLock k m) m).1 with
          | none => some (k₄, .ok, none)
          | some w => some (if k₄.prio w < k₄.prio c then osSchedYield k₄ else k₄, .ok, some w) := by
  have hcur : (osSchedEnterCritical k).current = some c := hc
  have hpos : ((Mutex.dropLock k m).mutexes m).lockCount > 0 ↔ ¬ (k.mutexes m).lastLock := by
    rw [Mutex.mutexes_dropLock]
    exact Nat.pos_iff_ne_zero
  unfold osMutexUnlock
  simp only [hcur, Option.bind_eq_bind, Option.bind_some]
  exact if_congr Iff.rfl rfl (if_congr hpos rfl rfl)

end MiniRTOS
