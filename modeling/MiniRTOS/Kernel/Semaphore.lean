import MiniRTOS.Kernel.WaitList

/-! # Semaphores

The functions of `semaphore.c`; a blocking call is cut at its `os_sched_yield()` as in `Queue`. -/

namespace MiniRTOS

/-- `prv_block_task` of `semaphore.c`. -/
def Sem.prvBlockTask (k : Kernel) (s : Addr) (t : TaskId) (timeout : Nat) : Option Kernel :=
  blockTask k (.sem s) t timeout .onSemTake (.sem s)

/-- `prv_wake_task` of `semaphore.c`. -/
def Sem.prvWakeTask (k : Kernel) (s : Addr) : Option TaskId × Kernel := wakeTask k (.sem s)

/-- `os_sem_create_counting`. -/
def osSemCreateCounting (k : Kernel) (s : Addr) (maxCount initialCount : Nat) : Status × Kernel :=
  if maxCount = 0 then (.errParam, k)
  else if initialCount > maxCount then (.errParam, k)
  else (.ok, k.setSem s ⟨initialCount, maxCount, none⟩)

/-- `os_sem_create_binary`. -/
def osSemCreateBinary (k : Kernel) (s : Addr) : Status × Kernel := (.ok, k.setSem s ⟨0, 1, none⟩)

/-- `os_sem_take` up to the point where it returns or suspends its caller. -/
def osSemTake (k : Kernel) (s : Addr) (timeout : Nat) : Option (Kernel × Outcome Status) :=
  let k₁ := osSchedEnterCritical k
  if (k₁.sems s).count > 0 then
    some (osSchedExitCritical (k₁.setSem s { k₁.sems s with count := (k₁.sems s).count - 1 }),
      .done .ok)
  else if timeout = waitNone then some (osSchedExitCritical k₁, .done .errEmpty)
  else do
    let c ← k₁.current
    let k₂ ← Sem.prvBlockTask k₁ s c timeout
    some (osSchedYield (osSchedExitCritical k₂), .blocked)

/-- `os_sem_take` after its `os_sched_yield()`. -/
def osSemTakeResume (k : Kernel) (cur : TaskId) : Status :=
  if (k.tcb cur).timedOut then .errTimeout else .ok

/-- `os_sem_take_from_isr`. -/
def osSemTakeFromIsr (k : Kernel) (s : Addr) : Kernel × Status :=
  let k₁ := osSchedEnterCritical k
  if (k₁.sems s).count > 0 then
    (osSchedExitCritical (k₁.setSem s { k₁.sems s with count := (k₁.sems s).count - 1 }), .ok)
  else (osSchedExitCritical k₁, .errEmpty)

/-- `os_sem_give`: hand the token to the first waiter, or count it. -/
def osSemGive (k : Kernel) (s : Addr) : Option (Kernel × Status) :=
  let k₁ := osSchedEnterCritical k
  match Sem.prvWakeTask k₁ s with
  -- the count is not touched when a waiter gets the token
  | (some w, k₂) => do
      let k₃ := osSchedExitCritical k₂
      let cur ← k₃.current
      some (if k₃.prio w < k₃.prio cur then osSchedYield k₃ else k₃, .ok)
  | (none, _) =>
      if (k₁.sems s).count < (k₁.sems s).maxCount then
        some (osSchedExitCritical
          (k₁.setSem s { k₁.sems s with count := (k₁.sems s).count + 1 }), .ok)
      else some (osSchedExitCritical k₁, .errFull)

/-- `os_sem_give_from_isr`. -/
def osSemGiveFromIsr (k : Kernel) (s : Addr) : Kernel × Status :=
  let k₁ := osSchedEnterCritical k
  match Sem.prvWakeTask k₁ s with
  | (some _, k₂) => (osSchedRequestSwitchFromIsr (osSchedExitCritical k₂), .ok)
  | (none, _) =>
      if (k₁.sems s).count < (k₁.sems s).maxCount then
        (osSchedExitCritical (k₁.setSem s { k₁.sems s with count := (k₁.sems s).count + 1 }), .ok)
      else (osSchedExitCritical k₁, .errFull)

end MiniRTOS
