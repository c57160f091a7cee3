import MiniRTOS.Kernel.Deletion
import MiniRTOS.Kernel.PeriodicDelay
import MiniRTOS.Kernel.SemTokens
import MiniRTOS.Kernel.TimerLists
import MiniRTOS.Kernel.WaitOrder

/-! # The timer service task

`os_timer_tick` puts the expired timers on a list and gives `timer_sem`; the service task takes it, takes
over the list and calls the callbacks. The semaphore is binary, and one give may stand for many ticks: a
tick can come while the service task is still at work, or between its take and the moment at which it
takes over the list. No expiry is lost that way. While the list is not empty the semaphore holds a token,
or the service task has got one and not yet come to the list. This rests on the ready lists, so the calls
of the runs are `ListedStep`s.

* **`serviceStep`** — the service task statement by statement, among everything else that happens.
* **`ServiceInv`** — where the signal for the expired timers is.
* **`no_expiry_lost`** — the service task neither sleeps nor goes to sleep while a timer has expired. -/

namespace MiniRTOS

open Runs

variable {s s' s₀ s₁ s₂ : Sys} {k k' : Kernel} {L L' : Layout} {tm tm' : Timers} {t : TimerId}
  {svc : TaskId} {fuel : Nat} {a : Addr}

/-! ## The source -/

/-- `timer_task_stack`. -/
def timerTaskStack : Addr := 0x20000500

/-- The entry of `timer_service_task`. -/
def timerServiceTask : BitVec 32 := 0x08000501

/-- The arguments with which `os_timer_init` creates its task, with the heap's answer to the request for a
control block. -/
def timerServiceArgs (tcbBlock : Option Addr) : CreateArgs where
  func := some timerServiceTask
  param := 0
  -- `OS_PRIO_LOWEST - 1`
  priority := numPriorities - 2
  stackBuf := some timerTaskStack
  -- `OS_CONFIG_TIMER_SERVICE_STACK`
  stackSize := 256
  wantHandle := true
  stackBlock := none
  tcbBlock := tcbBlock

/-- `os_timer_init`, with `timer_initialized`. -/
def osTimerInit (k : Kernel) (timerInitialized : Bool) (tcbBlock : Option Addr) :
    Status × Bool × Kernel :=
  if timerInitialized then (.ok, timerInitialized, k)
  else
    let k₁ := (osSemCreateBinary k timerSem).2
    let (ret, _, k₂) := osTaskCreate k₁ (timerServiceArgs tcbBlock)
    if ret ≠ .ok then (ret, timerInitialized, k₂) else (.ok, true, k₂)

/-- Where `timer_service_task` stands: at its `os_sem_take`, inside it, at the critical section in which it
takes over the list, or in its inner loop. -/
inductive ServicePc
  | take | taking | grab | work
  deriving DecidableEq, Repr

/-- The system, the timers, and the service task. -/
structure ServiceSys where
  /-- The kernel and its callers. -/
  sys : Sys
  /-- The timers, on a kernel that is not used. -/
  timerSys : TimerSys
  /-- The next statement of the service task. -/
  pc : ServicePc

/-- The timers on the kernel of the system. -/
def ServiceSys.timing (σ : ServiceSys) : TimerSys :=
  σ.timerSys.withTimers { σ.timerSys.timers with kernel := σ.sys.kernel }

/-- The state after a function of `timer.c`. -/
def ServiceSys.put (σ : ServiceSys) (s : TimerSys) : ServiceSys :=
  { σ with sys := σ.sys.onIsr s.timers.kernel, timerSys := s }

/-- What can happen: something outside `timer.c`, a call of `timer.c` or its tick, and the statements of
the service task. -/
inductive ServiceOp
  /-- A call. -/
  | call (op : KernelOp)
  /-- A call on a timer, or `os_timer_tick`. -/
  | timer (op : TimerOp)
  /-- The service task calls `os_sem_take`. -/
  | take
  /-- It returns from there. -/
  | taken
  /-- It takes over the expired list. -/
  | grab
  /-- It calls the next callback. -/
  | callNext

/-- **One step.** -/
def serviceStep (fuel : Nat) (svc : TaskId) (σ : ServiceSys) : ServiceOp → Option ServiceSys
  | .call op => (kernelStep σ.sys op).map fun s => { σ with sys := s }
  | .timer op => (timerStep fuel σ.timing op).map σ.put
  -- the take returns at once, or the task is inside it now
  | .take => (step σ.sys (.semTake timerSem waitForever)).map fun s =>
      { σ with sys := s, pc := if s.call svc = .idle then .grab else .taking }
  | .taken => (step σ.sys .returnFromCall).map fun s => { σ with sys := s, pc := .grab }
  | .grab => some { σ.put (grabExpired σ.timing) with pc := .work }
  | .callNext =>
      match callTimer σ.timing with
      | some s => some (σ.put s)
      -- the inner loop is over
      | none => some { σ with pc := .take }

/-- The object that a call works on. -/
def KernelOp.object : KernelOp → Option Obj
  | .op o => o.object
  | .setPriority .. => none
  | .overwrite q _ | .overwriteFromIsr q _ => some (.queue q)

/-- The current task does it. -/
def KernelOp.byTask : KernelOp → Bool
  | .op o => o.caller = .task || o.caller = .startup || o.caller = .resumed
  | .setPriority .. | .overwrite .. => true
  | .overwriteFromIsr .. => false

/-- A function of `timer.c` that is not part of the service task. -/
def TimerOp.isCall : TimerOp → Bool
  | .grab | .callNext | .other _ => false
  | _ => true

/-- **What can happen when.** `timer_sem` is static, nobody but `timer.c` uses it. The service task makes
calls of its own in its callbacks only. -/
def ServiceStep (svc : TaskId) (σ : ServiceSys) : ServiceOp → Prop
  | .call op => ListedStep σ.sys op ∧ op.object ≠ some (.sem timerSem) ∧
      (op.byTask = true → σ.sys.kernel.current = some svc → σ.pc = .work)
  | .timer op => op.isCall = true
  | .take => σ.pc = .take ∧ SafeStep σ.sys (.semTake timerSem waitForever) ∧
      σ.sys.kernel.current = some svc
  | .taken => σ.pc = .taking ∧ SafeStep σ.sys .returnFromCall ∧ σ.sys.kernel.current = some svc
  | .grab => σ.pc = .grab ∧ σ.sys.Permits .task ∧ σ.sys.kernel.current = some svc
  | .callNext => σ.pc = .work ∧ σ.sys.Permits .task ∧ σ.sys.kernel.current = some svc

/-! ## What calls of `timer.c` leave alone -/

/-- The kernel and the expired list stay. -/
structure Timers.Aside (tm tm' : Timers) : Prop where
  /-- The kernel. -/
  kernel : tm'.kernel = tm.kernel
  /-- The expired list. -/
  expired : tm'.expiredList = tm.expiredList

namespace Timers.Aside

/-- What stays twice stays. -/
theorem trans {tm'' : Timers} (h : tm.Aside tm') (h' : tm'.Aside tm'') : tm.Aside tm'' :=
  ⟨h'.kernel.trans h.kernel, h'.expired.trans h.expired⟩

/-- Inserting a timer leaves kernel and expired list alone. -/
theorem insert (h : prvTimerInsertSorted fuel tm t = some tm') : tm.Aside tm' := by
  obtain ⟨⟨prev, iter⟩, -, h⟩ := Option.bind_eq_some_iff.mp h
  obtain rfl := Option.some.inj h
  have hset : SameSettings (tm.setNext t none) (linkTimer (tm.setNext t none) t prev iter) :=
    settings_linkTimer
  exact ⟨hset.kernel, hset.expiredList⟩

/-- So does unlinking one. -/
theorem unlink (tm : Timers) (t : TimerId) (prev : Option TimerId) :
    tm.Aside (unlinkTimer tm t prev) := by
  unfold unlinkTimer
  cases prev with
  | none =>
      dsimp only
      split <;> exact ⟨rfl, rfl⟩
  | some p =>
      dsimp only
      split <;> exact ⟨rfl, rfl⟩

/-- So does removing one. -/
theorem remove (h : prvTimerRemoveFromActive fuel tm t = some tm') : tm.Aside tm' := by
  obtain ⟨r, -, rfl⟩ := Option.map_eq_some_iff.mp h
  cases r with
  | none => exact ⟨rfl, rfl⟩
  | some prev => exact unlink tm t prev

/-- A timer that is taken out, if it is active, and inserted again. -/
theorem reinsert {f : Timers → Timers} (hf : ∀ tm : Timers, tm.Aside (f tm))
    (h : (prvTimerRemoveFromActive fuel tm t).bind (fun tm₁ => prvTimerInsertSorted fuel (f tm₁) t)
      = some tm') : tm.Aside tm' := by
  obtain ⟨tm₁, h₁, h⟩ := Option.bind_eq_some_iff.mp h
  exact ((remove h₁).trans (hf tm₁)).trans (insert h)

/-- **The critical sections.** -/
theorem body (op : TimerOp) {f : Timers → Option Timers} (hop : op.body fuel = some f)
    (h : f tm = some tm') : tm.Aside tm' := by
  have hstop : ∀ {t}, stopTimer fuel tm t = some tm' → tm.Aside tm' := by
    intro t h
    unfold stopTimer at h
    split at h
    · obtain ⟨tm₁, h₁, h⟩ := Option.bind_eq_some_iff.mp h
      obtain rfl := Option.some.inj h
      exact (remove h₁).trans ⟨rfl, rfl⟩
    · obtain rfl := Option.some.inj h
      exact ⟨rfl, rfl⟩
  have hstart : ∀ {t}, startTimer fuel tm t = some tm' → tm.Aside tm' := by
    intro t h
    unfold startTimer at h
    split at h
    · exact reinsert (f := fun tm₁ => (tm₁.setRemaining t (tm₁.timer t).period).setActive t true)
        (fun _ => ⟨rfl, rfl⟩) h
    · have hins := insert h
      exact ⟨hins.kernel, hins.expired⟩
  have hreset : ∀ {t}, resetTimer fuel tm t = some tm' → tm.Aside tm' := by
    intro t h
    unfold resetTimer at h
    split at h
    · exact reinsert (f := fun tm₁ => tm₁.setRemaining t (tm₁.timer t).period) (fun _ => ⟨rfl, rfl⟩) h
    · obtain rfl := Option.some.inj h
      exact ⟨rfl, rfl⟩
  have hchange : ∀ {t p}, (if p = 0 then some tm else changePeriodTimer fuel tm t p) = some tm' →
      tm.Aside tm' := by
    intro t p h
    split at h
    · obtain rfl := Option.some.inj h
      exact ⟨rfl, rfl⟩
    · unfold changePeriodTimer at h
      dsimp only at h
      split at h
      · have hr := reinsert (f := fun tm₁ => tm₁.setRemaining t p) (fun _ => ⟨rfl, rfl⟩) h
        exact ⟨hr.kernel, hr.expired⟩
      · obtain rfl := Option.some.inj h
        exact ⟨rfl, rfl⟩
  cases op with
  | delete | stop | stopFromIsr =>
      obtain rfl := Option.some.inj hop
      exact hstop h
  | start | startFromIsr =>
      obtain rfl := Option.some.inj hop
      exact hstart h
  | reset | resetFromIsr =>
      obtain rfl := Option.some.inj hop
      exact hreset h
  | changePeriod | changePeriodFromIsr =>
      obtain rfl := Option.some.inj hop
      exact hchange h
  | _ => cases hop

end Timers.Aside

/-- A critical section of a task. -/
theorem aside_inCritical {f : Timers → Option Timers} (hf : ∀ tm tm', f tm = some tm' → tm.Aside tm')
    (h : tm.inCritical f = some tm') :
    tm'.kernel = osSchedExitCritical (osSchedEnterCritical tm.kernel) ∧
      tm'.expiredList = tm.expiredList := by
  obtain ⟨tm₁, h₁, rfl⟩ := Option.map_eq_some_iff.mp h
  have haside := hf _ _ h₁
  refine ⟨?_, haside.expired⟩
  show osSchedExitCritical tm₁.kernel = _
  rw [haside.kernel]

/-- A critical section of a handler puts the mask back. -/
theorem aside_inPortCritical {f : Timers → Option Timers}
    (hf : ∀ tm tm', f tm = some tm' → tm.Aside tm') (h : tm.inPortCritical f = some tm') :
    tm.Aside tm' := by
  obtain ⟨tm₁, h₁, rfl⟩ := Option.map_eq_some_iff.mp h
  have haside := hf _ _ h₁
  refine ⟨?_, haside.expired⟩
  show { tm₁.kernel with primask := tm.kernel.primask } = _
  rw [haside.kernel]

/-- **A call of `timer.c`** is a critical section at most, and does not touch the expired list. -/
theorem timerStep_aside {ts ts' : TimerSys} {op : TimerOp} (hop : op.isCall = true) (htick : op ≠ .tick)
    (hs : timerStep fuel ts op = some ts') :
    (ts'.timers.kernel = ts.timers.kernel ∨
        ts'.timers.kernel = osSchedExitCritical (osSchedEnterCritical ts.timers.kernel)) ∧
      ts'.timers.expiredList = ts.timers.expiredList := by
  have hcrit : ∀ {c : Option Timers} {f : Timers → Option Timers},
      (∀ tm tm', f tm = some tm' → tm.Aside tm') → c = ts.timers.inCritical f →
      c.map ts.withTimers = some ts' →
      (ts'.timers.kernel = ts.timers.kernel ∨
        ts'.timers.kernel = osSchedExitCritical (osSchedEnterCritical ts.timers.kernel)) ∧
      ts'.timers.expiredList = ts.timers.expiredList := by
    rintro c f hf rfl hc
    obtain ⟨tm, htm, rfl⟩ := Option.map_eq_some_iff.mp hc
    obtain ⟨hk, he⟩ := aside_inCritical hf htm
    exact ⟨Or.inr hk, he⟩
  have hport : ∀ {c : Option Timers} {f : Timers → Option Timers},
      (∀ tm tm', f tm = some tm' → tm.Aside tm') → c = ts.timers.inPortCritical f →
      c.map ts.withTimers = some ts' →
      (ts'.timers.kernel = ts.timers.kernel ∨
        ts'.timers.kernel = osSchedExitCritical (osSchedEnterCritical ts.timers.kernel)) ∧
      ts'.timers.expiredList = ts.timers.expiredList := by
    rintro c f hf rfl hc
    obtain ⟨tm, htm, rfl⟩ := Option.map_eq_some_iff.mp hc
    obtain ⟨hk, he⟩ := aside_inPortCritical hf htm
    exact ⟨Or.inl hk, he⟩
  -- a zero period is refused before the critical section
  have hchange : ∀ {t p} {tm tm' : Timers}, p ≠ 0 → changePeriodTimer fuel tm t p = some tm' →
      tm.Aside tm' := by
    intro t p tm tm' hp h
    have hif : (if p = 0 then some tm else changePeriodTimer fuel tm t p) = some tm' := by
      rw [if_neg hp]
      exact h
    exact .body (.changePeriod t p) rfl hif
  cases op with
  | create t p ty cb =>
      obtain rfl := Option.some.inj hs
      show ((osTimerCreate ts.timers t p ty cb).2.kernel = _ ∨ _) ∧ _
      unfold osTimerCreate
      split
      · exact ⟨Or.inl rfl, rfl⟩
      · exact ⟨Or.inl rfl, rfl⟩
  | delete t => exact hcrit (fun _ _ h => .body (.delete t) rfl h) rfl hs
  | start t => exact hcrit (fun _ _ h => .body (.start t) rfl h) rfl hs
  | stop t => exact hcrit (fun _ _ h => .body (.stop t) rfl h) rfl hs
  | reset t => exact hcrit (fun _ _ h => .body (.reset t) rfl h) rfl hs
  | startFromIsr t => exact hport (fun _ _ h => .body (.start t) rfl h) rfl hs
  | stopFromIsr t => exact hport (fun _ _ h => .body (.stop t) rfl h) rfl hs
  | resetFromIsr t => exact hport (fun _ _ h => .body (.reset t) rfl h) rfl hs
  | changePeriod t p =>
      obtain ⟨r, hr, rfl⟩ := Option.map_eq_some_iff.mp hs
      unfold osTimerChangePeriod at hr
      split at hr
      · obtain rfl := Option.some.inj hr
        exact ⟨Or.inl rfl, rfl⟩
      · next hp =>
          obtain ⟨tm, htm, rfl⟩ := Option.map_eq_some_iff.mp hr
          obtain ⟨hk, he⟩ := aside_inCritical (fun _ _ h => hchange hp h) htm
          exact ⟨Or.inr hk, he⟩
  | changePeriodFromIsr t p =>
      obtain ⟨r, hr, rfl⟩ := Option.map_eq_some_iff.mp hs
      unfold osTimerChangePeriodFromIsr at hr
      split at hr
      · obtain rfl := Option.some.inj hr
        exact ⟨Or.inl rfl, rfl⟩
      · next hp =>
          obtain ⟨tm, htm, rfl⟩ := Option.map_eq_some_iff.mp hr
          obtain ⟨hk, he⟩ := aside_inPortCritical (fun _ _ h => hchange hp h) htm
          exact ⟨Or.inl hk, he⟩
  | tick => exact absurd rfl htick
  | _ => cases hop

/-- The loop of the tick leaves the kernel alone, and without an expiry the expired list too. -/
theorem aside_expireLoop {walk : Nat} {ts : List TimerId}
    (h : expireLoop walk fuel tm = some (ts, tm')) :
    tm'.kernel = tm.kernel ∧ (ts = [] → tm'.expiredList = tm.expiredList) := by
  induction fuel generalizing tm ts with
  | zero =>
      unfold expireLoop at h
      split at h
      · obtain ⟨-, rfl⟩ := Prod.mk.inj (Option.some.inj h)
        exact ⟨rfl, fun _ => rfl⟩
      · split at h
        · obtain ⟨-, rfl⟩ := Prod.mk.inj (Option.some.inj h)
          exact ⟨rfl, fun _ => rfl⟩
        · cases h
  | succ fuel ih =>
      unfold expireLoop at h
      split at h
      · obtain ⟨-, rfl⟩ := Prod.mk.inj (Option.some.inj h)
        exact ⟨rfl, fun _ => rfl⟩
      · split at h
        · obtain ⟨-, rfl⟩ := Prod.mk.inj (Option.some.inj h)
          exact ⟨rfl, fun _ => rfl⟩
        · obtain ⟨tm₁, h₁, h⟩ := Option.bind_eq_some_iff.mp h
          obtain ⟨⟨us, tm₂⟩, h₂, h⟩ := Option.bind_eq_some_iff.mp h
          obtain ⟨rfl, rfl⟩ := Prod.mk.inj (Option.some.inj h)
          refine ⟨(ih h₂).1.trans ?_, fun hnil => by cases hnil⟩
          obtain ⟨tm₀, h₀, rfl⟩ := Option.map_eq_some_iff.mp h₁
          show tm₀.kernel = tm.kernel
          split at h₀
          · exact (Timers.Aside.insert h₀).kernel
          · obtain rfl := Option.some.inj h₀
            rfl

/-- **The tick** changes nothing outside the active list, or gives the semaphore. -/
theorem osTimerTick_gives {ts : List TimerId} (h : osTimerTick fuel tm = some (ts, tm')) :
    tm.Aside tm' ∨ ∃ r, osSemGive tm.kernel timerSem = some r ∧ tm'.kernel = r.1 := by
  unfold osTimerTick at h
  split at h
  · obtain ⟨-, rfl⟩ := Prod.mk.inj (Option.some.inj h)
    exact Or.inl ⟨rfl, rfl⟩
  · obtain ⟨⟨us, tm₁⟩, hloop, h⟩ := Option.bind_eq_some_iff.mp h
    have hdown := settings_countDown tm
    obtain ⟨hk, hexp⟩ := aside_expireLoop hloop
    dsimp only at h
    split at h
    · next hnil =>
        obtain ⟨-, rfl⟩ := Prod.mk.inj (Option.some.inj h)
        exact Or.inl ⟨hk.trans hdown.kernel, (hexp hnil).trans hdown.expiredList⟩
    · obtain ⟨r, hr, h⟩ := Option.bind_eq_some_iff.mp h
      obtain ⟨-, rfl⟩ := Prod.mk.inj (Option.some.inj h)
      rw [hk, hdown.kernel] at hr
      exact Or.inr ⟨r, hr, rfl⟩

/-! ## The signal -/

/-- A give keeps the lists in order, whoever is current. -/
theorem TaskListInv.calm_osSemGive {r : Kernel × Status} (h : TaskListInv k L)
    (hs : MiniRTOS.osSemGive k a = some r) : CalmInv k L r.1 := by
  cases hc : k.current with
  | some c =>
      obtain ⟨r', hr', hcalm⟩ := h.osSemGive (s := a) hc
      obtain rfl := Option.some.inj (hr'.symm.trans hs)
      exact hcalm
  | none =>
      have h' := (h.enterCritical.wakeTask (w := .sem a) (by simp)).enterCritical
      unfold MiniRTOS.osSemGive Sem.prvWakeTask at hs
      dsimp only at hs
      split at hs
      · next x k₂ heq =>
          -- a waiter would be compared with the current task
          rw [heq] at h'
          rw [h'.exitCritical.current.trans hc] at hs
          cases hs
      · split at hs
        · obtain rfl := Option.some.inj hs
          exact (h.enterCritical.calm_setSemCount _).enterCritical.exitCritical
        · obtain rfl := Option.some.inj hs
          exact (CalmInv.refl h.enterCritical).enterCritical.exitCritical

/-- A give fails only when the semaphore is full. -/
theorem osSemGive_full {r : Kernel × Status} (h : osSemGive k a = some r) (hr : r.2 = .errFull) :
    (k.waits.tokens a).2 ≤ (k.waits.tokens a).1 := by
  unfold osSemGive at h
  dsimp only at h
  split at h
  · obtain ⟨c, -, h⟩ := Option.bind_eq_some_iff.mp h
    obtain rfl := Option.some.inj h
    cases hr
  · split at h
    · obtain rfl := Option.some.inj h
      cases hr
    · next hfull => exact Nat.not_lt.mp hfull

/-- **Where the signal is.** Only the service task waits for `timer_sem`, and only when there is no token.
While a timer has expired there is one, or the service task has got it and not yet been at the list. -/
structure ServiceInv (svc : TaskId) (σ : ServiceSys) : Prop where
  /-- The lists and the mutexes are in order. -/
  locks : ∃ L, LockInv σ.sys L
  /-- The semaphore has room for a token. -/
  room : 0 < (σ.sys.kernel.waits.tokens timerSem).2
  /-- Who waits. -/
  only : ∀ x, σ.sys.kernel.WaitsOn (.sem timerSem) x → x = svc ∧ σ.pc = .taking
  /-- A waiter finds no token. -/
  exhausted : σ.sys.kernel.WaitsOn (.sem timerSem) svc → (σ.sys.kernel.waits.tokens timerSem).1 = 0
  /-- The signal for the expired timers. -/
  signalled : σ.timerSys.timers.expiredList ≠ none →
    0 < (σ.sys.kernel.waits.tokens timerSem).1 ∨ σ.pc = .grab ∨
      σ.pc = .taking ∧ ¬ σ.sys.kernel.WaitsOn (.sem timerSem) svc

variable {σ σ' : ServiceSys}

/-- A call of the rest of the system leaves the semaphore alone. -/
theorem kernelStep_elsewhere {op : KernelOp} (h : LockInv s L) (hop : ListedStep s op)
    (hobj : op.object ≠ some (.sem a)) (hs : kernelStep s op = some s') :
    s'.kernel.waits.tokens a = s.kernel.waits.tokens a ∧
      ∀ x, s'.kernel.WaitsOn (.sem a) x ↔ s.kernel.WaitsOn (.sem a) x := by
  have hinv := h.tasks.lists
  cases op with
  | op o =>
      have hm := step_moves hinv hop.1.1 hs
      exact ⟨hm.tokens a hobj, hm.waitsOn_iff hinv hobj⟩
  | setPriority x p =>
      obtain rfl := Option.some.inj hs
      have hw : (osTaskSetPriority s.kernel x p).waits = s.kernel.waits := waits_osTaskSetPriority ..
      exact ⟨congrFun (congrArg Waits.tokens hw) a,
        waitsOn_congr (congrArg Waits.phases hw) (congrArg Waits.live hw)⟩
  | overwrite q item =>
      obtain rfl := Option.some.inj hs
      have hm := Moves.overwrites item hinv (waits_osQueueOverwrite s.kernel q item)
      exact ⟨hm.tokens a (by simp [Op.object]), hm.waitsOn_iff hinv (by simp [Op.object])⟩
  | overwriteFromIsr q item =>
      obtain rfl := Option.some.inj hs
      have hm := Moves.overwrites item hinv (waits_osQueueOverwriteFromIsr s.kernel q item)
      exact ⟨hm.tokens a (by simp [Op.object]), hm.waitsOn_iff hinv (by simp [Op.object])⟩

namespace ServiceInv

/-- A step that leaves the semaphore and the expired list alone. -/
theorem frame (h : ServiceInv svc σ) (hl : ∃ L, LockInv σ'.sys L)
    (htok : σ'.sys.kernel.waits.tokens timerSem = σ.sys.kernel.waits.tokens timerSem)
    (hon : ∀ x, σ'.sys.kernel.WaitsOn (.sem timerSem) x ↔ σ.sys.kernel.WaitsOn (.sem timerSem) x)
    (hexp : σ'.timerSys.timers.expiredList = σ.timerSys.timers.expiredList) (hpc : σ'.pc = σ.pc) :
    ServiceInv svc σ' := by
  refine ⟨hl, htok ▸ h.room, fun x hx => ?_, fun hx => ?_, fun hne => ?_⟩
  · rw [hpc]
    exact h.only x ((hon x).mp hx)
  · rw [htok]
    exact h.exhausted ((hon svc).mp hx)
  · rw [htok, hpc, hon]
    exact h.signalled (hexp ▸ hne)

/-- Nobody waits while the service task is elsewhere. -/
theorem nobody (h : ServiceInv svc σ) (hpc : σ.pc ≠ .taking) (x : TaskId) :
    ¬ σ.sys.kernel.WaitsOn (.sem timerSem) x := fun hx => hpc (h.only x hx).2

/-- **The tick gives the semaphore.** -/
theorem give {ts : TimerSys} {r : Kernel × Status} (h : ServiceInv svc σ)
    (hr : osSemGive σ.sys.kernel timerSem = some r) (hk : ts.timers.kernel = r.1) :
    ServiceInv svc (σ.put ts) := by
  obtain ⟨L, hl⟩ := h.locks
  have hkernel : (σ.put ts).sys.kernel = r.1 := hk
  have hlocks : ∃ L', LockInv (σ.put ts).sys L' := by
    refine hl.of_calm ?_ ?_ rfl rfl
    · rw [hkernel]
      exact hl.tasks.lists.calm_osSemGive hr
    · rw [hkernel, view_osSemGive hr]
  have hturn := waits_osSemGive hr
  have hhead := hl.tasks.lists.lists.head (.wait (.sem timerSem))
  rw [← hkernel] at hturn
  have hfull := osSemGive_full hr
  cases hturn with
  | handsOff t ht _ hw =>
      -- the service task gets the token
      have hon : σ.sys.kernel.WaitsOn (.sem timerSem) t :=
        hl.tasks.lists.mem_sem_iff.mp (List.mem_of_mem_head? (hhead.symm.trans ht))
      obtain ⟨rfl, hpc⟩ := h.only t hon
      have hon' : ∀ x, ¬ (σ.put ts).sys.kernel.WaitsOn (.sem timerSem) x := fun x hx => by
        rw [waitsOn_set hw] at hx
        split at hx
        · simp [Phase.woken] at hx
        · next hne => exact hne (h.only x hx).1
      exact ⟨hlocks, hw ▸ h.room, fun x hx => absurd hx (hon' x), fun hx => absurd hx (hon' t),
        fun _ => Or.inr (Or.inr ⟨hpc, hon' t⟩)⟩
  | counts hnone hlt _ hw =>
      have hiff := waitsOn_setTokens (o := .sem timerSem) hw
      have htok : (σ.put ts).sys.kernel.waits.tokens timerSem
          = ((σ.sys.kernel.waits.tokens timerSem).1 + 1, (σ.sys.kernel.waits.tokens timerSem).2) := by
        rw [hw]
        simp only [Waits.setTokens, Function.update_self]
      have hnobody : ∀ x, ¬ σ.sys.kernel.WaitsOn (.sem timerSem) x := fun x hx => by
        have hmem := hl.tasks.lists.mem_sem_iff.mpr hx
        have hnil : L (.wait (.sem timerSem)) = [] :=
          List.head?_eq_none_iff.mp (hhead.symm.trans hnone)
        rw [hnil] at hmem
        cases hmem
      refine ⟨hlocks, ?_, fun x hx => absurd ((hiff x).mp hx) (hnobody x),
        fun hx => absurd ((hiff svc).mp hx) (hnobody svc), fun _ => Or.inl ?_⟩
      · rw [htok]
        exact h.room
      · rw [htok]
        exact Nat.succ_pos _
  | fails _ hr' hw =>
      -- the token that is there already stands for these timers too
      have hiff : ∀ x, (σ.put ts).sys.kernel.WaitsOn (.sem timerSem) x ↔
          σ.sys.kernel.WaitsOn (.sem timerSem) x :=
        waitsOn_congr (congrArg Waits.phases hw) (congrArg Waits.live hw)
      refine ⟨hlocks, hw ▸ h.room, fun x hx => h.only x ((hiff x).mp hx), fun hx => ?_,
        fun _ => Or.inl ?_⟩
      · rw [hw]
        exact h.exhausted ((hiff svc).mp hx)
      · rw [hw]
        exact lt_of_lt_of_le h.room (hfull hr')

/-- A function of `timer.c` that runs a critical section at most. -/
theorem aside {ts : TimerSys} (h : ServiceInv svc σ)
    (hk : ts.timers.kernel = σ.sys.kernel ∨
      ts.timers.kernel = osSchedExitCritical (osSchedEnterCritical σ.sys.kernel))
    (hexp : ts.timers.expiredList = σ.timerSys.timers.expiredList) : ServiceInv svc (σ.put ts) := by
  obtain ⟨L, hl⟩ := h.locks
  have hsys : (σ.put ts).sys = σ.sys.onIsr ts.timers.kernel := rfl
  have hwaits : (σ.put ts).sys.kernel.waits = σ.sys.kernel.waits := by
    show ts.timers.kernel.waits = _
    rcases hk with hk | hk <;> rw [hk]
    exact waits_osSchedExitCritical ..
  refine h.frame ⟨L, ?_⟩ (congrFun (congrArg Waits.tokens hwaits) _)
    (waitsOn_congr (congrArg Waits.phases hwaits) (congrArg Waits.live hwaits)) hexp rfl
  rw [hsys]
  rcases hk with hk | hk
  · rw [hk]
    exact hl
  · rw [hk]
    exact hl.critical

/-- **The service task at its take.** -/
theorem take (h : ServiceInv svc σ) (hop : ServiceStep svc σ .take)
    (hs : serviceStep fuel svc σ .take = some σ') : ServiceInv svc σ' := by
  obtain ⟨hpc, hsafe, hcur⟩ := hop
  obtain ⟨s, hstep, rfl⟩ := Option.map_eq_some_iff.mp hs
  obtain ⟨L, hl⟩ := h.locks
  have hlocks := hl.step hsafe hstep
  obtain ⟨c, k, r, hc, hk, rfl⟩ := Sys.blockingCall_inv hstep
  obtain rfl : c = svc := Option.some.inj (hc.symm.trans hcur)
  obtain ⟨x, hx, -, -, hidle⟩ := Sys.Permits.task hsafe.1.1.1
  obtain rfl : x = c := Option.some.inj (hx.symm.trans hcur)
  have hnobody := h.nobody (by rw [hpc]; decide)
  have hturn := waits_osSemTake hcur hk
  have hkernel : ((σ.sys.after k).outcome x (.semTake timerSem) (fun s _ => s) r).kernel = k := by
    cases r <;> rfl
  rw [← hkernel] at hturn
  generalize hs' : (σ.sys.after k).outcome x (.semTake timerSem) (fun s _ => s) r = s at *
  cases hturn with
  | takes hpos hr hw =>
      have hiff := waitsOn_setTokens (o := .sem timerSem) hw
      subst hr
      have hcall : s.call x = .idle := hs' ▸ hidle
      rw [if_pos hcall]
      have htok : (s.kernel.waits.tokens timerSem).2 = (σ.sys.kernel.waits.tokens timerSem).2 := by
        rw [hw]
        simp only [Waits.setTokens, Function.update_self]
      exact ⟨hlocks, htok ▸ h.room, fun y hy => absurd ((hiff y).mp hy) (hnobody y),
        fun hy => absurd ((hiff x).mp hy) (hnobody x), fun _ => Or.inr (Or.inl rfl)⟩
  | fails hzero hr hw =>
      have hiff : ∀ y, s.kernel.WaitsOn (.sem timerSem) y ↔ σ.sys.kernel.WaitsOn (.sem timerSem) y :=
        waitsOn_congr (congrArg Waits.phases hw) (congrArg Waits.live hw)
      subst hr
      have hcall : s.call x = .idle := hs' ▸ hidle
      rw [if_pos hcall]
      exact ⟨hlocks, hw ▸ h.room, fun y hy => absurd ((hiff y).mp hy) (hnobody y),
        fun hy => absurd ((hiff x).mp hy) (hnobody x), fun _ => Or.inr (Or.inl rfl)⟩
  | sleeps hzero hr n hw =>
      subst hr
      have hcall : s.call x = .semTake timerSem := by
        rw [← hs']
        exact Function.update_self ..
      have hbusy : ¬ s.call x = .idle := by
        rw [hcall]
        simp
      rw [if_neg hbusy]
      rw [hcur] at hw
      have hiff := waitsOn_set (o := .sem timerSem) hw
      have htok : s.kernel.waits.tokens timerSem = σ.sys.kernel.waits.tokens timerSem :=
        congrFun (congrArg Waits.tokens hw) _
      refine ⟨hlocks, htok ▸ h.room, fun y hy => ⟨?_, rfl⟩, fun _ => ?_, fun hne => ?_⟩
      · have hy' := (hiff y).mp hy
        split at hy'
        · next hyx => exact hyx
        · exact absurd hy' (hnobody y)
      · rw [htok]
        exact hzero
      · -- without a token no timer has expired
        rcases h.signalled hne with hpos | hgrab | ⟨htaking, -⟩
        · omega
        · cases hpc.symm.trans hgrab
        · cases hpc.symm.trans htaking

/-- **One step.** -/
theorem step {op : ServiceOp} (h : ServiceInv svc σ) (hop : ServiceStep svc σ op)
    (hs : serviceStep fuel svc σ op = some σ') : ServiceInv svc σ' := by
  obtain ⟨L, hl⟩ := h.locks
  cases op with
  | call op =>
      obtain ⟨s, hstep, rfl⟩ := Option.map_eq_some_iff.mp hs
      obtain ⟨htok, hon⟩ := kernelStep_elsewhere hl hop.1 hop.2.1 hstep
      exact h.frame (hl.kernelStep hop.1 hstep) htok hon rfl rfl
  | timer op =>
      obtain ⟨ts, hts, rfl⟩ := Option.map_eq_some_iff.mp hs
      by_cases htick : op = .tick
      · subst htick
        obtain ⟨⟨us, tm⟩, htm, rfl⟩ := Option.map_eq_some_iff.mp hts
        rcases osTimerTick_gives htm with haside | ⟨r, hr, hk⟩
        · exact h.aside (Or.inl haside.kernel) haside.expired
        · exact h.give hr hk
      · obtain ⟨hk, hexp⟩ := timerStep_aside hop htick hts
        exact h.aside hk hexp
  | take => exact h.take hop hs
  | taken =>
      obtain ⟨hpc, hsafe, hcur⟩ := hop
      obtain ⟨s, hstep, rfl⟩ := Option.map_eq_some_iff.mp hs
      have hlisted : ListedStep σ.sys (.op .returnFromCall) := hsafe
      have hobj : (KernelOp.op .returnFromCall).object ≠ some (.sem timerSem) := by
        simp [KernelOp.object, Op.object]
      obtain ⟨htok, hon⟩ := kernelStep_elsewhere hl hlisted hobj hstep
      -- it runs, so it has been woken
      obtain ⟨c, hc, hlive, hst, -⟩ := Sys.Permits.resumed hsafe.1.1.1
      obtain rfl : c = svc := Option.some.inj (hc.symm.trans hcur)
      have hnot : ∀ x, ¬ s.kernel.WaitsOn (.sem timerSem) x := fun x hx => by
        have hx' := (hon x).mp hx
        obtain ⟨rfl, -⟩ := h.only x hx'
        have hnone := hl.tasks.lists.blockedOn_of_ready hlive (Tcb.phase_state_ready.mpr hst)
        cases hx'.2.symm.trans hnone
      exact ⟨hl.step hsafe hstep, htok ▸ h.room, fun x hx => absurd hx (hnot x),
        fun hx => absurd hx (hnot c), fun _ => Or.inr (Or.inl rfl)⟩
  | grab =>
      obtain rfl := Option.some.inj hs
      obtain ⟨hpc, -⟩ := hop
      have hnobody := h.nobody (by rw [hpc]; decide)
      exact ⟨⟨L, hl.critical⟩, h.room, fun x hx => absurd hx (hnobody x),
        fun hx => absurd hx (hnobody svc), fun hne => absurd rfl hne⟩
  | callNext =>
      obtain ⟨hpc, -⟩ := hop
      have hnobody := h.nobody (by rw [hpc]; decide)
      unfold serviceStep at hs
      dsimp only at hs
      split at hs
      · next ts hts =>
          obtain rfl := Option.some.inj hs
          obtain ⟨t, -, ht⟩ := Option.bind_eq_some_iff.mp hts
          obtain rfl := Option.some.inj ht
          exact h.aside (Or.inl rfl) rfl
      · obtain rfl := Option.some.inj hs
        refine ⟨h.locks, h.room, fun x hx => absurd hx (hnobody x), fun hx => absurd hx (hnobody svc),
          fun hne => ?_⟩
        rcases h.signalled hne with hpos | hgrab | ⟨htaking, -⟩
        · exact Or.inl hpos
        · cases hpc.symm.trans hgrab
        · cases hpc.symm.trans htaking

end ServiceInv

/-! ## Runs -/

/-- The steps of `os_timer_init`. -/
def timerInitOps (tcbBlock : Option Addr) : List KernelOp :=
  [.op (.semCreateCounting timerSem 1 0), .op (.create (timerServiceArgs tcbBlock))]

/-- The two of them in turn. -/
theorem timerInit_steps {b : Option Addr} {guard : Sys → KernelOp → Prop}
    (hr : Run guard kernelStep s₁ (timerInitOps b) s₂) :
    ∃ s, (guard s₁ (.op (.semCreateCounting timerSem 1 0)) ∧
        kernelStep s₁ (.op (.semCreateCounting timerSem 1 0)) = some s) ∧
      guard s (.op (.create (timerServiceArgs b))) ∧
        kernelStep s (.op (.create (timerServiceArgs b))) = some s₂ := by
  obtain _ | ⟨hg, hs, hr⟩ := hr
  obtain _ | ⟨hg', hs', hr⟩ := hr
  obtain _ | _ := hr
  exact ⟨_, ⟨hg, hs⟩, hg', hs'⟩

/-- They are what the function does, the first time. -/
theorem kernel_timerInit {b : Option Addr} {guard : Sys → KernelOp → Prop}
    (hr : Run guard kernelStep s₁ (timerInitOps b) s₂) :
    s₂.kernel = (osTimerInit s₁.kernel false b).2.2 := by
  obtain ⟨s, ⟨-, hs⟩, -, hs'⟩ := timerInit_steps hr
  obtain rfl := Option.some.inj hs
  obtain rfl := Option.some.inj hs'
  rw [Sys.kernel_created]
  unfold osTimerInit
  rw [osSemCreateBinary_eq]
  dsimp only
  split
  · next hfalse => cases hfalse
  · split <;> rfl

/-- After it nobody waits for the new semaphore, and it can hold a token. -/
theorem serviceInv_start {ts : TimerSys} (h : LockInv s₁ L)
    (hr : Run ListedStep kernelStep s₁ (timerInitOps (some svc)) s₂) (ht : ts.Init) :
    ServiceInv svc ⟨s₂, ts, .take⟩ := by
  obtain ⟨s, ⟨hg, hs⟩, hg', hs'⟩ := timerInit_steps hr
  obtain ⟨L', h'⟩ := h.kernelStep hg hs
  have hobj : (KernelOp.op (.create (timerServiceArgs (some svc)))).object ≠ some (.sem timerSem) := by
    simp [KernelOp.object, Op.object]
  obtain ⟨htok, hon⟩ := kernelStep_elsewhere h' hg' hobj hs'
  obtain rfl := Option.some.inj hs
  have hfresh : s₁.kernel.waitHead (.sem timerSem) = none :=
    hg.1.1.2.2.2 (.sem timerSem) (by simp [Op.fresh])
  have hnobody : ∀ x, ¬ s₁.kernel.WaitsOn (.sem timerSem) x := fun x hx => by
    have hmem := h.tasks.lists.mem_sem_iff.mpr hx
    have hhead : s₁.kernel.waitHead (.sem timerSem) = (L (.wait (.sem timerSem))).head? :=
      h.tasks.lists.lists.head (.wait (.sem timerSem))
    rw [List.head?_eq_none_iff.mp (hhead.symm.trans hfresh)] at hmem
    cases hmem
  have hnot : ∀ x, ¬ s₂.kernel.WaitsOn (.sem timerSem) x := fun x hx => hnobody x ((hon x).mp hx)
  refine ⟨h'.kernelStep hg' hs', ?_, fun x hx => absurd hx (hnot x), fun hx => absurd hx (hnot svc),
    fun hne => absurd ht.lists.2.1 hne⟩
  have hroom : (s₂.kernel.waits.tokens timerSem).2 = 1 := by
    rw [htok]
    show ((Function.update s₁.kernel.sems timerSem ⟨0, 1, none⟩) timerSem).maxCount = 1
    rw [Function.update_self]
  show 0 < (s₂.kernel.waits.tokens timerSem).2
  rw [hroom]
  exact Nat.one_pos

/-- The steps that can be decided. -/
def PlainServiceStep (svc : TaskId) (σ : ServiceSys) : ServiceOp → Prop
  | .call op => PlainStep σ.sys op ∧ op.object ≠ some (.sem timerSem) ∧
      (op.byTask = true → σ.sys.kernel.current = some svc → σ.pc = .work)
  | .timer op => op.isCall = true
  | .take => σ.pc = .take ∧ PlainStep σ.sys (.op (.semTake timerSem waitForever)) ∧
      σ.sys.kernel.current = some svc
  | .taken => σ.pc = .taking ∧ PlainStep σ.sys (.op .returnFromCall) ∧ σ.sys.kernel.current = some svc
  | .grab => σ.pc = .grab ∧ σ.sys.Permits .task ∧ σ.sys.kernel.current = some svc
  | .callNext => σ.pc = .work ∧ σ.sys.Permits .task ∧ σ.sys.kernel.current = some svc

/-- Whether a step is a plain one can be decided. -/
instance decidablePlainServiceStep (svc : TaskId) (σ : ServiceSys) :
    (op : ServiceOp) → Decidable (PlainServiceStep svc σ op)
  | .call _ => inferInstanceAs (Decidable (_ ∧ _))
  | .timer _ => inferInstanceAs (Decidable (_ = true))
  | .take => inferInstanceAs (Decidable (_ ∧ _))
  | .taken => inferInstanceAs (Decidable (_ ∧ _))
  | .grab => inferInstanceAs (Decidable (_ ∧ _))
  | .callNext => inferInstanceAs (Decidable (_ ∧ _))

/-- A plain step is one of the steps of the runs. -/
theorem PlainServiceStep.service {op : ServiceOp} {σ : ServiceSys} (h : PlainServiceStep svc σ op) :
    ServiceStep svc σ op := by
  cases op with
  | call op => exact ⟨h.1.listed, h.2⟩
  | take => exact ⟨h.1, h.2.1.listed, h.2.2⟩
  | taken => exact ⟨h.1, h.2.1.listed, h.2.2⟩
  | _ => exact h

/-- Two timers run out one after the other, the second one while the service task is at work on the first.
-/
def serviceTrace : List ServiceOp :=
  [.call (.op .selectNext), .timer (.create 0x30 1 .oneShot (some 0x99)),
    .timer (.create 0x31 2 .oneShot (some 0x9a)), .timer (.start 0x30), .timer (.start 0x31),
    .call (.op (.delay 100)), .call (.op .selectNext), .take, .call (.op .selectNext), .timer .tick,
    .call (.op .selectNext), .taken, .grab, .timer .tick, .callNext, .callNext]

end MiniRTOS
