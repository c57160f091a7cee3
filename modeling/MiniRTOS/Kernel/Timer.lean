import MiniRTOS.Kernel.System

/-! # Software timers

The functions of `timer.c`. The active list is singly linked through `next` and stores differences:
the `remaining` of a timer counts from the expiry of the timer before it. The same `next` field links
the expired list. Both loops over the lists and the loop of `os_timer_tick` carry a `fuel`; `none` is a
loop that the fuel does not finish. Names for debugging are left out. -/

namespace MiniRTOS

/-! ## Data -/

/-- A non-null `os_timer_t *`. -/
abbrev TimerId := Addr

/-- `os_timer_type_t`. -/
inductive TimerType
  | oneShot | autoReload
  deriving DecidableEq, Repr

/-- `os_timer_t`. -/
structure Timer where
  /-- Function to call on expiry. -/
  callback : Option Addr
  /-- Period in ticks. -/
  period : BitVec 32
  /-- Ticks until expiry, counted from the expiry of the timer before it in the active list. -/
  remaining : BitVec 32
  /-- One-shot or auto-reload. -/
  type : TimerType
  /-- Is the timer running? -/
  active : Bool
  /-- Linked list pointer. -/
  next : Option TimerId
  deriving DecidableEq

/-- The file-scope variables of `timer.c`, the timers, and the kernel they run on. -/
structure Timers where
  /-- The kernel. -/
  kernel : Kernel
  /-- The timer control blocks. -/
  timer : TimerId → Timer
  /-- `active_timer_list`. -/
  activeTimerList : Option TimerId
  /-- `expired_list`. -/
  expiredList : Option TimerId

/-- Address of the static `timer_sem`. -/
def timerSem : Addr := 0x20000400

namespace Timers

/-- Write one control block. -/
def set (s : Timers) (t : TimerId) (v : Timer) : Timers :=
  { s with timer := Function.update s.timer t v }

/-- `timer->next = v`. -/
def setNext (s : Timers) (t : TimerId) (v : Option TimerId) : Timers :=
  s.set t { s.timer t with next := v }

/-- `timer->remaining = v`. -/
def setRemaining (s : Timers) (t : TimerId) (v : BitVec 32) : Timers :=
  s.set t { s.timer t with remaining := v }

/-- `timer->active = v`. -/
def setActive (s : Timers) (t : TimerId) (v : Bool) : Timers :=
  s.set t { s.timer t with active := v }

/-- `timer->period = v`. -/
def setPeriod (s : Timers) (t : TimerId) (v : BitVec 32) : Timers :=
  s.set t { s.timer t with period := v }

end Timers

/-! ## The active list -/

/-- The loop of `prv_timer_insert_sorted`: the first timer with more ticks remaining than `r`, and
the one before it. -/
def insertWalk (tm : TimerId → Timer) (r : BitVec 32) :
    Nat → Option TimerId → Option TimerId → Option (Option TimerId × Option TimerId)
  | _, prev, none => some (prev, none)
  | 0, _, some _ => none
  | fuel + 1, prev, some iter =>
      -- `remaining` is a difference for every timer but the first
      if r < (tm iter).remaining then some (prev, some iter)
      else insertWalk tm r fuel (some iter) (tm iter).next

/-- The part of `prv_timer_insert_sorted` after its loop. Only the difference of the preceding timer
is subtracted. -/
def linkTimer (s : Timers) (t : TimerId) (prev iter : Option TimerId) : Timers :=
  let s₁ :=
    match prev with
    | some p => s.setRemaining t ((s.timer t).remaining - (s.timer p).remaining)
    | none => s
  let s₂ :=
    -- the subtrahend is the value the line above has left in `t`
    match iter with
    | some i => s₁.setRemaining i ((s₁.timer i).remaining - (s₁.timer t).remaining)
    | none => s₁
  let s₃ := s₂.setNext t iter
  match prev with
  | some p => s₃.setNext p (some t)
  | none => { s₃ with activeTimerList := some t }

/-- `prv_timer_insert_sorted`. The position is found by comparing with the differences. -/
def prvTimerInsertSorted (fuel : Nat) (s : Timers) (t : TimerId) : Option Timers := do
  let s₁ := s.setNext t none
  let (prev, iter) ← insertWalk s₁.timer (s₁.timer t).remaining fuel none s₁.activeTimerList
  some (linkTimer s₁ t prev iter)

/-- The loop of `prv_timer_remove_from_active`: the timer before `t`, when `t` is in the list. -/
def removeWalk (tm : TimerId → Timer) (t : TimerId) :
    Nat → Option TimerId → Option TimerId → Option (Option (Option TimerId))
  | _, _, none => some none
  | 0, _, some _ => none
  | fuel + 1, prev, some iter =>
      if iter = t then some (some prev) else removeWalk tm t fuel (some iter) (tm iter).next

/-- The body of that loop for `t`: the next timer inherits the ticks that were left. -/
def unlinkTimer (s : Timers) (t : TimerId) (prev : Option TimerId) : Timers :=
  let s₁ :=
    match prev with
    | some p => s.setNext p (s.timer t).next
    | none => { s with activeTimerList := (s.timer t).next }
  match (s₁.timer t).next with
  -- `t` itself keeps its `next`
  | some n => s₁.setRemaining n ((s₁.timer n).remaining + (s₁.timer t).remaining)
  | none => s₁

/-- `prv_timer_remove_from_active`. -/
def prvTimerRemoveFromActive (fuel : Nat) (s : Timers) (t : TimerId) : Option Timers :=
  (removeWalk s.timer t fuel none s.activeTimerList).map fun
    | none => s
    | some prev => unlinkTimer s t prev

/-! ## Calls -/

/-- `os_timer_create`. -/
def osTimerCreate (s : Timers) (t : TimerId) (period : BitVec 32) (type : TimerType)
    (callback : Option Addr) : Status × Timers :=
  if callback = none ∨ period = 0 then (.errParam, s)
  else (.ok, s.set t ⟨callback, period, 0, type, false, none⟩)

/-- The critical section of `os_timer_stop` and `os_timer_delete`. -/
def stopTimer (fuel : Nat) (s : Timers) (t : TimerId) : Option Timers :=
  if (s.timer t).active then do
    let s₁ ← prvTimerRemoveFromActive fuel s t
    some (s₁.setActive t false)
  else some s

/-- The critical section of `os_timer_start`: a timer that is already running is first removed. -/
def startTimer (fuel : Nat) (s : Timers) (t : TimerId) : Option Timers :=
  (if (s.timer t).active then prvTimerRemoveFromActive fuel s t else some s).bind fun s₁ =>
    prvTimerInsertSorted fuel ((s₁.setRemaining t (s₁.timer t).period).setActive t true) t

/-- The critical section of `os_timer_reset`. -/
def resetTimer (fuel : Nat) (s : Timers) (t : TimerId) : Option Timers :=
  if (s.timer t).active then do
    let s₁ ← prvTimerRemoveFromActive fuel s t
    prvTimerInsertSorted fuel (s₁.setRemaining t (s₁.timer t).period) t
  else some s

/-- The critical section of `os_timer_change_period`. -/
def changePeriodTimer (fuel : Nat) (s : Timers) (t : TimerId) (newPeriod : BitVec 32) :
    Option Timers :=
  let s₁ := s.setPeriod t newPeriod
  if (s₁.timer t).active then do
    let s₂ ← prvTimerRemoveFromActive fuel s₁ t
    prvTimerInsertSorted fuel (s₂.setRemaining t newPeriod) t
  else some s₁

/-- A critical section of a task. -/
def Timers.inCritical (s : Timers) (body : Timers → Option Timers) : Option Timers :=
  (body { s with kernel := osSchedEnterCritical s.kernel }).map fun s =>
    { s with kernel := osSchedExitCritical s.kernel }

/-- A critical section between `os_port_enter_critical` and `os_port_exit_critical`. -/
def Timers.inPortCritical (s : Timers) (body : Timers → Option Timers) : Option Timers :=
  (body { s with kernel := { s.kernel with primask := 1 } }).map fun s' =>
    { s' with kernel := { s'.kernel with primask := s.kernel.primask } }

/-- `os_timer_delete`. -/
def osTimerDelete (fuel : Nat) (s : Timers) (t : TimerId) : Option Timers :=
  s.inCritical (stopTimer fuel · t)

/-- `os_timer_start`. -/
def osTimerStart (fuel : Nat) (s : Timers) (t : TimerId) : Option Timers :=
  s.inCritical (startTimer fuel · t)

/-- `os_timer_stop`. -/
def osTimerStop (fuel : Nat) (s : Timers) (t : TimerId) : Option Timers :=
  s.inCritical (stopTimer fuel · t)

/-- `os_timer_reset`. -/
def osTimerReset (fuel : Nat) (s : Timers) (t : TimerId) : Option Timers :=
  s.inCritical (resetTimer fuel · t)

/-- `os_timer_change_period`. -/
def osTimerChangePeriod (fuel : Nat) (s : Timers) (t : TimerId) (newPeriod : BitVec 32) :
    Option (Status × Timers) :=
  if newPeriod = 0 then some (.errParam, s)
  else (s.inCritical (changePeriodTimer fuel · t newPeriod)).map fun s => (.ok, s)

/-- `os_timer_start_from_isr`. -/
def osTimerStartFromIsr (fuel : Nat) (s : Timers) (t : TimerId) : Option Timers :=
  s.inPortCritical (startTimer fuel · t)

/-- `os_timer_stop_from_isr`. -/
def osTimerStopFromIsr (fuel : Nat) (s : Timers) (t : TimerId) : Option Timers :=
  s.inPortCritical (stopTimer fuel · t)

/-- `os_timer_reset_from_isr`. -/
def osTimerResetFromIsr (fuel : Nat) (s : Timers) (t : TimerId) : Option Timers :=
  s.inPortCritical (resetTimer fuel · t)

/-- `os_timer_change_period_from_isr`. -/
def osTimerChangePeriodFromIsr (fuel : Nat) (s : Timers) (t : TimerId) (newPeriod : BitVec 32) :
    Option (Status × Timers) :=
  if newPeriod = 0 then some (.errParam, s)
  else (s.inPortCritical (changePeriodTimer fuel · t newPeriod)).map fun s => (.ok, s)

/-! ## The tick -/

/-- The last lines of the loop body of `os_timer_tick`: the timer goes on the expired list. -/
def pushExpired (s : Timers) (t : TimerId) : Timers :=
  { s.setNext t s.expiredList with expiredList := some t }

/-- The loop body of `os_timer_tick` for the timer at the head of the active list. -/
def expireTimer (fuel : Nat) (s : Timers) (t : TimerId) : Option Timers :=
  let s₁ := { s with activeTimerList := (s.timer t).next }
  -- the insertion walk sees the list without the expired timer
  (if (s₁.timer t).type = .autoReload then
      prvTimerInsertSorted fuel ((s₁.setRemaining t (s₁.timer t).period).setNext t none) t
    else some (s₁.setActive t false)).map fun s₂ =>
    -- the one `next` field now links the expired list, whichever list the timer is in
    pushExpired s₂ t

/-- The loop of `os_timer_tick`, with the timers it expires. -/
def expireLoop (walk : Nat) : Nat → Timers → Option (List TimerId × Timers)
  | fuel, s =>
      match s.activeTimerList with
      | none => some ([], s)
      | some t =>
          if (s.timer t).remaining ≠ 0 then some ([], s)
          else
            match fuel with
            | 0 => none
            | fuel + 1 => do
                let s₁ ← expireTimer walk s t
                let (ts, s₂) ← expireLoop walk fuel s₁
                some (t :: ts, s₂)

/-- The first statement of `os_timer_tick`: `active_timer_list->remaining--`. -/
def countDown (s : Timers) : Timers :=
  match s.activeTimerList with
  | none => s
  | some h => s.setRemaining h ((s.timer h).remaining - 1)

/-- `os_timer_tick`, with the timers it expires: `timer_sem` is given when there are any. -/
def osTimerTick (fuel : Nat) (s : Timers) : Option (List TimerId × Timers) :=
  if s.activeTimerList = none then some ([], s)
  else do
    let (ts, s₁) ← expireLoop fuel fuel (countDown s)
    if ts = [] then some ([], s₁)
    else do
      -- given once, however many timers have expired
      let (k, _) ← osSemGive s₁.kernel timerSem
      some (ts, { s₁ with kernel := k })

/-! ## The system

The service task holds the timers it is working on in its local `list`. Each loop iteration, up to and
including the callback, is one step; the calls that the callback makes are the steps after it. -/

/-- The timers, the service task, and what has happened. -/
structure TimerSys where
  /-- The variables of `timer.c`. -/
  timers : Timers
  /-- The local `list` of `timer_service_task`. -/
  list : Option TimerId
  /-- The timers that each tick has expired, oldest tick first. -/
  ticks : List (List TimerId)
  /-- The callbacks that have been called. -/
  called : List TimerId

/-- What can happen next. -/
inductive TimerOp
  /-- `os_timer_create`. -/
  | create (t : TimerId) (period : BitVec 32) (type : TimerType) (callback : Option Addr)
  /-- `os_timer_delete`. -/
  | delete (t : TimerId)
  /-- `os_timer_start`. -/
  | start (t : TimerId)
  /-- `os_timer_stop`. -/
  | stop (t : TimerId)
  /-- `os_timer_reset`. -/
  | reset (t : TimerId)
  /-- `os_timer_change_period`. -/
  | changePeriod (t : TimerId) (newPeriod : BitVec 32)
  /-- `os_timer_start_from_isr`. -/
  | startFromIsr (t : TimerId)
  /-- `os_timer_stop_from_isr`. -/
  | stopFromIsr (t : TimerId)
  /-- `os_timer_reset_from_isr`. -/
  | resetFromIsr (t : TimerId)
  /-- `os_timer_change_period_from_isr`. -/
  | changePeriodFromIsr (t : TimerId) (newPeriod : BitVec 32)
  /-- `os_timer_tick`. -/
  | tick
  /-- The service task takes over the expired list. -/
  | grab
  /-- The service task calls the next callback. -/
  | callNext
  /-- Anything that happens to the kernel. -/
  | other (k : Kernel)

/-- The timer that a call is about. -/
def TimerOp.timer : TimerOp → Option TimerId
  | .create t .. | .delete t | .start t | .stop t | .reset t | .changePeriod t _ | .startFromIsr t
  | .stopFromIsr t | .resetFromIsr t | .changePeriodFromIsr t _ => some t
  | .tick | .grab | .callNext | .other _ => none

/-- `timer_service_task` takes over the expired list. -/
def grabExpired (s : TimerSys) : TimerSys :=
  { s with
    timers := { s.timers with
      kernel := osSchedExitCritical (osSchedEnterCritical s.timers.kernel)
      expiredList := none }
    list := s.timers.expiredList }

/-- One iteration of the inner loop of `timer_service_task`; `none` when its list is empty. -/
def callTimer (s : TimerSys) : Option TimerSys := do
  let t ← s.list
  some { s with
    timers := s.timers.setNext t none
    list := (s.timers.timer t).next
    called := if (s.timers.timer t).callback.isSome then s.called ++ [t] else s.called }

/-- The state after a call. -/
def TimerSys.withTimers (s : TimerSys) (tm : Timers) : TimerSys := { s with timers := tm }

/-- **One step of the timer system.** The service task takes over the expired list only when it has
worked off the previous one. -/
def timerStep (fuel : Nat) (s : TimerSys) : TimerOp → Option TimerSys
  | .create t p ty cb => some (s.withTimers (osTimerCreate s.timers t p ty cb).2)
  | .delete t => (osTimerDelete fuel s.timers t).map s.withTimers
  | .start t => (osTimerStart fuel s.timers t).map s.withTimers
  | .stop t => (osTimerStop fuel s.timers t).map s.withTimers
  | .reset t => (osTimerReset fuel s.timers t).map s.withTimers
  | .changePeriod t p => (osTimerChangePeriod fuel s.timers t p).map fun r => s.withTimers r.2
  | .startFromIsr t => (osTimerStartFromIsr fuel s.timers t).map s.withTimers
  | .stopFromIsr t => (osTimerStopFromIsr fuel s.timers t).map s.withTimers
  | .resetFromIsr t => (osTimerResetFromIsr fuel s.timers t).map s.withTimers
  | .changePeriodFromIsr t p =>
      (osTimerChangePeriodFromIsr fuel s.timers t p).map fun r => s.withTimers r.2
  | .tick =>
      (osTimerTick fuel s.timers).map fun r =>
        { s.withTimers r.2 with ticks := s.ticks ++ [r.1] }
  -- `timer_service_task` comes back for more only after its inner loop
  | .grab => if s.list = none then some (grabExpired s) else none
  | .callNext => callTimer s
  -- the rest of the system changes the kernel only
  | .other k => some (s.withTimers { s.timers with kernel := k })

/-- **The states after `os_timer_init`**: both lists are empty and no timer is running. -/
structure TimerSys.Init (s : TimerSys) : Prop where
  /-- The lists are empty. -/
  lists : s.timers.activeTimerList = none ∧ s.timers.expiredList = none ∧ s.list = none
  /-- No timer is active. -/
  inactive : ∀ t, (s.timers.timer t).active = false
  /-- Nothing has happened yet. -/
  log : s.ticks = [] ∧ s.called = []

/-- Zero-initialised memory. -/
def TimerSys.zero : TimerSys :=
  ⟨⟨.zero, fun _ => ⟨none, 0, 0, .oneShot, false, none⟩, none, none⟩, none, [], []⟩

end MiniRTOS
