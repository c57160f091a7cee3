import MiniRTOS.Kernel.PeriodicDelay

/-! # Tickless idle

While nobody has anything to do, the idle task lets SysTick count through several tick periods at once,
and afterwards it makes up for the ticks that were not counted. `os_tickless_idle_enter` programs the
long count from the phase of the current period; `os_tickless_idle_exit` divides what has passed by the
period, as if the sleep had begun with a fresh one, and reports at least one tick.

* **`Tickless`** — the SysTick registers and the variables of `tickless.c`.
* **`ticksCrossed`** — the tick boundaries that the periodic timer would have crossed.
* **`tickless_time_iff`** — the sleeps after which the idle task replays as many ticks. -/

namespace MiniRTOS

open Runs

/-- `OS_TICKLESS_MIN_IDLE_TICKS`. -/
def ticklessMinIdleTicks : Nat := 5

/-- `SYSTICK_LOAD_MAX`. -/
def systickLoadMax : Nat := 0xFFFFFF

/-- `SYSTICK_CTRL_ENABLE`. -/
def systickCtrlEnable : Nat := 1

/-- `SYSTICK_CTRL_TICKINT`. -/
def systickCtrlTickint : Nat := 2

/-- `SYSTICK_CTRL_CLKSOURCE`. -/
def systickCtrlClksource : Nat := 4

/-- The SysTick registers and the variables of `tickless.c`. -/
structure Tickless where
  /-- `SYSTICK_CTRL`, as far as the program writes it. -/
  ctrl : Nat
  /-- Its COUNTFLAG bit, which the hardware sets. -/
  countFlag : Bool
  /-- `SYSTICK_LOAD`, of 24 bits. -/
  load : Nat
  /-- `SYSTICK_VAL`. Any write clears it. -/
  val : Nat
  /-- `tickless_active`. -/
  active : Bool
  /-- `tickless_reload`. -/
  reload : Nat
  /-- `tickless_saved_load`. -/
  savedLoad : Nat
  deriving DecidableEq, Repr

variable {s : Tickless} {r period c n : Nat} {flag : Bool}

/-- `os_tickless_init`, for a tick rate in Hz. -/
def osTicklessInit (s : Tickless) (tickRateHz : Nat) : Tickless :=
  let reload := 72000000 / tickRateHz
  { s with active := false, reload := if systickLoadMax < reload then systickLoadMax else reload }

/-- `prv_start_one_shot`. -/
def prvStartOneShot (s : Tickless) (cycles : Nat) : Tickless :=
  { s with
    load := (cycles + (2 ^ 32 - 1)) % 2 ^ 32 % 2 ^ 24
    val := 0
    ctrl := systickCtrlEnable ||| systickCtrlClksource }

/-- `os_tickless_idle_enter`, up to its `wfi`. -/
def osTicklessIdleEnter (s : Tickless) (expectedIdleTicks : Nat) : Tickless :=
  if expectedIdleTicks < ticklessMinIdleTicks then s
  else
    let remainingInPeriod := s.val
    let totalCycles :=
      if 1 < expectedIdleTicks then
        (remainingInPeriod + (expectedIdleTicks - 1) * s.reload % 2 ^ 32) % 2 ^ 32
      else remainingInPeriod
    prvStartOneShot { s with savedLoad := s.load, ctrl := 0, active := true }
      (if systickLoadMax < totalCycles then systickLoadMax else totalCycles)

/-- The cycles that the one-shot timer counts. -/
def Tickless.programmed (s : Tickless) : Nat := s.load + 1

/-- The wake-up after `c` cycles of sleep. -/
def Tickless.wakeUp (s : Tickless) (c : Nat) (flag : Bool) : Tickless :=
  { s with val := s.programmed - c, countFlag := flag }

/-- `os_tickless_idle_exit`. -/
def osTicklessIdleExit (s : Tickless) : Nat × Tickless :=
  if s.active = false then (0, s)
  else
    let remaining := s.val
    -- both branches of the source compute the programmed count
    let totalCycles := if s.countFlag then s.load + 1 else s.load + 1
    let elapsedCycles := (totalCycles + 2 ^ 32 - remaining) % 2 ^ 32
    let elapsedTicks := elapsedCycles / s.reload
    (if elapsedTicks = 0 then 1 else elapsedTicks,
      { s with
        load := s.savedLoad
        val := 0
        ctrl := systickCtrlEnable ||| systickCtrlTickint ||| systickCtrlClksource
        active := false })

/-- The loop of `idle_task_func` that replays the ticks, each with what its hooks and timers call. -/
def idleReplay (s : Sys) : List (List Op × List Op) → Option Sys
  | [] => some s
  | (hooks, timers) :: rest => (osKernelTickIncrement s hooks timers).bind (idleReplay · rest)

/-! ## Tick boundaries -/

/-- **The tick boundaries crossed** in `c` cycles by a timer that has `r` cycles left in its period. -/
def ticksCrossed (r period c : Nat) : Nat := if c < r then 0 else 1 + (c - r) / period

/-- The boundaries lie `r`, `r + period`, `r + 2 * period` … cycles ahead. -/
theorem lt_ticksCrossed_iff {j : Nat} (hperiod : 0 < period) :
    j < ticksCrossed r period c ↔ r + j * period ≤ c := by
  unfold ticksCrossed
  split
  · next h => exact iff_of_false (Nat.not_lt_zero j) (by omega)
  · next h =>
      have hcount : j < 1 + (c - r) / period ↔ j * period ≤ c - r := by
        rw [Nat.add_comm, Nat.lt_succ_iff, Nat.le_div_iff_mul_le hperiod]
      rw [hcount]
      omega

/-- **When whole periods, but at least one, are as many as the boundaries crossed.** -/
theorem max_div_eq_ticksCrossed_iff (hr : 0 < r) (hperiod : r < period) :
    (if c / period = 0 then 1 else c / period) = ticksCrossed r period c ↔
      r ≤ c ∧ (c < period ∨ c % period < r) := by
  have hsplit := Nat.div_add_mod c period
  have hmod := Nat.mod_lt c (by omega : 0 < period)
  unfold ticksCrossed
  by_cases hless : c < r
  · -- no boundary yet, but a tick is reported
    rw [if_pos hless]
    refine iff_of_false (fun h => ?_) (by omega)
    split at h <;> omega
  rw [if_neg hless]
  by_cases hshort : c < period
  · rw [Nat.div_eq_of_lt hshort, if_pos rfl, Nat.div_eq_of_lt (by omega : c - r < period)]
    exact iff_of_true rfl ⟨by omega, .inl hshort⟩
  · have hpos : 0 < c / period := Nat.div_pos (by omega) (by omega)
    rw [if_neg (by omega)]
    have hle : r ≤ c ∧ (c < period ∨ c % period < r) ↔ c % period < r := by omega
    rw [hle]
    obtain ⟨q, hq⟩ := Nat.exists_eq_succ_of_ne_zero (by omega : c / period ≠ 0)
    rw [hq, Nat.mul_comm, Nat.succ_mul] at hsplit
    rw [hq]
    by_cases hphase : c % period < r
    · -- the last boundary lies in the period before
      have hback : (c - r) / period = q :=
        Nat.div_eq_of_lt_le (by omega) (by rw [Nat.succ_mul]; omega)
      rw [hback]
      exact iff_of_true (Nat.succ_eq_one_add q) hphase
    · -- it lies in the last period, and is one more than the whole periods
      have hsame : (c - r) / period = q + 1 := by
        refine Nat.div_eq_of_lt_le ?_ ?_
        · rw [Nat.succ_mul]
          omega
        · rw [Nat.succ_mul, Nat.succ_mul]
          omega
      rw [hsame]
      exact iff_of_false (by omega) hphase

/-! ## Entering, sleeping, leaving -/

/-- **What `os_tickless_idle_enter` programs**: a count computed in 32 bits, and clamped. A count of 0
gives the whole register. -/
theorem programmed_osTicklessIdleEnter (hn : ticklessMinIdleTicks ≤ n) :
    (osTicklessIdleEnter s n).active = true ∧ (osTicklessIdleEnter s n).reload = s.reload ∧
      (osTicklessIdleEnter s n).programmed
        = if (s.val + (n - 1) * s.reload) % 2 ^ 32 = 0 then 2 ^ 24
          else min ((s.val + (n - 1) * s.reload) % 2 ^ 32) systickLoadMax := by
  have hmin : ¬ n < ticklessMinIdleTicks := Nat.not_lt.mpr hn
  have hone : 1 < n := lt_of_lt_of_le (by decide) hn
  have hsum : (s.val + (n - 1) * s.reload % 2 ^ 32) % 2 ^ 32 = (s.val + (n - 1) * s.reload) % 2 ^ 32 :=
    Nat.add_mod_mod ..
  unfold osTicklessIdleEnter
  simp only [if_neg hmin, if_pos hone, hsum]
  refine ⟨rfl, rfl, ?_⟩
  have hlt : (s.val + (n - 1) * s.reload) % 2 ^ 32 < 2 ^ 32 := Nat.mod_lt _ (by decide)
  have hmax : systickLoadMax = 0xFFFFFF := rfl
  simp only [Tickless.programmed, prvStartOneShot]
  generalize (s.val + (n - 1) * s.reload) % 2 ^ 32 = total at hlt ⊢
  have hclamp : (if systickLoadMax < total then systickLoadMax else total) = min total systickLoadMax := by
    split <;> omega
  rw [hclamp]
  by_cases hzero : total = 0
  · subst hzero
    rfl
  · rw [if_neg hzero]
    -- a count from 1 to the maximum fits into the register less one
    have hcount : 1 ≤ min total systickLoadMax ∧ min total systickLoadMax ≤ 0xFFFFFF := by omega
    generalize min total systickLoadMax = count at hcount ⊢
    omega

/-- The count is the one that the sleep asks for, unless the product has wrapped to less than the
maximum. -/
theorem programmed_iff (hr : 0 < s.val) (hn : ticklessMinIdleTicks ≤ n) :
    (osTicklessIdleEnter s n).programmed = min (s.val + (n - 1) * s.reload) systickLoadMax ↔
      s.val + (n - 1) * s.reload < 2 ^ 32 ∨
        systickLoadMax ≤ (s.val + (n - 1) * s.reload) % 2 ^ 32 := by
  rw [(programmed_osTicklessIdleEnter hn).2.2]
  simp only [systickLoadMax]
  generalize (n - 1) * s.reload = product
  split <;> omega

/-- **What `os_tickless_idle_exit` returns** after `c` cycles: the whole periods, but at least one. -/
theorem osTicklessIdleExit_wakeUp (hactive : s.active = true) (hload : s.programmed ≤ 2 ^ 24)
    (hc : c ≤ s.programmed) :
    (osTicklessIdleExit (s.wakeUp c flag)).1 = if c / s.reload = 0 then 1 else c / s.reload := by
  have hawake : ¬ (s.wakeUp c flag).active = false := by
    rw [show (s.wakeUp c flag).active = s.active from rfl, hactive]
    decide
  have helapsed : (s.load + 1 + 2 ^ 32 - (s.programmed - c)) % 2 ^ 32 = c := by
    unfold Tickless.programmed at *
    omega
  unfold osTicklessIdleExit
  rw [if_neg hawake]
  cases flag <;> simp only [Tickless.wakeUp, if_true, if_false, Bool.false_eq_true, helapsed]

/-- What handlers call does not count. -/
theorem exec_systemTick {s s' : Sys} {ops : List Op} (h : exec IsrCall step s ops = some s') :
    s'.kernel.systemTick = s.kernel.systemTick :=
  (run_of_exec h).invariant (fun s' => s'.kernel.systemTick = s.kernel.systemTick)
    (fun _ _ _ hs _ hstep => (step_systemTick hstep).trans hs) rfl

/-- **`os_kernel_tick_increment` counts once.** -/
theorem osKernelTickIncrement_systemTick {s s' : Sys} {hooks timers : List Op}
    (h : osKernelTickIncrement s hooks timers = some s') :
    s'.kernel.systemTick = (s.kernel.systemTick + 1) % 2 ^ 32 := by
  obtain ⟨s₁, s₂, s₃, hhooks, htick, htimers, hsel⟩ := osKernelTickIncrement_stages h
  rw [step_systemTick hsel, exec_systemTick htimers, step_systemTick htick, exec_systemTick hhooks]
  rfl

/-- So does each replayed tick. -/
theorem idleReplay_systemTick {s s' : Sys} {ticks : List (List Op × List Op)}
    (h : idleReplay s ticks = some s') :
    s'.kernel.systemTick % 2 ^ 32 = (s.kernel.systemTick + ticks.length) % 2 ^ 32 := by
  induction ticks generalizing s with
  | nil =>
      obtain rfl := Option.some.inj h
      rfl
  | cons tick rest ih =>
      obtain ⟨s₁, hs₁, h⟩ := Option.bind_eq_some_iff.mp h
      rw [ih h, osKernelTickIncrement_systemTick hs₁, List.length_cons]
      omega

/-- **The sleeps that keep the time.** For every phase of the current period, every number of idle ticks
that is worth the trouble, and every wake-up: the count is the one that the sleep asks for and the idle
task replays the boundaries crossed, exactly when the 32-bit product has not wrapped (or only to the
maximum and above), a boundary was crossed, and the sleep was shorter than a period or has ended in its
last period before the next boundary. -/
theorem tickless_time_iff {s : Tickless} {n c : Nat} {flag : Bool} (hr : 0 < s.val ∧ s.val < s.reload)
    (hn : ticklessMinIdleTicks ≤ n) (hc : c ≤ (osTicklessIdleEnter s n).programmed) :
    ((osTicklessIdleEnter s n).programmed = min (s.val + (n - 1) * s.reload) systickLoadMax ∧
      (osTicklessIdleExit ((osTicklessIdleEnter s n).wakeUp c flag)).1 = ticksCrossed s.val s.reload c ∧
      ∀ sys sys' ticks,
        ticks.length = (osTicklessIdleExit ((osTicklessIdleEnter s n).wakeUp c flag)).1 →
        idleReplay sys ticks = some sys' →
        sys'.kernel.systemTick % 2 ^ 32
          = (sys.kernel.systemTick + ticksCrossed s.val s.reload c) % 2 ^ 32) ↔
    (s.val + (n - 1) * s.reload < 2 ^ 32 ∨ systickLoadMax ≤ (s.val + (n - 1) * s.reload) % 2 ^ 32) ∧
      s.val ≤ c ∧ (c < s.reload ∨ c % s.reload < s.val) := by
  obtain ⟨hactive, hreload, hprogrammed⟩ := programmed_osTicklessIdleEnter (s := s) hn
  have hload : (osTicklessIdleEnter s n).programmed ≤ 2 ^ 24 := by
    rw [hprogrammed, systickLoadMax]
    split <;> omega
  have hexit : (osTicklessIdleExit ((osTicklessIdleEnter s n).wakeUp c flag)).1 = _ :=
    osTicklessIdleExit_wakeUp hactive hload hc
  rw [hreload] at hexit
  rw [hexit, max_div_eq_ticksCrossed_iff hr.1 hr.2, programmed_iff hr.1 hn]
  refine ⟨fun h => ⟨h.1, h.2.1⟩, fun h => ⟨h.1, h.2, fun sys sys' ticks hlen hreplay => ?_⟩⟩
  rw [idleReplay_systemTick hreplay, hlen, (max_div_eq_ticksCrossed_iff hr.1 hr.2).mpr h.2]

/-- SysTick in the middle of a tick of 1 ms, with `r` cycles left. -/
def Tickless.midTick (r : Nat) : Tickless := osTicklessInit ⟨7, false, 71999, r, false, 0, 0⟩ 1000

/-- **A tick invented**: the idle task is woken before a boundary, and reports one. -/
theorem tickless_invents_tick :
    (Tickless.midTick 36000).reload = 72000 ∧
      (osTicklessIdleEnter (Tickless.midTick 36000) 10).programmed = 684000 ∧
      (osTicklessIdleExit ((osTicklessIdleEnter (Tickless.midTick 36000) 10).wakeUp 100 false)).1 = 1 ∧
      ticksCrossed 36000 72000 100 = 0 := by decide

/-- **A tick lost**, and a count that has wrapped: 59653 ticks are worth more than 2^32 cycles. -/
theorem tickless_loses_tick :
    (osTicklessIdleExit ((osTicklessIdleEnter (Tickless.midTick 36000) 10).wakeUp 108000 false)).1 = 1 ∧
      ticksCrossed 36000 72000 108000 = 2 ∧
      (osTicklessIdleEnter (Tickless.midTick 36000) 59653).programmed = 12704 := by decide

/-- A sleep of one and a quarter of a period that keeps the time. -/
theorem tickless_keeps_time :
    (osTicklessIdleExit ((osTicklessIdleEnter (Tickless.midTick 36000) 10).wakeUp 90000 true)).1
      = ticksCrossed 36000 72000 90000 :=
  ((@tickless_time_iff (Tickless.midTick 36000) 10 90000 true (by decide) (by decide) (by decide)).mpr
    (by decide)).2.1

end MiniRTOS
