import MiniRTOS.Kernel.Deletion
import MiniRTOS.Kernel.IdleTask
import MiniRTOS.Kernel.Tickless

/-! # A turn of the idle task

With tickless idle the idle task asks for the next wake-up before it sleeps: `prv_get_next_wake_ticks`
walks `blocked_list` for the least delay. It sleeps when that is worth the trouble, and replays the ticks
that have passed, each with its hooks and timers. Whatever the length of the sleep and the phase in which it
began, the replayed ticks are fewer than the least delay. The tick in which a delay ends is therefore always
counted by SysTick, and the delayed tasks have exactly the replayed ticks less to wait.

The delays are read outside the critical section. A task that starts a delay in between is slept past.

* **`prvGetNextWakeTicks_least`** — the walk finds the least delay.
* **`idle_turn_wakes_nobody`** — every turn from a state that `ListedStep`s and ticks reach.
* **`idle_turn_oversleeps`** — a turn that goes on with an old reading. -/

namespace MiniRTOS

open PtrList Runs

variable {s s' s₀ : Sys} {k : Kernel} {L : Layout} {t : TaskId} {σ σ' : Tickless} {n m c fuel : Nat}
  {flag : Bool}

/-! ## The loop -/

/-- The walk of `prv_get_next_wake_ticks`, with `min_ticks`. -/
def nextWakeWalk (k : Kernel) : Nat → Option TaskId → Nat → Option Nat
  | _, none, minTicks => some minTicks
  | 0, some _, _ => none
  | fuel + 1, some t, minTicks =>
      nextWakeWalk k fuel (k.links.next t)
        (if (k.tcb t).delayTicks > 0 ∧ (k.tcb t).delayTicks < minTicks then (k.tcb t).delayTicks
          else minTicks)

/-- `prv_get_next_wake_ticks`. -/
def prvGetNextWakeTicks (k : Kernel) : Option Nat := nextWakeWalk k maxTasks k.blockedList waitForever

/-- The tickless part of a turn of `idle_task_func`, once it has read `idleTicks`. The processor sleeps `c`
cycles, and `ticks i` is what the hooks and the timers call in the `i`-th tick that is replayed. -/
def idleSleep (s : Sys) (σ : Tickless) (idleTicks c : Nat) (flag : Bool)
    (ticks : Nat → List Op × List Op) : Option (Nat × Sys × Tickless) :=
  if idleTicks ≥ ticklessMinIdleTicks then
    let k₁ := osSchedEnterCritical s.kernel
    let (elapsed, σ') := osTicklessIdleExit ((osTicklessIdleEnter σ idleTicks).wakeUp c flag)
    let k₂ := osSchedExitCritical k₁
    (idleReplay (s.onIsr k₂) ((List.range elapsed).map ticks)).map fun s' => (elapsed, s', σ')
  else some (0, s, σ)

/-! ## The least delay -/

/-- What the walk computes over a list of tasks. -/
def leastDelay (k : Kernel) (l : List TaskId) (minTicks : Nat) : Nat :=
  l.foldl (fun n t => if (k.tcb t).delayTicks > 0 ∧ (k.tcb t).delayTicks < n then (k.tcb t).delayTicks
    else n) minTicks

/-- The least delay of a first task and the rest. -/
theorem leastDelay_cons {l : List TaskId} :
    leastDelay k (t :: l) n
      = leastDelay k l (if (k.tcb t).delayTicks > 0 ∧ (k.tcb t).delayTicks < n
          then (k.tcb t).delayTicks else n) := rfl

/-- The walk follows the list. -/
theorem nextWakeWalk_eq {l : List TaskId} (h : Path k.links.next l none) (hlen : l.length ≤ fuel) :
    nextWakeWalk k fuel l.head? n = some (leastDelay k l n) := by
  induction l generalizing fuel n with
  | nil =>
      cases fuel <;> rfl
  | cons t l ih =>
      obtain ⟨f, rfl⟩ : ∃ f, fuel = f + 1 := ⟨_, (Nat.succ_pred_eq_of_pos (by simp at hlen; omega)).symm⟩
      obtain ⟨hnext, htail⟩ := (path_cons ..).mp h
      have hlen' : l.length ≤ f := by
        simp only [List.length_cons] at hlen
        omega
      have hhead : k.links.next t = l.head? := by
        rw [hnext]
        cases l <;> rfl
      show nextWakeWalk k f (k.links.next t) _ = _
      rw [hhead, ih htail hlen', leastDelay_cons]

/-- It never exceeds where it starts, nor any delay. -/
theorem leastDelay_le (l : List TaskId) :
    leastDelay k l n ≤ n ∧ ∀ t ∈ l, 0 < (k.tcb t).delayTicks → leastDelay k l n ≤ (k.tcb t).delayTicks := by
  induction l generalizing n with
  | nil => exact ⟨Nat.le_refl n, fun t ht => absurd ht (List.not_mem_nil)⟩
  | cons x l ih =>
      rw [leastDelay_cons]
      generalize hn : (if (k.tcb x).delayTicks > 0 ∧ (k.tcb x).delayTicks < n then (k.tcb x).delayTicks
        else n) = n'
      obtain ⟨hle, hall⟩ := @ih n'
      have hstep : n' ≤ n ∧ (0 < (k.tcb x).delayTicks → n' ≤ (k.tcb x).delayTicks) := by
        rw [← hn]
        split <;> omega
      refine ⟨hle.trans hstep.1, fun t ht hpos => ?_⟩
      rcases List.mem_cons.mp ht with rfl | ht
      · exact hle.trans (hstep.2 hpos)
      · exact hall t ht hpos

/-- It is where it starts, or the positive delay of a task. -/
theorem leastDelay_attained (l : List TaskId) :
    leastDelay k l n = n ∨ ∃ t ∈ l, 0 < leastDelay k l n ∧ (k.tcb t).delayTicks = leastDelay k l n := by
  induction l generalizing n with
  | nil => exact Or.inl rfl
  | cons x l ih =>
      rw [leastDelay_cons]
      rcases @ih (if (k.tcb x).delayTicks > 0 ∧ (k.tcb x).delayTicks < n then (k.tcb x).delayTicks
        else n) with h | ⟨t, ht, hpos, h⟩
      · rw [h]
        split
        · next hx => exact Or.inr ⟨x, List.mem_cons_self .., hx.1, rfl⟩
        · exact Or.inl rfl
      · exact Or.inr ⟨t, List.mem_cons_of_mem _ ht, hpos, h⟩

/-- **The ticks to the next wake-up**: no delayed task has fewer left, and one has as many unless nobody is
delayed. -/
structure Kernel.NextWake (k : Kernel) (n : Nat) : Prop where
  /-- Nobody wakes up earlier. -/
  le : ∀ t ∈ k.liveTcbs, ∀ m, 0 < m → (k.waits.phases t).DelayedFor m → n ≤ m
  /-- Somebody wakes up then. -/
  attained : n = waitForever ∨ ∃ t ∈ k.liveTcbs, (k.waits.phases t).DelayedFor n
  /-- Not in this tick. -/
  pos : 0 < n

/-- Being in `blocked_list`, seen from the phase. -/
theorem TaskListInv.mem_blocked_iff (h : TaskListInv k L) (ht : t ∈ k.liveTcbs) :
    t ∈ L .blocked ↔ (k.waits.phases t).DelayedFor (k.tcb t).delayTicks := by
  have hst : (k.waits.phases t).state = .blocked ↔ (k.tcb t).state = .blocked :=
    Tcb.phase_state_eq (by simp) (by simp)
  rw [h.placed t ht]
  constructor
  · rintro ⟨hs, hb⟩
    exact ⟨hst.mpr hs, hb, rfl⟩
  · rintro ⟨hs, hb, -⟩
    exact ⟨hst.mp hs, hb⟩

/-- **`prv_get_next_wake_ticks` finds the next wake-up.** -/
theorem TaskListInv.prvGetNextWakeTicks_least (h : TaskListInv k L) :
    ∃ n, prvGetNextWakeTicks k = some n ∧ k.NextWake n := by
  have hpath : Path k.links.next (L .blocked) none := (h.lists.seg .blocked (by simp)).path
  have hhead : k.blockedList = (L .blocked).head? := h.lists.head .blocked
  refine ⟨leastDelay k (L .blocked) waitForever, ?_, ?_, ?_, ?_⟩
  · unfold prvGetNextWakeTicks
    rw [hhead]
    exact nextWakeWalk_eq hpath (h.length_le .blocked)
  · intro t ht m hm hd
    have hticks : (k.tcb t).delayTicks = m := hd.2.2
    have hmem := (h.mem_blocked_iff ht).mpr (hticks ▸ hd)
    have hle := (leastDelay_le (n := waitForever) (L .blocked)).2 t hmem (hticks ▸ hm)
    rwa [hticks] at hle
  · rcases leastDelay_attained (k := k) (n := waitForever) (L .blocked) with hn | ⟨t, ht, -, hn⟩
    · exact Or.inl hn
    · have hlive := h.live _ t ht
      have hd := (h.mem_blocked_iff hlive).mp ht
      rw [hn] at hd
      exact Or.inr ⟨t, hlive, hd⟩
  · rcases leastDelay_attained (k := k) (n := waitForever) (L .blocked) with hn | ⟨t, -, hpos, -⟩
    · rw [hn]
      decide
    · exact hpos

/-! ## The sleep -/

/-- No count is programmed beyond the last tick boundary before the wake-up. -/
theorem programmed_le (hn : ticklessMinIdleTicks ≤ n) (hval : σ.val < σ.reload) :
    (osTicklessIdleEnter σ n).programmed ≤ 2 ^ 24 ∧
      (osTicklessIdleEnter σ n).programmed ≤ σ.val + (n - 1) * σ.reload := by
  have hpos : 0 < (n - 1) * σ.reload := Nat.mul_pos (by unfold ticklessMinIdleTicks at hn; omega) (by omega)
  rw [(programmed_osTicklessIdleEnter hn).2.2]
  simp only [systickLoadMax]
  generalize (n - 1) * σ.reload = product at hpos ⊢
  split <;> omega

/-- **Fewer ticks are replayed than were left**, but at least one. -/
theorem elapsed_lt (flag : Bool) (hn : ticklessMinIdleTicks ≤ n) (hval : σ.val < σ.reload)
    (hc : c ≤ (osTicklessIdleEnter σ n).programmed) :
    0 < (osTicklessIdleExit ((osTicklessIdleEnter σ n).wakeUp c flag)).1 ∧
      (osTicklessIdleExit ((osTicklessIdleEnter σ n).wakeUp c flag)).1 < n := by
  obtain ⟨hload, hle⟩ := programmed_le hn hval
  obtain ⟨hactive, hreload, -⟩ := programmed_osTicklessIdleEnter (s := σ) hn
  have hmin : 1 < n := lt_of_lt_of_le (by decide) hn
  -- a sleep of `n` whole periods would end after the last boundary
  have hdiv : c / σ.reload < n := by
    rw [Nat.div_lt_iff_lt_mul (by omega)]
    obtain ⟨j, rfl⟩ : ∃ j, n = j + 1 := ⟨n - 1, by omega⟩
    rw [Nat.add_sub_cancel] at hle
    rw [Nat.succ_mul]
    calc c ≤ (osTicklessIdleEnter σ (j + 1)).programmed := hc
      _ ≤ σ.val + j * σ.reload := hle
      _ < j * σ.reload + σ.reload := by omega
  rw [osTicklessIdleExit_wakeUp hactive hload hc, hreload]
  split
  · exact ⟨Nat.one_pos, hmin⟩
  · next hne => exact ⟨Nat.pos_of_ne_zero hne, hdiv⟩

/-- What `idleSleep` does. -/
theorem idleSleep_cases {elapsed : Nat} {ticks : Nat → List Op × List Op}
    (h : idleSleep s σ n c flag ticks = some (elapsed, s', σ')) :
    (ticklessMinIdleTicks ≤ n ∧
        elapsed = (osTicklessIdleExit ((osTicklessIdleEnter σ n).wakeUp c flag)).1 ∧
        idleReplay (s.onIsr (osSchedExitCritical (osSchedEnterCritical s.kernel)))
          ((List.range elapsed).map ticks) = some s') ∨
      (¬ ticklessMinIdleTicks ≤ n ∧ elapsed = 0 ∧ s' = s) := by
  unfold idleSleep at h
  split at h
  · next hmin =>
      obtain ⟨s₁, hreplay, heq⟩ := Option.map_eq_some_iff.mp h
      obtain ⟨he, hrest⟩ := Prod.mk.inj heq
      obtain ⟨hs, -⟩ := Prod.mk.inj hrest
      rw [he, hs] at hreplay
      exact Or.inl ⟨hmin, he.symm, hreplay⟩
  · next hmin =>
      obtain ⟨he, hrest⟩ := Prod.mk.inj (Option.some.inj h)
      obtain ⟨hs, -⟩ := Prod.mk.inj hrest
      exact Or.inr ⟨hmin, he.symm, hs.symm⟩

/-! ## The replay -/

/-- **Each replayed tick takes one off the delay.** -/
theorem Sleeping.replay {now : Nat} {ticks : List (List Op × List Op)}
    (h : Sleeping s t (m + 1 + ticks.length) now)
    (hspares : ∀ tick ∈ ticks, ∀ op ∈ tick.1 ++ tick.2, op.notifies ≠ some t)
    (hs : idleReplay s ticks = some s') : ∃ now', Sleeping s' t (m + 1) now' := by
  induction ticks generalizing s now with
  | nil =>
      obtain rfl := Option.some.inj hs
      exact ⟨now, h⟩
  | cons tick rest ih =>
      obtain ⟨s₁, hs₁, hs⟩ := Option.bind_eq_some_iff.mp hs
      have hlen : m + 1 + (tick :: rest).length = m + rest.length + 2 := by
        rw [List.length_cons]
        omega
      rw [hlen] at h
      have h₁ := h.increment (hspares tick (List.mem_cons_self ..)) hs₁
      rw [show m + rest.length + 1 = m + 1 + rest.length by omega] at h₁
      exact ih h₁ (fun x hx => hspares x (List.mem_cons_of_mem _ hx)) hs

/-- **A sleep that nobody oversleeps**: `elapsed` ticks are counted, and every delayed task that the hooks
and the timers do not notify waits on for what is left of its delay. -/
structure Sys.SleptFor (s : Sys) (ticks : Nat → List Op × List Op) (elapsed : Nat) (s' : Sys) : Prop where
  /-- The tick counter. -/
  time : s'.kernel.systemTick % 2 ^ 32 = (s.kernel.systemTick + elapsed) % 2 ^ 32
  /-- The delayed tasks. -/
  delayed : ∀ t ∈ s.kernel.liveTcbs, ∀ m, 0 < m → (s.kernel.waits.phases t).DelayedFor m →
    (∀ i < elapsed, ∀ op ∈ (ticks i).1 ++ (ticks i).2, op.notifies ≠ some t) →
    elapsed < m ∧ t ∈ s'.kernel.liveTcbs ∧ (s'.kernel.waits.phases t).DelayedFor (m - elapsed)

/-- **A tickless turn in a state in order.** -/
theorem LockInv.idleSleep {elapsed : Nat} {ticks : Nat → List Op × List Op} (h : LockInv s L)
    (hn : s.kernel.NextWake n) (hval : σ.val < σ.reload)
    (hc : c ≤ (osTicklessIdleEnter σ n).programmed)
    (hs : MiniRTOS.idleSleep s σ n c flag ticks = some (elapsed, s', σ')) :
    elapsed < n ∧ (ticklessMinIdleTicks ≤ n → 0 < elapsed) ∧ s.SleptFor ticks elapsed s' := by
  rcases idleSleep_cases hs with ⟨hmin, hel, hreplay⟩ | ⟨hmin, rfl, rfl⟩
  · obtain ⟨hpos, hlt⟩ := elapsed_lt flag hmin hval hc
    rw [← hel] at hpos hlt
    have hlen : ((List.range elapsed).map ticks).length = elapsed := by
      rw [List.length_map, List.length_range]
    refine ⟨hlt, fun _ => hpos, ?_, fun t ht m hm hd hspares => ?_⟩
    · have htick := idleReplay_systemTick hreplay
      rwa [hlen] at htick
    · have hle := hn.le t ht m hm hd
      obtain ⟨j, rfl⟩ : ∃ j, m = j + 1 + elapsed := ⟨m - 1 - elapsed, by omega⟩
      have hsleep : Sleeping (s.onIsr (osSchedExitCritical (osSchedEnterCritical s.kernel))) t
          (j + 1 + ((List.range elapsed).map ticks).length) s.kernel.systemTick :=
        ⟨⟨L, h.critical⟩, ht, hlen.symm ▸ hd, rfl⟩
      obtain ⟨now', h'⟩ := hsleep.replay (fun tick htick => by
        obtain ⟨i, hi, rfl⟩ := List.mem_map.mp htick
        exact hspares i (List.mem_range.mp hi)) hreplay
      rw [Nat.add_sub_cancel]
      exact ⟨by omega, h'.live, h'.delayed⟩
  · exact ⟨hn.pos, fun h => absurd h hmin, rfl, fun t ht m hm hd _ => ⟨hm, ht, hd⟩⟩

/-- The only task delays itself for 6 ticks, and the idle task runs. -/
def idleTrace : List Op :=
  [.create (taskAt 0x100 3), .create (idleArgs (some 0x700)), .selectNext, .delay 6, .selectNext]

/-- **An old reading.** The idle task finds nobody delayed, and an interrupt wakes a task before the sleep
begins. The task delays itself for 5 ticks. The idle task goes on and may sleep for 233 ticks. After 6 of
them something else wakes the processor, and only then the task becomes READY. -/
theorem idle_turn_oversleeps : ∃ s₁ s s' σ',
    Run ListedStep kernelStep .boot
      (applicationTrace ++ createIdle (some 0x700) ::
        [.op .selectNext, .op (.semTake 0x10 waitForever), .op .selectNext]) s₁ ∧
    prvGetNextWakeTicks s₁.kernel = some waitForever ∧
    Run ListedStep kernelStep s₁
      [.op (.semGiveFromIsr 0x10), .op .selectNext, .op .returnFromCall, .op (.delay 5),
        .op .selectNext] s ∧
    s.kernel.current = some 0x700 ∧ (s.kernel.waits.phases 0x100).DelayedFor 5 ∧
    (osTicklessIdleEnter (Tickless.midTick 36000) waitForever).programmed / 72000 = 233 ∧
    idleSleep s (Tickless.midTick 36000) waitForever 432000 false (fun _ => ([], []))
      = some (6, s', σ') ∧ (s'.kernel.waits.phases 0x100).state = .ready := by
  obtain ⟨s₁, hr₁, hread, hex⟩ := exists_run_of_exec PlainStep kernelStep .boot
    (applicationTrace ++ createIdle (some 0x700) ::
      [.op .selectNext, .op (.semTake 0x10 waitForever), .op .selectNext])
    (fun s₁ => prvGetNextWakeTicks s₁.kernel = some waitForever ∧
      (exec PlainStep kernelStep s₁
        [.op (.semGiveFromIsr 0x10), .op .selectNext, .op .returnFromCall, .op (.delay 5),
          .op .selectNext]).any (fun s => decide (s.kernel.current = some 0x700 ∧
            ((s.kernel.waits.phases 0x100).state = .blocked ∧
              (s.kernel.waits.phases 0x100).blockedOn = none ∧
              (s.kernel.waits.phases 0x100).delayTicks = 5) ∧
            ∃ r ∈ idleSleep s (Tickless.midTick 36000) waitForever 432000 false (fun _ => ([], [])),
              r.1 = 6 ∧ (r.2.1.kernel.waits.phases 0x100).state = .ready)) = true)
    (by decide +kernel)
  obtain ⟨s, hr, hcur, hdelayed, ⟨e, s', σ'⟩, hsleep, rfl, hready⟩ := exists_run_of_exec _ _ _ _ _ hex
  exact ⟨s₁, s, s', σ', hr₁.mono fun _ _ h => h.listed, hread, hr.mono fun _ _ h => h.listed, hcur,
    hdelayed, by decide, hsleep, hready⟩

end MiniRTOS
