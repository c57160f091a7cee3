import MiniRTOS.Kernel.TaskMoves

/-! # Delays

A task that calls `os_task_delay(n)` sleeps in `blocked_list` until the `n`-th tick. A notification
wakes its target when that is BLOCKED with `blocked_reason` ON_NOTIFY; the field is written by
`os_task_notify_wait` and not cleared when that call times out, so a later delay of the same task can
be taken for a wait.

* **`DelaySys`** — the system with, for each task, the ticks that are left of its delay.
* **`Op.HitsStale`** — the notification of a task that is BLOCKED outside `os_task_notify_wait` with
  the reason of an earlier wait.
* **`delay_onTime_iff`** — along runs without such notifications every delay ends exactly on time, and
  a step cuts a delay short or wakes a task outside its wait exactly when it is one. -/

namespace MiniRTOS

open Runs

variable {s s' s₀ : Sys} {L : Layout} {op : Op} {t c : TaskId} {p p' : Phase}

/-! ## Counting the ticks of a delay -/

/-- The system, and the ticks left of each delay in progress. -/
structure DelaySys where
  /-- The system. -/
  sys : Sys
  /-- Ticks until the end of a task's delay, 0 for a task that is in none. -/
  remaining : TaskId → Nat

/-- The ticks left after a step. -/
def DelaySys.count (σ : DelaySys) : Op → TaskId → Nat
  | .delay n =>
      match σ.sys.kernel.current with
      | none => σ.remaining
      | some c => Function.update σ.remaining c n
  | .tick => fun t => σ.remaining t - 1
  | .create a | .createSuspended a =>
      match a.tcbBlock with
      | none => σ.remaining
      | some t => Function.update σ.remaining t 0
  | _ => σ.remaining

/-- One step, with the count of the delays. -/
def delayStep (σ : DelaySys) (op : Op) : Option DelaySys :=
  (step σ.sys op).map fun s => ⟨s, σ.count op⟩

/-- The step is a tick. -/
def Op.isTick : Op → Bool
  | .tick => true
  | _ => false

/-- There is one step that is a tick. -/
theorem Op.eq_tick (h : op.isTick = true) : op = .tick := by
  cases op <;> first | rfl | cases h

/-- The steps of the runs below: whatever the environment may do, mutex calls aside, and ticks at any
time, also before a task that went to sleep is switched out. -/
def DelayStep (σ : DelaySys) (op : Op) : Prop := op.isTick = true ∨ WithoutMutexes σ.sys op

/-- Whether a step may take place in such a run can be decided. -/
instance (σ : DelaySys) (op : Op) : Decidable (DelayStep σ op) :=
  inferInstanceAs (Decidable (_ ∨ _))

/-- No delay is in progress. -/
def DelaySys.start (s : Sys) : DelaySys := ⟨s, fun _ => 0⟩

/-- **A notification that takes a delay for a wait**: its target is BLOCKED and has the reason of an
`os_task_notify_wait`, but is not inside one. -/
def Op.HitsStale (s : Sys) (op : Op) : Prop :=
  ∃ t ∈ op.notifies, (s.kernel.tcb t).state = .blocked ∧
    (s.kernel.tcb t).blockedReason = .onNotify ∧ s.call t ≠ .notifyWait

/-- Whether a step hits a stale reason can be decided. -/
instance (s : Sys) (op : Op) : Decidable (op.HitsStale s) :=
  inferInstanceAs (Decidable (∃ t ∈ op.notifies, _))

/-- **A step that keeps the delays**: a delay ends at the tick it has left and not before, and a
notification wakes only a task inside `os_task_notify_wait`. -/
structure DelaysKept (σ : DelaySys) (op : Op) (σ' : DelaySys) : Prop where
  /-- Delays in progress. -/
  delays : ∀ t ∈ σ.sys.kernel.liveTcbs, 0 < σ.remaining t →
    (op = .tick ∧ σ.remaining t = 1 → (σ'.sys.kernel.tcb t).state = .ready) ∧
      (¬ (op = .tick ∧ σ.remaining t = 1) → (σ'.sys.kernel.tcb t).state = .blocked)
  /-- Notifications. -/
  notified : ∀ t ∈ op.notifies, (σ.sys.kernel.tcb t).state = .blocked →
    (σ'.sys.kernel.tcb t).state ≠ .blocked → σ.sys.call t = .notifyWait

/-! ## Ticks at any time -/

/-- The moves of a tick, whoever is current. -/
theorem tick_moves (hinv : TaskListInv s.kernel L) (hs : step s .tick = some s') :
    Moves s .tick s'.kernel.waits ∧ (∃ L', TaskListInv s'.kernel L') ∧ s'.call = s.call := by
  obtain ⟨k, hk, rfl⟩ := Option.map_eq_some_iff.mp hs
  refine ⟨.tick hinv (hinv.waits_osTaskTick hk), ?_, rfl⟩
  by_cases hcan : s.kernel.canaryIntact
  · obtain ⟨k', hk', h', -⟩ := hinv.osTaskTick hcan
    obtain rfl := Option.some.inj (hk.symm.trans hk')
    exact ⟨_, h'⟩
  · rw [hinv.osTaskTick_halts hcan] at hk
    cases hk

/-- What every step of these runs keeps. -/
theorem DelayStep.cases {σ : DelaySys} (hop : DelayStep σ op) (hinv : TaskListInv σ.sys.kernel L)
    (hs : step σ.sys op = some s') :
    Moves σ.sys op s'.kernel.waits ∧ (∃ L', TaskListInv s'.kernel L') ∧
      ∀ t ∈ σ.sys.kernel.liveTcbs, (σ.sys.kernel.waits.phases t).state ≠ .ready →
        s'.call t = σ.sys.call t := by
  rcases hop with htick | hop
  · obtain rfl := Op.eq_tick htick
    obtain ⟨hm, hl, hc⟩ := tick_moves hinv hs
    exact ⟨hm, hl, fun t _ _ => congrFun hc t⟩
  · refine ⟨step_moves hinv hop.1 hs, taskListInv_of_step hinv hop hs, fun t ht hr => ?_⟩
    rcases step_call hop.1 ht hs with hc | ⟨-, hready, -⟩
    · exact hc
    · exact absurd hready hr

/-! ## The invariant -/

/-- **The phase of a delayed task**: in `blocked_list`, with the ticks left. -/
def Phase.DelayedFor (p : Phase) (n : Nat) : Prop :=
  p.state = .blocked ∧ p.blockedOn = none ∧ p.delayTicks = n

/-- **The delay counts are right.** -/
structure DelayInv (σ : DelaySys) : Prop where
  /-- The task lists are well formed. -/
  lists : ∃ L, TaskListInv σ.sys.kernel L
  /-- A task in a delay sleeps in `blocked_list` and is inside no call on an object. -/
  delayed : ∀ t ∈ σ.sys.kernel.liveTcbs, 0 < σ.remaining t →
    (σ.sys.kernel.waits.phases t).DelayedFor (σ.remaining t) ∧ σ.sys.call t = .idle

/-- Only a tick or a notification moves a delayed task. -/
theorem Move.of_delayed {n : Nat} (h : Move s op t p p') (hp : p.DelayedFor n) :
    p' = p ∨ op = .tick ∨ op.notifies = some t ∧ p.blockedReason = .onNotify := by
  obtain ⟨hst, hbo, -⟩ := hp
  have hnot : p.state ≠ .ready := by simp [hst]
  cases h with
  | stays => exact Or.inl rfl
  | sleeps _ _ _ _ _ hr _ => exact absurd hr hnot
  | wakes _ _ hb _ => cases hbo.symm.trans hb
  | delays _ _ hr _ => exact absurd hr hnot
  | awaits _ _ hr _ => exact absurd hr hnot
  | notified _ hreason hop => exact Or.inr (Or.inr ⟨hop, hreason⟩)
  | ticks _ _ hop => exact Or.inr (Or.inl hop)
  | suspends hr _ => exact absurd hr hnot
  | resumes hr _ => cases hst.symm.trans hr
  | dies _ hr _ => exact absurd hr hnot

/-- A delayed task at a tick. -/
theorem TaskListInv.tick_delayed {n : Nat} (hinv : TaskListInv s.kernel L)
    (hs : step s .tick = some s') (ht : t ∈ s.kernel.liveTcbs)
    (hp : (s.kernel.waits.phases t).DelayedFor (n + 1)) :
    s'.kernel.waits.phases t = (s.kernel.waits.phases t).ticked := by
  obtain ⟨k, hk, rfl⟩ := Option.map_eq_some_iff.mp hs
  have hst : (s.kernel.tcb t).state = .blocked := (Tcb.phase_state_eq (by simp) (by simp)).mp hp.1
  have hmem : t ∈ L .blocked := (hinv.placed t ht .blocked).mpr ⟨hst, hp.2.1⟩
  have hw := congrArg (fun v : Waits => v.phases t) (hinv.waits_osTaskTick hk)
  simp only [if_pos hmem] at hw
  exact hw

/-- A tick that does not end the delay. -/
theorem Phase.DelayedFor.ticked {n : Nat} (hp : p.DelayedFor (n + 2)) :
    p.ticked.DelayedFor (n + 1) := by
  obtain ⟨hst, hbo, hn⟩ := hp
  have h₀ : p.delayTicks ≠ 0 := by omega
  have h₁ : p.delayTicks ≠ 1 := by omega
  unfold Phase.ticked
  rw [if_neg h₀, if_neg h₁]
  refine ⟨hst, hbo, ?_⟩
  show p.delayTicks - 1 = n + 1
  omega

/-- The step that begins a delay of `n` ticks. -/
theorem DelayInv.begins {σ : DelaySys} {n : Nat} (hinv : TaskListInv σ.sys.kernel L)
    (hop : WithoutMutexes σ.sys (.delay n)) (hs : step σ.sys (.delay n) = some s')
    (hc : σ.sys.kernel.current = some c) (hn : 0 < n) :
    (s'.kernel.waits.phases c).DelayedFor n ∧ s'.call c = .idle := by
  obtain ⟨x, hx, hlive, hst, hidle⟩ := Sys.Permits.task hop.1.1
  obtain rfl := Option.some.inj (hx.symm.trans hc)
  obtain ⟨k, hk, rfl⟩ := Option.map_eq_some_iff.mp hs
  have hn' : ¬ n = 0 := by omega
  have hw := waits_osTaskDelay hk
  rw [if_neg hn', hc] at hw
  have hphase : k.waits.phases x = (σ.sys.kernel.waits.phases x).delayed n := by
    rw [hw]
    exact Waits.phases_set_self ..
  refine ⟨?_, hidle⟩
  show (k.waits.phases x).DelayedFor n
  rw [hphase]
  exact ⟨rfl, hinv.blockedOn_of_ready hlive (Tcb.phase_state_ready.mpr hst), rfl⟩

/-- **What a step does to a delayed task**: a tick counts its delay down, a stale notification wakes
it, and nothing else moves it. -/
theorem DelayInv.moves {σ : DelaySys} {n : Nat} (h : DelayInv σ) (hinv : TaskListInv σ.sys.kernel L)
    (hop : DelayStep σ op) (hstale : ¬ op.HitsStale σ.sys) (hs : step σ.sys op = some s')
    (ht : t ∈ σ.sys.kernel.liveTcbs) (hn : σ.remaining t = n + 1) :
    s'.kernel.waits.phases t = if op.isTick then (σ.sys.kernel.waits.phases t).ticked
      else σ.sys.kernel.waits.phases t := by
  have hpos : 0 < σ.remaining t := by omega
  obtain ⟨hp, hidle⟩ := h.delayed t ht hpos
  rw [hn] at hp
  split
  · next htick =>
      obtain rfl := Op.eq_tick htick
      exact hinv.tick_delayed hs ht hp
  · next htick =>
      obtain ⟨hm, -, -⟩ := hop.cases hinv hs
      rcases (hm.moves t ht).of_delayed hp with he | rfl | ⟨hnotify, hreason⟩
      · exact he
      · exact absurd rfl htick
      · refine absurd ⟨t, hnotify, ?_, hreason, ?_⟩ hstale
        · exact (Tcb.phase_state_eq (by simp) (by simp)).mp hp.1
        · simp [hidle]

/-- The count of a live task: a tick counts it down, a delay of its own sets it. -/
theorem DelaySys.count_cases (σ : DelaySys) (hop : DelayStep σ op) (ht : t ∈ σ.sys.kernel.liveTcbs) :
    op = .tick ∧ σ.count op t = σ.remaining t - 1 ∨
      (∃ n, op = .delay n ∧ σ.sys.kernel.current = some t ∧ σ.count op t = n) ∨
        op.isTick = false ∧ σ.count op t = σ.remaining t := by
  have hnew : ∀ x, op.unowned = some x → op.isTick = false → t ≠ x := by
    intro x hx htick htx
    rcases hop with h | h
    · cases h.symm.trans htick
    · exact h.1.2.2.1 x hx (htx ▸ ht)
  cases op with
  | delay n =>
      cases hc : σ.sys.kernel.current with
      | none => exact Or.inr (Or.inr ⟨rfl, by simp [DelaySys.count, hc]⟩)
      | some c =>
          have hcount : σ.count (.delay n) = Function.update σ.remaining c n := by
            simp only [DelaySys.count, hc]
          rw [hcount]
          by_cases htc : t = c
          · subst htc
            exact Or.inr (Or.inl ⟨n, rfl, rfl, Function.update_self ..⟩)
          · exact Or.inr (Or.inr ⟨rfl, Function.update_of_ne htc _ _⟩)
  | tick => exact Or.inl ⟨rfl, rfl⟩
  | create a =>
      refine Or.inr (Or.inr ⟨rfl, ?_⟩)
      cases hb : a.tcbBlock with
      | none => simp [DelaySys.count, hb]
      | some x => simp [DelaySys.count, hb, Function.update_of_ne (hnew x hb rfl)]
  | createSuspended a =>
      refine Or.inr (Or.inr ⟨rfl, ?_⟩)
      cases hb : a.tcbBlock with
      | none => simp [DelaySys.count, hb]
      | some x => simp [DelaySys.count, hb, Function.update_of_ne (hnew x hb rfl)]
  | _ => exact Or.inr (Or.inr ⟨rfl, rfl⟩)

/-- A new task is in no delay. -/
theorem DelaySys.count_new (σ : DelaySys) (hs : step σ.sys op = some s')
    (ht : t ∈ s'.kernel.liveTcbs) (hnew : t ∉ σ.sys.kernel.liveTcbs) (hun : op.unowned = some t) :
    σ.count op t = 0 := by
  cases op with
  | create a =>
      have hb : a.tcbBlock = some t := hun
      simp [DelaySys.count, hb]
  | createSuspended a =>
      have hb : a.tcbBlock = some t := hun
      simp [DelaySys.count, hb]
  | scribble x v nx pv =>
      obtain rfl := Option.some.inj hs
      exact absurd ht hnew
  | _ => cases hun

/-- **One step keeps the counts right**, unless it is a stale notification. -/
theorem DelayInv.step {σ σ' : DelaySys} (h : DelayInv σ) (hop : DelayStep σ op)
    (hstale : ¬ op.HitsStale σ.sys) (hs : delayStep σ op = some σ') : DelayInv σ' := by
  obtain ⟨s', hk, rfl⟩ := Option.map_eq_some_iff.mp hs
  obtain ⟨L, hinv⟩ := h.lists
  obtain ⟨hm, hlists, hcalls⟩ := hop.cases hinv hk
  refine ⟨hlists, fun t ht hpos => ?_⟩
  show (s'.kernel.waits.phases t).DelayedFor (σ.count op t) ∧ s'.call t = .idle
  have hpos' : 0 < σ.count op t := hpos
  by_cases hlive : t ∈ σ.sys.kernel.liveTcbs
  · -- a delay that was in progress before the step
    have hkeep : ∀ n, σ.remaining t = n + 1 → s'.call t = .idle ∧
        s'.kernel.waits.phases t = if op.isTick then (σ.sys.kernel.waits.phases t).ticked
          else σ.sys.kernel.waits.phases t := by
      intro n hn
      obtain ⟨hp, hidle⟩ := h.delayed t hlive (by omega)
      refine ⟨?_, h.moves hinv hop hstale hk hlive hn⟩
      rw [hcalls t hlive (by simp [hp.1]), hidle]
    rcases σ.count_cases hop hlive with ⟨rfl, hcount⟩ | ⟨n, rfl, hc, hcount⟩ | ⟨htick, hcount⟩
    · obtain ⟨n, hn⟩ : ∃ n, σ.remaining t = n + 2 := ⟨σ.remaining t - 2, by omega⟩
      obtain ⟨hidle, hphase⟩ := hkeep (n + 1) hn
      obtain ⟨hp, -⟩ := h.delayed t hlive (by omega)
      rw [hn] at hp hcount
      rw [hcount, hphase]
      exact ⟨hp.ticked, hidle⟩
    · rcases hop with hop | hop
      · cases hop
      · rw [hcount] at hpos' ⊢
        exact DelayInv.begins hinv hop hk hc hpos'
    · rw [hcount] at hpos' ⊢
      obtain ⟨n, hn⟩ : ∃ n, σ.remaining t = n + 1 := ⟨σ.remaining t - 1, by omega⟩
      obtain ⟨hidle, hphase⟩ := hkeep n hn
      rw [htick] at hphase
      rw [hphase]
      exact ⟨(h.delayed t hlive hpos').1, hidle⟩
  · rcases hm.born t ht with hl | ⟨hun, -⟩
    · exact absurd hl hlive
    · have hzero := σ.count_new hk ht hlive hun
      omega

/-! ## Delays on time -/

/-- The tick that ends a delay makes the task READY. -/
theorem TaskListInv.tick_expires (hinv : TaskListInv s.kernel L) (hs : step s .tick = some s')
    (ht : t ∈ s.kernel.liveTcbs) (hp : (s.kernel.waits.phases t).DelayedFor 1) :
    (s'.kernel.tcb t).state = .ready := by
  obtain ⟨k, hk, rfl⟩ := Option.map_eq_some_iff.mp hs
  by_cases hcan : s.kernel.canaryIntact
  · obtain ⟨k', hk', -, hticked⟩ := hinv.osTaskTick hcan
    obtain rfl := Option.some.inj (hk.symm.trans hk')
    have hst : (s.kernel.tcb t).state = .blocked := (Tcb.phase_state_eq (by simp) (by simp)).mp hp.1
    have hmem : t ∈ L .blocked := (hinv.placed t ht .blocked).mpr ⟨hst, hp.2.1⟩
    have hone : (s.kernel.tcb t).delayTicks = 1 := hp.2.2
    show (k.tcb t).state = .ready
    rw [hticked.state, if_pos ⟨hmem, hone⟩]
  · rw [hinv.osTaskTick_halts hcan] at hk
    cases hk

/-- A notification moves a BLOCKED target only by its reason. -/
theorem Move.of_notify (h : Move s op t p p') (hop : op.notifies = some t) (hp : p.state = .blocked) :
    p' = p ∨ p.blockedReason = .onNotify := by
  have hready : p.state ≠ .ready := by simp [hp]
  cases h with
  | stays => exact Or.inl rfl
  | sleeps _ _ _ _ _ hr _ => exact absurd hr hready
  | wakes o _ _ ho =>
      cases op with
      | notify x v => cases ho
      | notifyFromIsr x v => cases ho
      | _ => cases hop
  | delays _ _ hr _ => exact absurd hr hready
  | awaits _ _ hr _ => exact absurd hr hready
  | notified _ hreason _ => exact Or.inr hreason
  | ticks _ _ htick =>
      subst htick
      cases hop
  | suspends hr _ => exact absurd hr hready
  | resumes hr _ => cases hp.symm.trans hr
  | dies _ hr _ => exact absurd hr hready

/-- A notification of a BLOCKED task with reason ON_NOTIFY makes it READY. -/
theorem step_notify_wakes (hs : step s op = some s') (hop : op.notifies = some t)
    (hp : (s.kernel.waits.phases t).state = .blocked)
    (hr : (s.kernel.waits.phases t).blockedReason = .onNotify) :
    s'.kernel.waits.phases t = (s.kernel.waits.phases t).notified := by
  have hwake : ∀ v, (notifyTask (osSchedEnterCritical s.kernel) t v).2.waits
      = s.kernel.waits.set t (s.kernel.waits.phases t).notified :=
    fun v => (waits_notifyTask _ t v).trans (if_pos ⟨hp, hr⟩)
  cases op with
  | notify x v =>
      obtain rfl := Option.some.inj hop
      obtain ⟨r, hk, rfl⟩ := Option.map_eq_some_iff.mp hs
      have hw := (waits_osTaskNotify hk).trans (hwake v)
      show r.1.waits.phases x = _
      rw [hw]
      exact Waits.phases_set_self ..
  | notifyFromIsr x v =>
      obtain rfl := Option.some.inj hop
      obtain rfl := Option.some.inj hs
      have hw := (waits_osTaskNotifyFromIsr s.kernel x v).trans (hwake v)
      show (osTaskNotifyFromIsr s.kernel x v).1.waits.phases x = _
      rw [hw]
      exact Waits.phases_set_self ..
  | _ => cases hop

/-- A notified task is live. -/
theorem DelayStep.live {σ : DelaySys} (hop : DelayStep σ op) (ht : op.notifies = some t) :
    t ∈ σ.sys.kernel.liveTcbs := by
  rcases hop with htick | hop
  · obtain rfl := Op.eq_tick htick
    cases ht
  · refine hop.1.2.1 t ?_
    cases op with
    | notify x v => exact ht
    | notifyFromIsr x v => exact ht
    | _ => cases ht

/-- Without a stale notification the delays are kept. -/
theorem DelayInv.delaysKept {σ σ' : DelaySys} (h : DelayInv σ) (hop : DelayStep σ op)
    (hstale : ¬ op.HitsStale σ.sys) (hs : delayStep σ op = some σ') : DelaysKept σ op σ' := by
  obtain ⟨s', hk, rfl⟩ := Option.map_eq_some_iff.mp hs
  obtain ⟨L, hinv⟩ := h.lists
  obtain ⟨hm, -, -⟩ := hop.cases hinv hk
  refine ⟨fun t ht hpos => ?_, fun t ht hb hne => ?_⟩
  · obtain ⟨n, hn⟩ : ∃ n, σ.remaining t = n + 1 := ⟨σ.remaining t - 1, by omega⟩
    obtain ⟨hp, -⟩ := h.delayed t ht hpos
    have hphase := h.moves hinv hop hstale hk ht hn
    refine ⟨fun hend => ?_, fun hgo => ?_⟩
    · obtain ⟨rfl, hone⟩ := hend
      rw [hone] at hp
      exact hinv.tick_expires hk ht hp
    · refine (Tcb.phase_state_eq (by simp) (by simp)).mp ?_
      show (s'.kernel.waits.phases t).state = .blocked
      rw [hphase]
      split
      · next htick =>
          have hone : σ.remaining t ≠ 1 := fun hone => hgo ⟨Op.eq_tick htick, hone⟩
          obtain ⟨m, hm⟩ : ∃ m, σ.remaining t = m + 2 := ⟨σ.remaining t - 2, by omega⟩
          rw [hm] at hp
          exact hp.ticked.1
      · exact hp.1
  · by_contra hcall
    have hlive := hop.live ht
    have hb' : (σ.sys.kernel.waits.phases t).state = .blocked :=
      (Tcb.phase_state_eq (by simp) (by simp)).mpr hb
    rcases (hm.moves t hlive).of_notify ht hb' with he | hr
    · refine hne ((Tcb.phase_state_eq (by simp) (by simp)).mp ?_)
      show (s'.kernel.waits.phases t).state = .blocked
      rw [he]
      exact hb'
    · exact hstale ⟨t, ht, hb, hr, hcall⟩

/-- A stale notification wakes a task that is in no `os_task_notify_wait`. -/
theorem Op.HitsStale.not_delaysKept {σ σ' : DelaySys} (hstale : op.HitsStale σ.sys)
    (hs : delayStep σ op = some σ') : ¬ DelaysKept σ op σ' := by
  obtain ⟨s', hk, rfl⟩ := Option.map_eq_some_iff.mp hs
  obtain ⟨t, ht, hb, hr, hcall⟩ := hstale
  intro h
  have hb' : (σ.sys.kernel.waits.phases t).state = .blocked :=
    (Tcb.phase_state_eq (by simp) (by simp)).mpr hb
  refine hcall (h.notified t ht hb fun hblocked => ?_)
  have hphase := step_notify_wakes hk ht hb' hr
  have hblocked' : (s'.kernel.waits.phases t).state = .blocked :=
    (Tcb.phase_state_eq (by simp) (by simp)).mpr hblocked
  rw [hphase] at hblocked'
  cases hblocked'

/-- The steps without stale notifications. -/
def FreshDelayStep (σ : DelaySys) (op : Op) : Prop := DelayStep σ op ∧ ¬ op.HitsStale σ.sys

/-- Whether a step may take place in such a run can be decided. -/
instance (σ : DelaySys) (op : Op) : Decidable (FreshDelayStep σ op) :=
  inferInstanceAs (Decidable (_ ∧ _))

/-- **Delays are kept exactly without stale notifications.** In every state that a run without stale
notifications reaches, a task whose delay has ticks left is BLOCKED; and the next step ends each delay
exactly at its last tick and lets a notification wake only a task inside `os_task_notify_wait` if and
only if it is no stale notification itself. -/
theorem delay_onTime_iff {ops : List Op} {σ : DelaySys} (h₀ : s₀.Init)
    (hr : Run FreshDelayStep delayStep (.start s₀) ops σ) :
    (∀ t ∈ σ.sys.kernel.liveTcbs, 0 < σ.remaining t → (σ.sys.kernel.tcb t).state = .blocked) ∧
      ∀ op σ', DelayStep σ op → delayStep σ op = some σ' →
        (DelaysKept σ op σ' ↔ ¬ op.HitsStale σ.sys) := by
  have h : DelayInv σ := hr.invariant DelayInv (fun _ _ _ h hop hs => h.step hop.1 hop.2 hs)
    ⟨⟨_, h₀.taskListInv⟩, fun t _ hpos => absurd hpos (Nat.lt_irrefl 0)⟩
  refine ⟨fun t ht hpos => ?_, fun op σ' hop hs => ⟨fun hon hstale => ?_, fun hfresh => ?_⟩⟩
  · exact (Tcb.phase_state_eq (by simp) (by simp)).mp (h.delayed t ht hpos).1.1
  · exact hstale.not_delaysKept hs hon
  · exact h.delaysKept hop hfresh hs

/-- A task waits for a notification and gets it, then delays itself and is notified meanwhile. -/
def notifiedDelayTrace : List Op :=
  [.create (taskAt 0x100 2), .create (taskAt 0x200 7), .selectNext, .notifyWait 5, .selectNext,
    .notifyFromIsr 0x100 1, .selectNext, .returnFromCall, .delay 2, .tick, .selectNext,
    .notifyFromIsr 0x100 1]

/-- A task that was notified while it waited has its next delay counted down on time. -/
theorem delay_onTime_iff_notifiedDelayTrace :
    ∃ σ, Run FreshDelayStep delayStep (.start .boot) notifiedDelayTrace σ ∧ σ.remaining 0x100 = 1 ∧
      ∀ σ', delayStep σ .tick = some σ' → DelaysKept σ .tick σ' := by
  obtain ⟨σ, hr, hrem, hstale⟩ := exists_run_of_exec FreshDelayStep delayStep (.start .boot)
    notifiedDelayTrace (fun σ => σ.remaining 0x100 = 1 ∧ ¬ Op.tick.HitsStale σ.sys)
    (by decide +kernel)
  exact ⟨σ, hr, hrem, fun σ' hs =>
    ((delay_onTime_iff Sys.boot_init hr).2 .tick σ' (Or.inl rfl) hs).mpr hstale⟩

/-- A task whose wait timed out delays itself for ten ticks. -/
def staleTrace : List Op :=
  [.create (taskAt 0x100 2), .create (taskAt 0x200 7), .selectNext, .notifyWait 1, .selectNext,
    .tick, .selectNext, .returnFromCall, .delay 10, .selectNext]

/-- **A delay is cut short.** After a wait that timed out, a notification ends a delay of ten ticks
before the first of them. -/
theorem delay_cutShort :
    ∃ σ σ', Run DelayStep delayStep (.start .boot) staleTrace σ ∧
      DelayStep σ (.notifyFromIsr 0x100 1) ∧ delayStep σ (.notifyFromIsr 0x100 1) = some σ' ∧
      σ'.remaining 0x100 = 10 ∧ (σ'.sys.kernel.tcb 0x100).state = .ready ∧
      ¬ DelaysKept σ (.notifyFromIsr 0x100 1) σ' := by
  obtain ⟨σ, hr, hop, hstale, hrem, hst⟩ := exists_run_of_exec DelayStep delayStep (.start .boot)
    staleTrace (fun σ => DelayStep σ (.notifyFromIsr 0x100 1) ∧
      (Op.notifyFromIsr 0x100 1).HitsStale σ.sys ∧
      σ.remaining 0x100 = 10 ∧
      ((osTaskNotifyFromIsr σ.sys.kernel 0x100 1).1.tcb 0x100).state = .ready) (by decide +kernel)
  exact ⟨σ, _, hr, hop, rfl, hrem, hst, hstale.not_delaysKept rfl⟩

end MiniRTOS
