import MiniRTOS.Kernel.SystemFrames

/-! # Giving inherited priority back

A mutex remembers in `original_prio` the priority its owner had when it got the mutex, and writes it
back at the full release. As long as every mutex is acquired at the priority the task was created
with, `original_prio` is that priority, so a task that owns no mutex has it again. An acquisition
while boosted stores the boost; released last, that mutex leaves its owner boosted for good. -/

namespace MiniRTOS

open Runs

variable {s s' s₀ : Sys} {op : Op} {c : TaskId}

/-! ## The runs -/

/-- The task that a step makes the owner of a mutex: the caller that finds it free, or the first
waiter at a full release. -/
def Sys.acquirer (s : Sys) : Op → Option TaskId
  | .mutexLock m _ => if (s.kernel.mutexes m).owner = none then s.kernel.current else none
  | .mutexUnlock m =>
      if (s.kernel.mutexes m).owner = s.kernel.current ∧ (s.kernel.mutexes m).lastLock then
        (s.kernel.waitHead (.mutex m)).filter fun w => s.kernel.current ≠ some w
      else none
  | _ => none

/-- **Acquisitions at the created priority.** Whoever becomes the owner of a mutex has the priority
it was created with. Control blocks are not reused, and a held mutex is not initialised again. -/
def AcquiresAtBase (s : Sys) (op : Op) : Prop :=
  op.Allowed s ∧ (∀ t ∈ s.acquirer op, s.AtBase t) ∧ (∀ t ∈ op.newTask, basePrio s.log t = none) ∧
    ∀ m ∈ op.newMutex, (s.kernel.mutexes m).owner = none

/-- Whether an owner is at its base priority when it locks can be decided. -/
instance (s : Sys) (op : Op) : Decidable (AcquiresAtBase s op) :=
  inferInstanceAs (Decidable (_ ∧ _))

/-! ## The invariant -/

/-- **What is kept**: `original_prio` is the created priority of the owner, and a task without a mutex
has its created priority. -/
structure View.AtBase (v : View) (base : TaskId → Option Nat) : Prop where
  /-- The mutexes remember created priorities. -/
  original : ∀ m o, (v.locks m).owner = some o → base o = some (v.locks m).originalPrio.val
  /-- A task that owns no mutex has its created priority. -/
  free : ∀ t ∈ v.live, (∀ m, (v.locks m).owner ≠ some t) → base t = some (v.prios t).val

namespace View.AtBase

variable {v : View} {base : TaskId → Option Nat} {m : Addr}

/-- A mutex changes hands to a task at its created priority. -/
theorem acquire (h : v.AtBase base) {n : Nat} (hw : ∀ o, (v.locks m).owner = some o → o = c)
    (hc : base c = some (v.prios c).val) :
    (v.setLock m { v.locks m with owner := some c, lockCount := n, originalPrio := v.prios c }).AtBase
      base := by
  refine ⟨fun x o ho => ?_, fun t ht hfree => ?_⟩
  · rw [View.locks_setLock] at ho ⊢
    split at ho
    · next hx =>
        obtain rfl := Option.some.inj ho
        rw [if_pos hx]
        exact hc
    · next hx =>
        rw [if_neg hx]
        exact h.original x o ho
  · -- a task that owns nothing now did not own `m` before either, unless it is the new owner
    refine h.free t ht fun x hx => hfree x ?_
    rw [View.locks_setLock]
    split
    · next hxm =>
        subst hxm
        rw [hw t hx]
    · exact hx

/-- Counting a recursive lock up or down. -/
theorem recount (h : v.AtBase base) (n : Nat) :
    (v.setLock m { v.locks m with lockCount := n }).AtBase base := by
  have hlock : ∀ x, ((v.setLock m { v.locks m with lockCount := n }).locks x).owner = (v.locks x).owner ∧
      ((v.setLock m { v.locks m with lockCount := n }).locks x).originalPrio
        = (v.locks x).originalPrio := by
    intro x
    rw [View.locks_setLock]
    split
    · next hx => rw [hx]; exact ⟨rfl, rfl⟩
    · exact ⟨rfl, rfl⟩
  refine ⟨fun x o ho => ?_, fun t ht hfree => h.free t ht fun x hx => hfree x ?_⟩
  · rw [(hlock x).1] at ho
    rw [(hlock x).2]
    exact h.original x o ho
  · rw [(hlock x).1]
    exact hx

/-- Boosting the owner of a mutex. -/
theorem boost (h : v.AtBase base) {o : TaskId} (ho : (v.locks m).owner = some o) :
    (v.boost c o).AtBase base := by
  unfold View.boost
  split
  · refine ⟨h.original, fun t ht hfree => ?_⟩
    have hto : t ≠ o := fun hto => hfree m (hto ▸ ho)
    rw [View.prios_setPrio, if_neg hto]
    exact h.free t ht hfree
  · exact h

/-- A full release, with a waiter at its created priority. -/
theorem release (h : v.AtBase base) {w : Option TaskId} (ho : (v.locks m).owner = some c)
    (hw : ∀ t ∈ w, t ≠ c → base t = some (v.prios t).val) : (v.release m c w).AtBase base := by
  have hc := h.original m c ho
  -- the releasing task is back at its created priority
  have hrest : ∀ t, (t = c ∨ base t = some (v.prios t).val) →
      base t = some ((v.setPrio c (v.locks m).originalPrio).prios t).val := by
    intro t ht
    rw [View.prios_setPrio]
    split
    · next htc => rw [htc, hc]
    · next htc => exact ht.resolve_left htc
  refine ⟨fun x o hx => ?_, fun t ht hfree => hrest t ?_⟩
  · rw [View.release, View.locks_setLock] at hx ⊢
    split at hx
    · next hxm =>
        rw [if_pos hxm]
        cases w with
        | none => cases hx
        | some t =>
            obtain rfl := Option.some.inj hx
            refine hrest t ?_
            by_cases htc : t = c
            · exact Or.inl htc
            · exact Or.inr (hw t rfl htc)
    · next hxm =>
        rw [if_neg hxm]
        exact h.original x o hx
  · by_cases htc : t = c
    · exact Or.inl htc
    · refine Or.inr (h.free t ht fun x hx => hfree x ?_)
      rw [View.release, View.locks_setLock]
      split
      · next hxm =>
          subst hxm
          rw [ho] at hx
          exact absurd (Option.some.inj hx).symm htc
      · exact hx

end View.AtBase

/-- The invariant of the runs. -/
def Sys.BaseInv (s : Sys) : Prop := s.kernel.view.AtBase (basePrio s.log)

/-- Steps that leave the mutexes alone. -/
theorem Sys.BaseInv.frame (h : s.BaseInv) (hf : MutexFrame op s s') (hop : AcquiresAtBase s op) :
    s'.BaseInv := by
  refine ⟨fun m o ho => ?_, fun t ht hfree => ?_⟩
  · -- control blocks are not reused, so the owner keeps its created priority
    rw [hf.locks] at ho ⊢
    have hbase := h.original m o ho
    obtain ⟨es, hlog, -, hcr, -⟩ := hf.events
    rw [hlog, basePrio_append, hbase]
    intro p hp
    have hnone := hop.2.2.1 o (hcr o p hp).2
    rw [hbase] at hnone
    cases hnone
  · by_cases hlive : t ∈ s.kernel.liveTcbs
    · rw [hf.locks] at hfree
      have hprio : s'.kernel.view.prios t = s.kernel.view.prios t := hf.prios t hlive
      rw [hf.basePrio_eq hlive, hprio]
      exact h.free t hlive hfree
    · exact hf.live t ht hlive

/-- Steps that log no creation. -/
theorem Sys.BaseInv.of_log (es : List Event) (h : s'.kernel.view.AtBase (basePrio s.log))
    (hlog : s'.log = s.log ++ es) (hes : ∀ t p, .created t p ∉ es) : s'.BaseInv := by
  have hbase : basePrio s'.log = basePrio s.log := by
    funext t
    rw [hlog, basePrio_append (hes t)]
  rw [Sys.BaseInv, hbase]
  exact h

/-- **One step keeps the invariant.** -/
theorem Sys.BaseInv.step (h : s.BaseInv) (hop : AcquiresAtBase s op) (hs : step s op = some s') :
    s'.BaseInv := by
  cases hm : op.mutex with
  | none => exact h.frame (step_mutexFrame hop.1 hm hs) hop
  | some m =>
      cases op with
      | mutexCreate m =>
          obtain rfl := Option.some.inj hs
          have howner := hop.2.2.2 m rfl
          refine Sys.BaseInv.of_log [] ?_ (List.append_nil _).symm (by simp)
          show (s.kernel.setMutex m ⟨none, 0, 0, none⟩).view.AtBase _
          rw [view_setMutex]
          refine ⟨fun x o ho => ?_, fun t ht hfree => h.free t ht fun x hx => hfree x ?_⟩
          · rw [View.locks_setLock] at ho ⊢
            split at ho
            · cases ho
            · next hx =>
                rw [if_neg hx]
                exact h.original x o ho
          · rw [View.locks_setLock]
            split
            · next hxm =>
                subst hxm
                have hnone : (s.kernel.view.locks x).owner = none := howner
                rw [hnone] at hx
                cases hx
            · exact hx
      | mutexLock m n =>
          obtain ⟨c, hc, hl, -, -⟩ := Sys.Permits.task hop.1.1
          cases step_mutexLock hc hs with
          | free howner hview hcall hlog =>
              refine Sys.BaseInv.of_log _ ?_ hlog (by simp)
              have hacq : s.acquirer (.mutexLock m n) = some c := by
                have ho : (s.kernel.mutexes m).owner = none := howner
                simp [Sys.acquirer, ho, hc]
              rw [hview]
              refine h.acquire (fun o ho => ?_) (hop.2.1 c hacq)
              rw [howner] at ho
              cases ho
          | again howner hview hcall hlog =>
              refine Sys.BaseInv.of_log _ ?_ hlog (by simp)
              rw [hview]
              exact h.recount _
          | refused o howner hne hview hcall r hr hlog =>
              refine Sys.BaseInv.of_log _ ?_ hlog (by simp)
              rw [hview]
              exact h.boost howner
          | blocked o howner hne hview hcall hlog =>
              refine Sys.BaseInv.of_log (s := s) [] ?_ (by rw [hlog, List.append_nil]) (by simp)
              rw [hview]
              exact h.boost howner
      | mutexUnlock m =>
          obtain ⟨c, hc, hl, -, -⟩ := Sys.Permits.task hop.1.1
          cases (step_mutexUnlock hc hs).2 with
          | foreign howner hview hlog =>
              refine Sys.BaseInv.of_log _ ?_ hlog (by simp)
              rw [hview]
              exact h
          | again howner hlast hview hlog =>
              refine Sys.BaseInv.of_log _ ?_ hlog (by simp)
              rw [hview]
              exact h.recount _
          | full howner hlast hview hlog =>
              refine Sys.BaseInv.of_log _ ?_ hlog ?_
              · rw [hview]
                refine h.release howner fun w hw hwc => hop.2.1 w ?_
                have ho : (s.kernel.mutexes m).owner = some c := howner
                have hl' : (s.kernel.mutexes m).lastLock := hlast
                have hw' : s.kernel.waitHead (.mutex m) = some w := hw
                simp [Sys.acquirer, ho, hc, hl', hw', Ne.symm hwc]
              · intro t p
                cases s.kernel.waitHead (.mutex m) <;> simp [handOffEvents]
      | _ => cases hm

/-- The invariant holds at start-up. -/
theorem Sys.Init.baseInv (h : s.Init) (hfree : s.NoneHeld) : s.BaseInv := by
  refine ⟨fun m o ho => ?_, fun t ht => ?_⟩
  · have hnone : (s.kernel.view.locks m).owner = none := (hfree m).1
    rw [hnone] at ho
    cases ho
  · have hlive : s.kernel.view.live = [] := h.live
    rw [hlive] at ht
    cases ht

/-- **Inherited priority is given back** in every run whose acquisitions are all made at the created
priority: a task that owns no mutex has the priority it was created with. -/
theorem priority_givenBack {ops : List Op} (h₀ : s₀.Init) (hfree : s₀.NoneHeld)
    (hr : Run AcquiresAtBase step s₀ ops s) :
    ∀ t ∈ s.kernel.liveTcbs, (∀ m, (s.kernel.mutexes m).owner ≠ some t) → s.AtBase t :=
  (hr.invariant Sys.BaseInv (fun _ _ _ h hop hs => h.step hop hs)
    (h₀.baseInv hfree)).free

/-- A task that locks a mutex, is boosted by a second one and unlocks it again. -/
def boostTrace : List Op :=
  [.mutexCreate 0x10, .create (taskAt 0x100 5), .selectNext, .mutexLock 0x10 waitForever,
    .create (taskAt 0x200 1), .selectNext, .mutexLock 0x10 waitNone, .delay 10, .selectNext,
    .mutexUnlock 0x10]

/-- A task that was boosted and has unlocked the mutex is at its base priority again. -/
theorem priority_givenBack_boostTrace :
    ∃ s, Run AcquiresAtBase step .boot boostTrace s ∧
      ∀ t ∈ s.kernel.liveTcbs, (∀ m, (s.kernel.mutexes m).owner ≠ some t) → s.AtBase t := by
  obtain ⟨s, hr, -⟩ := exists_run_of_exec AcquiresAtBase step Sys.boot
    boostTrace (fun _ => True) (by decide +kernel)
  exact ⟨s, hr, priority_givenBack Sys.boot_init Sys.boot_noneHeld hr⟩

/-- The task locks a second mutex while it is boosted, and unlocks the first one first. -/
def boostedLockTrace : List Op :=
  [.mutexCreate 0x10, .mutexCreate 0x20, .create (taskAt 0x100 5), .selectNext,
    .mutexLock 0x10 waitForever, .create (taskAt 0x200 1), .selectNext, .mutexLock 0x10 waitNone,
    .delay 10, .selectNext, .mutexLock 0x20 waitForever, .mutexUnlock 0x10, .mutexUnlock 0x20]

/-- **A boost can outlive all mutexes**: the second mutex has stored the boosted priority. -/
theorem priority_kept :
    ¬ ∀ (ops : List Op) (s : Sys), Run Permitted step .boot ops s →
      ∀ t ∈ s.kernel.liveTcbs, (∀ m, (s.kernel.mutexes m).owner ≠ some t) → s.AtBase t := by
  intro hall
  obtain ⟨s, hr, hlive, h₁, h₂, hprio⟩ := exists_run_of_exec Permitted step
    Sys.boot boostedLockTrace
    (fun s => 0x100 ∈ s.kernel.liveTcbs ∧ (s.kernel.mutexes 0x10).owner ≠ some 0x100 ∧
      (s.kernel.mutexes 0x20).owner ≠ some 0x100 ∧ ¬ s.AtBase 0x100) (by decide +kernel)
  refine hprio (hall _ s hr 0x100 hlive fun m => ?_)
  by_cases hm₁ : m = 0x10
  · exact hm₁ ▸ h₁
  by_cases hm₂ : m = 0x20
  · exact hm₂ ▸ h₂
  -- the run is about these two mutexes only
  have hlock := run_locks_of_ne (m := m) hr (by
    simp [boostedLockTrace, Op.mutex, Ne.symm hm₁, Ne.symm hm₂])
  have howner : (s.kernel.mutexes m).owner = none := congrArg Mutex.owner hlock
  rw [howner]
  simp

end MiniRTOS
