import MiniRTOS.Kernel.Context
import MiniRTOS.Kernel.Delays

/-! # Deferred deletion

A task that deletes itself still runs on its own stack, so `os_task_delete` only puts its control
block on `deferred_delete_list` and requests a context switch; the tick that follows frees stack and
control block. The tick does not look at `current_task_ptr`: one that is taken after the deletion has
left its critical section and before the switch frees the memory of the task that still runs.

* **`Reaper`** — the system with the self-deletions and the freed control blocks, in order.
* **`Kernel.Dying`** — a task that has deleted itself and is not freed yet.
* **`deferredDelete_safe_iff`** — every self-deleted task is freed exactly once, and a tick frees the
  memory of the current task exactly when that one is dying. -/

namespace MiniRTOS

open Runs

variable {s s' s₀ : Sys} {k k' : Kernel} {L : Layout} {op : Op} {t c : TaskId} {p p' : Phase}

/-! ## Self-deletions and what they leave -/

/-- **A dying task** has deleted itself, and its memory is not freed yet. -/
def Kernel.Dying (k : Kernel) (t : TaskId) : Prop := t ∈ k.liveTcbs ∧ (k.tcb t).state = .deleted

/-- Whether a task is dying can be decided. -/
instance (k : Kernel) (t : TaskId) : Decidable (k.Dying t) := inferInstanceAs (Decidable (_ ∧ _))

/-- The system, with the tasks that deleted themselves and the tasks whose control blocks were
freed. -/
structure Reaper where
  /-- The system. -/
  sys : Sys
  /-- The self-deletions, oldest first. -/
  deleted : List TaskId
  /-- The control blocks that `os_task_process_deferred_delete` freed, oldest first. -/
  reaped : List TaskId

/-- What can happen: a task deletes itself, or anything else. A SysTick is `.tick` between the calls
of hooks and timers, followed by `.selectNext` in the build without interrupt nesting; a PendSV is
`.selectNext`. -/
inductive ReapOp
  /-- `os_task_delete` by the current task, of itself. -/
  | delete (handle : Option TaskId)
  /-- Any other step. -/
  | call (op : Op)

/-- **One step.** -/
def reapStep (σ : Reaper) : ReapOp → Option Reaper
  | .delete handle => (osTaskDelete σ.sys.kernel handle).map fun r =>
      { σ with sys := σ.sys.after r.2, deleted := σ.deleted ++ σ.sys.kernel.current.toList }
  | .call op => do
      let s ← step σ.sys op
      let l ← if op.isTick then reapedAtTick σ.sys.kernel else some []
      some { σ with sys := s, reaped := σ.reaped ++ l }

/-- What the environment does: a running task deletes itself, by `NULL` or by its own handle; any
other step but a mutex call, and ticks at any time. -/
def ReapOp.Allowed (σ : Reaper) : ReapOp → Prop
  | .delete handle => σ.sys.Permits .task ∧ (handle = none ∨ handle = σ.sys.kernel.current)
  | .call op => op.isTick = true ∨ WithoutMutexes σ.sys op ∧ op.deletes = false

/-- **No tick before the switch**: a tick finds a current task that has not deleted itself. -/
def ReapOp.Switched (σ : Reaper) : ReapOp → Prop
  | .delete _ => True
  | .call op => op.isTick = true → ∀ c ∈ σ.sys.kernel.current, ¬ σ.sys.kernel.Dying c

/-- The steps of the runs below. -/
def SwitchedStep (σ : Reaper) (op : ReapOp) : Prop := op.Allowed σ ∧ op.Switched σ

/-- Whether a step is allowed can be decided. -/
instance ReapOp.decidableAllowed (σ : Reaper) : (op : ReapOp) → Decidable (op.Allowed σ)
  | .delete _ => inferInstanceAs (Decidable (_ ∧ _))
  | .call _ => inferInstanceAs (Decidable (_ ∨ _))

/-- Whether a tick comes after the switch can be decided. -/
instance ReapOp.decidableSwitched (σ : Reaper) : (op : ReapOp) → Decidable (op.Switched σ)
  | .delete _ => inferInstanceAs (Decidable True)
  | .call op => inferInstanceAs (Decidable (op.isTick = true → ∀ c ∈ σ.sys.kernel.current, _))

/-- Whether a step may take place in such a run can be decided. -/
instance (σ : Reaper) (op : ReapOp) : Decidable (SwitchedStep σ op) :=
  inferInstanceAs (Decidable (_ ∧ _))

/-- Nobody has deleted itself. -/
def Reaper.start (s : Sys) : Reaper := ⟨s, [], []⟩

/-! ## Dying tasks -/

/-- Both handles of the current task mean self-deletion. -/
theorem osTaskDelete_current {handle : Option TaskId} (hc : k.current = some c)
    (hh : handle = none ∨ handle = k.current) :
    osTaskDelete k handle = (osTaskDeleteSelf k).map fun k => (.ok, k) := by
  rcases hh with rfl | rfl
  · rw [osTaskDelete, if_neg (by simp [hc])]
  · rw [hc, osTaskDelete, if_pos hc]

/-- Dying tasks, by their phase. -/
theorem Kernel.dying_iff : k.Dying t ↔ t ∈ k.liveTcbs ∧ (k.waits.phases t).state = .deleted := by
  have hst : (k.waits.phases t).state = .deleted ↔ (k.tcb t).state = .deleted :=
    Tcb.phase_state_eq (by simp) (by simp)
  rw [hst]
  exact Iff.rfl

/-- The deferred list holds the dying tasks. -/
theorem TaskListInv.dying_iff (h : TaskListInv k L) : k.Dying t ↔ t ∈ L .deferred := by
  constructor
  · rintro ⟨hlive, hst⟩
    exact (h.placed t hlive .deferred).mpr hst
  · intro ht
    have hlive := h.live _ t ht
    exact ⟨hlive, (h.placed t hlive .deferred).mp ht⟩

/-- A tick leaves no dying task. -/
theorem TaskListInv.not_dying_of_tick (h : TaskListInv k L) (hk : MiniRTOS.osTaskTick k = some k')
    (t : TaskId) : ¬ k'.Dying t := by
  rw [Kernel.dying_iff]
  rintro ⟨hlive', hst'⟩
  have hw := h.waits_osTaskTick hk
  have hwlive : k'.liveTcbs = k.liveTcbs.diff (L .deferred) := (congrArg Waits.live hw : _)
  rw [hwlive] at hlive'
  obtain ⟨hlive, hnot⟩ := (List.Nodup.mem_sdiff_iff h.liveNodup).mp hlive'
  rw [hw] at hst'
  have hst : (k.waits.phases t).state = .deleted := by
    change (if t ∈ L .blocked then _ else _ : Phase).state = _ at hst'
    split at hst'
    · rcases (k.waits.phases t).state_ticked with hsame | hready
      · exact hsame.symm.trans hst'
      · cases hready.symm.trans hst'
    · exact hst'
  exact hnot (h.dying_iff.mp (Kernel.dying_iff.mpr ⟨hlive, hst⟩))

/-- A deleted task moves no more. -/
theorem Move.stays_deleted (h : Move s op t p p') (hp : p.state = .deleted) : p' = p := by
  cases h with
  | stays => rfl
  | sleeps _ _ _ _ _ hst _ => cases hp.symm.trans hst
  | wakes _ hst _ _ => cases hp.symm.trans hst
  | delays _ _ hst _ => cases hp.symm.trans hst
  | awaits _ _ hst _ => cases hp.symm.trans hst
  | notified hst _ _ => cases hp.symm.trans hst
  | ticks hst _ _ => cases hp.symm.trans hst
  | suspends hst _ => cases hp.symm.trans hst
  | resumes hst _ => cases hp.symm.trans hst
  | dies _ hst _ => cases hp.symm.trans hst

/-- **Steps that leave the dying tasks alone**: all but ticks and self-deletions. -/
theorem Moves.dying_iff (h : Moves s op s'.kernel.waits) (htick : op ≠ .tick) (hdel : op ≠ .deleteSelf) :
    s'.kernel.Dying t ↔ s.kernel.Dying t := by
  rw [Kernel.dying_iff, Kernel.dying_iff]
  constructor
  · rintro ⟨hlive', hst'⟩
    rcases h.born t hlive' with hlive | ⟨-, -, hst⟩
    · refine ⟨hlive, ?_⟩
      by_contra hst
      exact hdel ((h.moves t hlive).of_deleted hst hst').1
    · exact absurd hst' hst
  · rintro ⟨hlive, hst⟩
    refine ⟨h.kept t hlive (Or.inr htick), ?_⟩
    rw [(h.moves t hlive).stays_deleted hst, hst]

/-! ## The invariant -/

variable {σ σ' : Reaper}

/-- **Deletions and frees balance**: the lists are well formed, every self-deletion was followed by one
free or its task is dying, and the current task is live. -/
structure ReapInv (σ : Reaper) : Prop where
  /-- The task lists are well formed. -/
  lists : ∃ L, TaskListInv σ.sys.kernel L
  /-- Frees and dying tasks make up the self-deletions. -/
  ledger : ∀ t, σ.reaped.count t + (if σ.sys.kernel.Dying t then 1 else 0) = σ.deleted.count t
  /-- The current task is live. -/
  current : ∀ c ∈ σ.sys.kernel.current, c ∈ σ.sys.kernel.liveTcbs

namespace ReapInv

/-- A self-deletion. -/
theorem delete {handle : Option TaskId} (h : ReapInv σ) (hop : (ReapOp.delete handle).Allowed σ)
    (hs : reapStep σ (.delete handle) = some σ') : ReapInv σ' := by
  obtain ⟨hperm, hhandle⟩ := hop
  obtain ⟨L, hinv⟩ := h.lists
  obtain ⟨c, hc, hlive, hst, -⟩ := Sys.Permits.task hperm
  obtain ⟨k₁, hk₁, hinv₁, hdata⟩ := hinv.deleteSelf hc hlive hst
  rw [reapStep, osTaskDelete_current hc hhandle, hk₁] at hs
  obtain rfl := Option.some.inj hs
  have hlive₁ : k₁.liveTcbs = σ.sys.kernel.liveTcbs := (liveTcbs_of_data hdata : _)
  have hcur₁ : k₁.current = σ.sys.kernel.current := (current_of_data hdata : _)
  have htcb₁ := tcb_of_data hdata
  have hnot : ¬ σ.sys.kernel.Dying c := by
    rintro ⟨-, hdel⟩
    rcases hst with hst | hst <;> cases hst.symm.trans hdel
  -- the caller is the one new dying task
  have hdying : ∀ t, k₁.Dying t ↔ t = c ∨ σ.sys.kernel.Dying t := by
    intro t
    rw [Kernel.Dying, Kernel.Dying, hlive₁, htcb₁]
    show t ∈ _ ∧ (Function.update σ.sys.kernel.tcb c _ t).state = .deleted ↔ _
    by_cases htc : t = c
    · subst htc
      simp [hlive]
    · rw [Function.update_of_ne htc]
      simp [htc]
  refine ⟨⟨_, hinv₁⟩, fun t => ?_, fun x hx => ?_⟩
  · show σ.reaped.count t + (if k₁.Dying t then 1 else 0)
      = (σ.deleted ++ σ.sys.kernel.current.toList).count t
    rw [hc, Option.toList_some, List.count_append, ← h.ledger t]
    by_cases htc : t = c
    · subst htc
      rw [if_pos ((hdying t).mpr (Or.inl rfl)), if_neg hnot, List.count_singleton_self]
    · have hcount : List.count t [c] = 0 := List.count_eq_zero.mpr (by simpa using htc)
      simp only [hdying, htc, false_or, hcount, Nat.add_zero]
  · show x ∈ k₁.liveTcbs
    rw [hlive₁]
    exact h.current x (hcur₁ ▸ hx)

/-- A step that neither deletes nor ticks. -/
theorem call (h : ReapInv σ) (hop : WithoutMutexes σ.sys op) (htick : op.isTick = false)
    (hdel : op.deletes = false) (hs : reapStep σ (.call op) = some σ') : ReapInv σ' := by
  obtain ⟨L, hinv⟩ := h.lists
  have htick' : op ≠ .tick := fun heq => by simp [heq, Op.isTick] at htick
  have hdel' : op ≠ .deleteSelf := fun heq => by simp [heq, Op.deletes] at hdel
  obtain ⟨s', hs', hrest⟩ := Option.bind_eq_some_iff.mp hs
  rw [htick] at hrest
  obtain rfl := Option.some.inj hrest
  have hmoves := step_moves hinv hop.1 hs'
  -- neither a deletion nor a tick: dying tasks and the ledger stay
  refine ⟨taskListInv_of_step hinv hop hs', fun t => ?_, fun c hc => ?_⟩
  · show (σ.reaped ++ []).count t + (if s'.kernel.Dying t then 1 else 0) = _
    simp only [List.append_nil, hmoves.dying_iff htick' hdel', h.ledger]
  · -- only a selection changes the current task
    by_cases hsel : op = .selectNext
    · subst hsel
      obtain rfl := Option.some.inj hs'
      rcases hinv.osSchedSelectNext with ⟨-, hsame⟩ | ⟨q, t, r, n, -, -, hn, hinv', hsw⟩
      · have hc' : c ∈ (osSchedSelectNext σ.sys.kernel).current := hc
        show c ∈ (osSchedSelectNext σ.sys.kernel).liveTcbs
        rw [hsame] at hc' ⊢
        exact h.current c hc'
      · have hcur : (osSchedSelectNext σ.sys.kernel).current = some n :=
          (congrArg Kernel.current hsw.data : _)
        obtain rfl : n = c := Option.some.inj (hcur.symm.trans hc)
        apply hinv'.live (.ready q)
        rw [Layout.set_self]
        exact List.mem_of_mem_head? hn
    · have hcur := (step_context hop.1 hsel hs').current
      exact hmoves.kept c (h.current c (hcur ▸ hc)) (Or.inr htick')

/-- A tick that finds a current task that is not dying. -/
theorem tick (h : ReapInv σ) (hsw : ∀ c ∈ σ.sys.kernel.current, ¬ σ.sys.kernel.Dying c)
    (hs : reapStep σ (.call .tick) = some σ') : ReapInv σ' := by
  obtain ⟨L, hinv⟩ := h.lists
  obtain ⟨s', hs', hrest⟩ := Option.bind_eq_some_iff.mp hs
  obtain ⟨l, hl, hrest⟩ := Option.bind_eq_some_iff.mp hrest
  obtain rfl := Option.some.inj hrest
  obtain ⟨hmoves, hinv', -⟩ := tick_moves hinv hs'
  obtain ⟨k', hk', rfl⟩ := Option.map_eq_some_iff.mp hs'
  obtain rfl : L .deferred = l :=
    Option.some.inj ((hinv.osTaskTick_frees hk').1.symm.trans hl)
  refine ⟨hinv', fun t => ?_, fun c hc => ?_⟩
  · show (σ.reaped ++ L .deferred).count t + (if k'.Dying t then 1 else 0) = _
    rw [if_neg (hinv.not_dying_of_tick hk' t), Nat.add_zero, List.count_append, ← h.ledger t,
      (hinv.lists.nodup .deferred).count]
    simp only [hinv.dying_iff]
  · have hcur : k'.current = σ.sys.kernel.current := by
      obtain ⟨live, -, hv⟩ := view_osTaskTick hk'
      exact (congrArg View.current hv : _)
    have hlive := h.current c (hcur ▸ hc)
    refine hmoves.kept c hlive (Or.inl fun hst => ?_)
    exact hsw c (hcur ▸ hc) (Kernel.dying_iff.mpr ⟨hlive, hst⟩)

/-- **Every step of these runs** keeps the balance. -/
theorem step {op : ReapOp} (h : ReapInv σ) (hop : SwitchedStep σ op) (hs : reapStep σ op = some σ') :
    ReapInv σ' := by
  obtain ⟨hop, hsw⟩ := hop
  cases op with
  | delete handle => exact h.delete hop hs
  | call op =>
      cases htick : op.isTick with
      | true =>
          have hsw' := hsw htick
          obtain rfl := Op.eq_tick htick
          exact h.tick hsw' hs
      | false =>
          obtain ⟨hwo, hdel⟩ := hop.resolve_left (by simp [htick])
          exact h.call hwo htick hdel hs

end ReapInv

/-- The balance holds along every run. -/
theorem reapInv_of_run {ops : List ReapOp} (h₀ : s₀.Init)
    (hr : Run SwitchedStep reapStep (.start s₀) ops σ) : ReapInv σ := by
  refine hr.invariant ReapInv (fun σ op σ' h hop hs => h.step hop hs) ⟨⟨_, h₀.taskListInv⟩, ?_, ?_⟩
  · intro t
    have hnot : ¬ s₀.kernel.Dying t := fun hd => by
      have := hd.1
      rw [h₀.live] at this
      cases this
    show List.count t [] + (if s₀.kernel.Dying t then 1 else 0) = List.count t []
    rw [if_neg hnot, Nat.add_zero]
  · intro c hc
    obtain ⟨k, hk⟩ := h₀.lists
    have hcur : s₀.kernel.current = none := by
      rw [hk]
      rfl
    cases hcur.symm.trans hc

/-! ## What a tick frees -/

/-- **The memory of live tasks lies apart**, as the heap and the callers of `os_task_create` see to. -/
def Kernel.MemoryApart (k : Kernel) : Prop :=
  ∀ t ∈ k.liveTcbs, ∀ u ∈ k.liveTcbs, t ≠ u →
    (k.tcb t).stackBase ≠ (k.tcb u).stackBase ∧ (k.tcb t).stackBase ≠ u

/-- Whether the memory lies apart can be decided. -/
instance (k : Kernel) : Decidable k.MemoryApart :=
  inferInstanceAs (Decidable (∀ t ∈ k.liveTcbs, ∀ u ∈ k.liveTcbs, t ≠ u → _))

/-- The step from `k` to `k'` has freed control block or stack of the current task. -/
def FreesCurrent (k k' : Kernel) : Prop :=
  ∃ c ∈ k.current, ∃ frees, k'.freed = k.freed ++ frees ∧ (c ∈ frees ∨ (k.tcb c).stackBase ∈ frees)

/-- What the deferred-delete loop frees for a task is that task's. -/
theorem mem_deferredFrees {a : Addr} {l : List TaskId} (h : a ∈ deferredFrees k l) :
    ∃ t ∈ l, a = t ∨ a = (k.tcb t).stackBase := by
  obtain ⟨t, ht, ha⟩ := List.mem_flatMap.mp h
  refine ⟨t, ht, ?_⟩
  split at ha
  · rcases List.mem_cons.mp ha with rfl | ha
    · exact Or.inr rfl
    · exact Or.inl (List.mem_singleton.mp ha)
  · exact Or.inl (List.mem_singleton.mp ha)

/-- The control block of each task on the list is freed. -/
theorem tcb_mem_deferredFrees {l : List TaskId} (ht : t ∈ l) : t ∈ deferredFrees k l := by
  refine List.mem_flatMap.mpr ⟨t, ht, ?_⟩
  split <;> simp

/-- **A tick frees memory of the current task exactly when that one is dying.** -/
theorem TaskListInv.freesCurrent_iff (h : TaskListInv k L) (hlive : ∀ c ∈ k.current, c ∈ k.liveTcbs)
    (hapart : k.MemoryApart) (hk : MiniRTOS.osTaskTick k = some k') :
    FreesCurrent k k' ↔ ∃ c ∈ k.current, k.Dying c := by
  have hfreed := (h.osTaskTick_frees hk).2
  constructor
  · rintro ⟨c, hc, frees, hfrees, hmem⟩
    refine ⟨c, hc, h.dying_iff.mpr ?_⟩
    obtain rfl := List.append_cancel_left (hfreed.symm.trans hfrees)
    by_contra hnot
    have hne : ∀ t ∈ L .deferred, c ≠ t := fun t ht hct => hnot (hct ▸ ht)
    rcases hmem with hmem | hmem
    · obtain ⟨t, ht, hct⟩ := mem_deferredFrees hmem
      have hap := hapart t (h.live _ t ht) c (hlive c hc) (hne t ht).symm
      exact hct.elim (hne t ht) hap.2.symm
    · obtain ⟨t, ht, hct⟩ := mem_deferredFrees hmem
      have hap := hapart c (hlive c hc) t (h.live _ t ht) (hne t ht)
      exact hct.elim hap.2 hap.1
  · rintro ⟨c, hc, hdying⟩
    exact ⟨c, hc, _, hfreed, Or.inl (tcb_mem_deferredFrees (h.dying_iff.mp hdying))⟩

/-- **Deferred deletion is safe exactly when no tick comes before the switch.** In every state of every
run whose ticks find a current task that has not deleted itself: every self-deletion is matched by
one free of its control block or is still pending; the next tick leaves none pending, freeing each
one once with its stack; and that tick leaves the memory of the current task alone if and only if the
current task has not deleted itself. -/
theorem deferredDelete_safe_iff {ops : List ReapOp} (h₀ : s₀.Init)
    (hr : Run SwitchedStep reapStep (.start s₀) ops σ) :
    (∀ t, σ.reaped.count t + (if σ.sys.kernel.Dying t then 1 else 0) = σ.deleted.count t) ∧
      ∀ k', osTaskTick σ.sys.kernel = some k' →
        (∃ l, reapedAtTick σ.sys.kernel = some l ∧
          k'.freed = σ.sys.kernel.freed ++ deferredFrees σ.sys.kernel l ∧
          ∀ t, (σ.reaped ++ l).count t = σ.deleted.count t) ∧
        (σ.sys.kernel.MemoryApart →
          (¬ FreesCurrent σ.sys.kernel k' ↔
            ∀ c ∈ σ.sys.kernel.current, ¬ σ.sys.kernel.Dying c)) := by
  have hI := reapInv_of_run h₀ hr
  obtain ⟨L, hinv⟩ := hI.lists
  refine ⟨hI.ledger, fun k' hk' => ⟨⟨L .deferred, ?_, ?_, fun t => ?_⟩, fun hapart => ?_⟩⟩
  · exact (hinv.osTaskTick_frees hk').1
  · exact (hinv.osTaskTick_frees hk').2
  · rw [List.count_append, ← hI.ledger t, (hinv.lists.nodup .deferred).count]
    simp only [hinv.dying_iff]
  · rw [hinv.freesCurrent_iff hI.current hapart hk']
    simp only [not_exists, not_and]

/-- Three tasks: the first one deletes itself by `NULL`, is switched out and freed; the second one
deletes itself by its own handle and is switched out. -/
def reapTrace : List ReapOp :=
  [.call (.create (taskAt 0x100 2)), .call (.create (taskAt 0x200 3)), .call (.create (taskAt 0x300 4)),
    .call .selectNext, .delete none, .call .selectNext, .call .tick, .delete (some 0x200),
    .call .selectNext]

/-- The first task has been freed once, and the next tick does not free the current one. -/
theorem deferredDelete_safe_iff_reapTrace : ∃ σ k',
    Run SwitchedStep reapStep (.start .boot) reapTrace σ ∧ σ.deleted = [0x100, 0x200] ∧
    σ.reaped.count 0x200 + 1 = σ.deleted.count 0x200 ∧ osTaskTick σ.sys.kernel = some k' ∧
    ¬ FreesCurrent σ.sys.kernel k' := by
  obtain ⟨σ, hr, hdel, hdying, hcur, hapart, htick⟩ := exists_run_of_exec SwitchedStep reapStep
    (.start .boot) reapTrace (fun σ => σ.deleted = [0x100, 0x200] ∧ σ.sys.kernel.Dying 0x200 ∧
      (∀ c ∈ σ.sys.kernel.current, ¬ σ.sys.kernel.Dying c) ∧ σ.sys.kernel.MemoryApart ∧
      (osTaskTick σ.sys.kernel).isSome) (by decide +kernel)
  obtain ⟨k', hk'⟩ := Option.isSome_iff_exists.mp htick
  obtain ⟨hledger, hsafe⟩ := deferredDelete_safe_iff Sys.boot_init hr
  have hcount := hledger 0x200
  rw [if_pos hdying] at hcount
  exact ⟨σ, k', hr, hdel, hcount, hk', ((hsafe k' hk').2 hapart).mpr hcur⟩

/-- **A tick between the deletion and the switch** frees stack and control block of the task that still
runs. -/
theorem deferredDelete_frees_current : ∃ σ k',
    Run (fun σ op => op.Allowed σ) reapStep (.start .boot)
      [.call (.create (taskAt 0x100 2)), .call (.create (taskAt 0x200 3)), .call .selectNext,
        .delete none] σ ∧
    σ.sys.kernel.MemoryApart ∧ σ.sys.kernel.current = some 0x100 ∧
    osTaskTick σ.sys.kernel = some k' ∧ k'.current = some 0x100 ∧
    k'.freed = σ.sys.kernel.freed ++ [0x1100, 0x100] ∧ FreesCurrent σ.sys.kernel k' := by
  obtain ⟨σ, hr, hapart, hcur, htick⟩ := exists_run_of_exec (fun σ op => op.Allowed σ) reapStep
    (.start .boot)
    [.call (.create (taskAt 0x100 2)), .call (.create (taskAt 0x200 3)), .call .selectNext,
      .delete none]
    (fun σ => σ.sys.kernel.MemoryApart ∧ σ.sys.kernel.current = some 0x100 ∧
      (osTaskTick σ.sys.kernel).any fun k' => k'.current = some 0x100 ∧
        k'.freed = σ.sys.kernel.freed ++ [0x1100, 0x100]) (by decide +kernel)
  obtain ⟨k', hk', hfree⟩ := (Option.any_eq_true _ _).mp htick
  obtain ⟨hcur', hfreed⟩ := of_decide_eq_true hfree
  exact ⟨σ, k', hr, hapart, hcur, hk', hcur', hfreed, 0x100, hcur, _, hfreed, by simp⟩

end MiniRTOS
