import MiniRTOS.Lib.MaskNesting
import MiniRTOS.Kernel.CriticalPaths
import MiniRTOS.Kernel.Mutex

/-! # Critical sections are balanced

`os_sched_enter_critical` and `os_sched_exit_critical` count in a `uint32_t` and save the mask of the
first four levels only. Whatever path a call takes, and whoever runs in between while interrupts are
open:

* **`critical_sections_balanced`** — it exits only the sections it entered, interrupts are masked as
  long as it has one open, and on its return the nesting and the mask are those it found, exactly if the
  nesting fits its 32 bits on the way.
* **`TakesPath`** — the calls of the model take these paths: what they do to nesting and mask is what
  the events of the path do. -/

namespace MiniRTOS

open BracketedCode MaskNesting

/-! ## The two ports -/

/-- `BASEPRI_SHIFT`. -/
def basepriShift : Nat := 8 - 4

/-- `OS_CONFIG_MAX_SYSCALL_INTERRUPT_PRIORITY`. -/
def maxSyscallInterruptPriority : Nat := 5

/-- `os_port_enter_critical`: what it writes to PRIMASK, or to BASEPRI with interrupt nesting. -/
def portMask (interruptNesting : Bool) : Nat :=
  if interruptNesting then (maxSyscallInterruptPriority <<< basepriShift) &&& 0xFF else 1

/-- **The lock of `scheduler.c`**: `critical_nesting` is a `uint32_t`. -/
def criticalLock (interruptNesting : Bool) : Lock Nat where
  size := 2 ^ 32
  slots := criticalNestingMax
  closed := portMask interruptNesting
  slots_pos := by decide
  size_pos := by decide

/-- `critical_nesting`, `saved_mask` and the mask register. -/
def Kernel.sections (k : Kernel) : Sections Nat where
  nesting := k.criticalNesting
  saved := k.savedMask
  mask := k.primask

/-- `os_sched_enter_critical` enters, while the nesting fits. -/
theorem sections_osSchedEnterCritical {k : Kernel} (h : k.criticalNesting + 1 < 2 ^ 32) :
    (osSchedEnterCritical k).sections = (criticalLock false).step k.sections .enter := by
  have hmod : (k.criticalNesting + 1) % 2 ^ 32 = k.criticalNesting + 1 := Nat.mod_eq_of_lt h
  exact congrArg (fun n => Sections.mk n _ _) hmod.symm

/-- `os_sched_exit_critical` exits. -/
theorem sections_osSchedExitCritical (k : Kernel) :
    (osSchedExitCritical k).sections = (criticalLock false).step k.sections .exit := by
  cases h : k.criticalNesting with
  | zero => simp [Kernel.sections, osSchedExitCritical, Lock.step, h]
  | succ n => simp [Kernel.sections, osSchedExitCritical, Lock.step, h]

/-! ## Every path of every call -/

section

variable {b : Bool} {s : Sections Nat} {f : KernelFn} {t : List Event} {o : BracketedCode.Outcome}

/-- **Critical sections are balanced.** From a reachable state, at any nesting, a run of a kernel
function exits only sections that it entered, and interrupts are masked whenever it has one open, also
in a run that never returns. On a return the nesting and the mask are those of the call, exactly if the
nesting stays below `2 ^ 32` on the way, or the call is made outside of all sections with interrupts
masked. -/
theorem critical_sections_balanced (hs : (criticalLock b).Reachable s)
    (hrun : Runs criticalPath (.call f) t o) :
    StaysMasked (criticalLock b) s t ∧
      (o = .normal → ∀ s', Exec (criticalLock b) s t s' →
        ((s'.nesting = s.nesting ∧ s'.mask = s.mask) ↔
          s.nesting + deepest 0 t < 2 ^ 32 ∨ s.nesting = 0 ∧ s.mask = portMask b)) := by
  obtain ⟨e, hlevel, hret⟩ := hrun.call_balanced criticalPath_closed
  refine ⟨staysMasked hs.sound hlevel, fun ho s' hexec => ?_⟩
  obtain rfl := hret ho
  exact hexec.restored_iff hs.sound hlevel

end

/-- `n` sections inside one another, entered with interrupts open. -/
def nestedSections (n : Nat) : Sections Nat :=
  (criticalLock false).run (List.replicate n .enter) ⟨0, fun _ => 0, 0⟩

/-- A section more is an enter more. -/
theorem nestedSections_succ (n : Nat) :
    nestedSections (n + 1) = (criticalLock false).step (nestedSections n) .enter := by
  rw [nestedSections, List.replicate_succ', Lock.run_append]
  rfl

/-- The counter counts the sections. -/
theorem nesting_nestedSections {n : Nat} (h : n < 2 ^ 32) : (nestedSections n).nesting = n := by
  induction n with
  | zero => rfl
  | succ n ih =>
      rw [nestedSections_succ, Lock.nesting_enter, ih (Nat.lt_of_succ_lt h)]
      exact Nat.mod_eq_of_lt h

/-- Sections inside one another can be reached. -/
theorem reachable_nestedSections (n : Nat) : (criticalLock false).Reachable (nestedSections n) :=
  reachable_run _ ⟨_, rfl, .refl⟩

/-- The run through the branches `bs` of a kernel function. -/
theorem runs_of_branches {f : KernelFn} {t : List Event} (bs : List Bool)
    (h : follow criticalPath 20 bs (.call f) = some (t, .normal, [])) :
    Runs criticalPath (.call f) t .normal :=
  runs_of_follow h

/-- `os_mutex_unlock` of a mutex that nobody waits for: the priority of the owner is restored inside
the section. -/
theorem runs_osMutexUnlock : Runs criticalPath (.call (.mutex .osMutexUnlock))
    [.enter, .enter, .exit, .exit] .normal :=
  runs_of_branches [false, false, false, false, false, false, true, true] (by decide)

/-- `os_mutex_is_locked` has one section. -/
theorem runs_osMutexIsLocked :
    Runs criticalPath (.call (.mutex .osMutexIsLocked)) [.enter, .exit] .normal :=
  runs_of_branches [] (by decide)

/-- Five sections are open, one more than masks are saved, and a mutex is unlocked. -/
theorem critical_sections_balanced_unlock :
    StaysMasked (criticalLock false) (nestedSections 5) [.enter, .enter, .exit, .exit] ∧
      ∀ s', Exec (criticalLock false) (nestedSections 5) [.enter, .enter, .exit, .exit] s' →
        s'.nesting = 5 ∧ s'.mask = 1 := by
  obtain ⟨hmasked, hret⟩ :=
    critical_sections_balanced (reachable_nestedSections 5) runs_osMutexUnlock
  refine ⟨hmasked, fun s' hexec => ?_⟩
  have hn : (nestedSections 5).nesting = 5 := nesting_nestedSections (by decide)
  have hm : (nestedSections 5).mask = 1 := by rw [nestedSections_succ]; rfl
  have h := (hret rfl s' hexec).mpr (.inl (by rw [hn]; decide))
  rwa [hn, hm] at h

/-- With `2 ^ 32 - 1` sections open the counter overflows: the balanced section of `os_mutex_is_locked`
resets it to zero. -/
theorem critical_nesting_overflows :
    ¬ ∀ (s s' : Sections Nat) (f : KernelFn) (t : List Event), (criticalLock false).Reachable s →
      Runs criticalPath (.call f) t .normal → Exec (criticalLock false) s t s' →
      s'.nesting = s.nesting ∧ s'.mask = s.mask := by
  intro h
  have hn : (nestedSections (2 ^ 32 - 1)).nesting = 2 ^ 32 - 1 := nesting_nestedSections (by decide)
  have hreach := reachable_nestedSections (2 ^ 32 - 1)
  generalize nestedSections (2 ^ 32 - 1) = s at hn hreach
  have hz : ((criticalLock false).step s .enter).nesting = 0 := by
    rw [Lock.nesting_enter, hn]
    rfl
  obtain ⟨hret, -⟩ := h s _ _ _ hreach runs_osMutexIsLocked (exec_run _ s)
  rw [Lock.run_cons, Lock.run_cons, Lock.run_nil, Lock.step_exit_of_zero hz, hz, hn] at hret
  cases hret

/-! ## The calls of the model -/

/-- **A call of the model takes a path**: what it does to nesting and mask is what the events of a
returning run of the source function do. None of them nests more than two sections. -/
def TakesPath (f : KernelFn) (k k' : Kernel) : Prop :=
  ∃ t, Runs criticalPath (.call f) t .normal ∧ deepest 0 t ≤ 2 ∧
    k'.sections = (criticalLock false).run t k.sections

/-- Such a call restores nesting and mask. -/
theorem TakesPath.restored {f : KernelFn} {k k' : Kernel} (h : TakesPath f k k')
    (hmask : 0 < k.criticalNesting → k.primask = 1) (hlt : k.criticalNesting + 2 < 2 ^ 32) :
    k'.criticalNesting = k.criticalNesting ∧ k'.primask = k.primask := by
  obtain ⟨t, hrun, hdeep, hsec⟩ := h
  obtain ⟨e, hlevel, hret⟩ := hrun.call_balanced criticalPath_closed
  obtain rfl := hret rfl
  have hsize : k.criticalNesting < 2 ^ 32 := by omega
  have hsound : Sound (criticalLock false) k.sections := ⟨hsize, hmask⟩
  have hexec := exec_run (P := criticalLock false) t k.sections
  rw [← hsec] at hexec
  refine (hexec.restored_iff hsound hlevel).mpr (.inl ?_)
  change k.criticalNesting + deepest 0 t < 2 ^ 32
  omega

section

variable {k k₁ : Kernel} {t : TaskId} {m : Addr}

/-- The control blocks are no part of the lock. -/
@[simp] theorem sections_setTcb (v : Tcb) : (k.setTcb t v).sections = k.sections := rfl

/-- Nor are the mutexes. -/
@[simp] theorem sections_setMutex (v : Mutex) : (k.setMutex m v).sections = k.sections := rfl

/-- Nor is a request to switch. -/
@[simp] theorem sections_osSchedYield : (osSchedYield k).sections = k.sections := rfl

/-- A yield behind a section is not part of it. -/
@[simp] theorem sections_ite_osSchedYield (p : Prop) [Decidable p] :
    (if p then osSchedYield k else k).sections = k.sections := by
  split <;> rfl

/-- Making a task ready opens no section. -/
@[simp] theorem sections_osTaskAddToReady : (osTaskAddToReady k t).sections = k.sections := rfl

/-- Nor does taking one out of its ready list. -/
@[simp] theorem sections_osTaskRemoveFromReady :
    (osTaskRemoveFromReady k t).sections = k.sections := rfl

/-- Nor does blocking one. -/
@[simp] theorem sections_osTaskAddToBlocked (n : Nat) :
    (osTaskAddToBlocked k t n).sections = k.sections := rfl

/-- Nor does freeing a stack. -/
@[simp] theorem sections_freeStack (a : Addr) : (freeStack k a).sections = k.sections := rfl

/-- Nor does freeing a control block. -/
@[simp] theorem sections_freeTcb : (freeTcb k t).sections = k.sections := rfl

/-- The head of a wait list is no part of the lock. -/
@[simp] theorem sections_setWaitHead (h : Option TaskId) (w : WaitList) :
    (k.setWaitHead h w).sections = k.sections := by
  cases w <;> rfl

/-- Taking a task out of a wait list opens no section. -/
@[simp] theorem sections_unblockTask (w : WaitList) : (unblockTask k w t).sections = k.sections := by
  rw [unblockTask]
  split
  · rfl
  · exact sections_setWaitHead _ w

/-- Nor does waking the first waiter. -/
@[simp] theorem sections_wakeTask (w : WaitList) : (wakeTask k w).2.sections = k.sections := by
  rw [wakeTask]
  split
  · rfl
  · exact sections_unblockTask w

/-- Nor does putting a task into a wait list. -/
theorem sections_blockTask {w : WaitList} {n : Nat} {r : BlockedReason} {o : Obj}
    (h : blockTask k w t n r o = some k₁) : k₁.sections = k.sections := by
  rw [blockTask] at h
  obtain ⟨⟨prev, iter⟩, -, h⟩ := Option.bind_eq_some_iff.mp h
  obtain rfl := Option.some.inj h
  rw [linkWaiter]
  split
  · rfl
  · exact sections_setWaitHead _ w

/-- A section of the model. -/
theorem sections_exit_of_enter (hlt : k.criticalNesting + 1 < 2 ^ 32)
    (h : k₁.sections = (osSchedEnterCritical k).sections) :
    (osSchedExitCritical k₁).sections = (criticalLock false).run [.enter, .exit] k.sections := by
  rw [sections_osSchedExitCritical, h, sections_osSchedEnterCritical hlt]
  rfl

/-- A call with one section, through the branches `bs` of the source function. -/
theorem takesPath_of_follow {f : KernelFn} {k' : Kernel} (bs : List Bool)
    (hrun : follow criticalPath 20 bs (.call f) = some ([.enter, .exit], .normal, []))
    (h : k'.sections = (criticalLock false).run [.enter, .exit] k.sections) : TakesPath f k k' :=
  ⟨_, runs_of_branches bs hrun, by decide, h⟩

/-- `os_task_set_priority` has one section. -/
theorem sections_osTaskSetPriority (hlt : k.criticalNesting + 1 < 2 ^ 32) (p : Prio) :
    (osTaskSetPriority k t p).sections = (criticalLock false).run [.enter, .exit] k.sections := by
  refine sections_exit_of_enter hlt ?_
  split <;> rfl

/-- `prv_boost_priority` and `prv_restore_priority` nest a section, or do nothing. -/
theorem sections_prvBoostPriority (hlt : k.criticalNesting + 1 < 2 ^ 32) (p : Prio) :
    (Mutex.prvBoostPriority k m p).sections = k.sections ∨
      (Mutex.prvBoostPriority k m p).sections
        = (criticalLock false).run [.enter, .exit] k.sections := by
  rw [Mutex.prvBoostPriority]
  split
  · exact .inl rfl
  · split
    · exact .inr (sections_osTaskSetPriority hlt p)
    · exact .inl rfl

/-- `prv_restore_priority` has one section or none. -/
theorem sections_prvRestorePriority (hlt : k.criticalNesting + 1 < 2 ^ 32) :
    (Mutex.prvRestorePriority k m).sections = k.sections ∨
      (Mutex.prvRestorePriority k m).sections
        = (criticalLock false).run [.enter, .exit] k.sections := by
  rw [Mutex.prvRestorePriority]
  split
  · exact .inl rfl
  · exact .inr (sections_osTaskSetPriority hlt _)

/-- Waking the next owner opens no section. -/
@[simp] theorem sections_prvWakeAndTransfer :
    (Mutex.prvWakeAndTransfer k m).2.sections = k.sections := by
  have h := sections_wakeTask (k := k) (.mutex m)
  rw [Mutex.prvWakeAndTransfer]
  split
  · next hw => rw [← h, hw]
  · next hw => rw [sections_setMutex, ← h, hw]

/-- A full release has the section of the restored priority, or none. -/
theorem sections_release (hlt : k.criticalNesting + 1 < 2 ^ 32) :
    (Mutex.release k m).2.sections = k.sections ∨
      (Mutex.release k m).2.sections = (criticalLock false).run [.enter, .exit] k.sections := by
  rw [Mutex.release, sections_prvWakeAndTransfer, sections_setMutex]
  exact sections_prvRestorePriority hlt

variable (hlt : k.criticalNesting + 2 < 2 ^ 32)

include hlt

/-- A section of the model with a nested one in it. -/
theorem sections_exit_of_nested
    (h : k₁.sections = (criticalLock false).run [.enter, .exit] (osSchedEnterCritical k).sections) :
    (osSchedExitCritical k₁).sections
      = (criticalLock false).run [.enter, .enter, .exit, .exit] k.sections := by
  rw [sections_osSchedExitCritical, h, sections_osSchedEnterCritical (by omega)]
  rfl

/-- `os_task_set_priority` takes a path of its source. -/
theorem takesPath_osTaskSetPriority (p : Prio) :
    TakesPath (.task .osTaskSetPriority) k (osTaskSetPriority k t p) :=
  takesPath_of_follow [] (by decide) (sections_osTaskSetPriority (by omega) p)

/-- So does `os_task_suspend`. -/
theorem takesPath_osTaskSuspend : TakesPath (.task .osTaskSuspend) k (osTaskSuspend k t) := by
  refine takesPath_of_follow [] (by decide) ?_
  unfold osTaskSuspend
  rw [sections_ite_osSchedYield]
  refine sections_exit_of_enter (by omega) ?_
  split <;> rfl

/-- So does `os_task_resume`. -/
theorem takesPath_osTaskResume : TakesPath (.task .osTaskResume) k (osTaskResume k t) := by
  refine takesPath_of_follow [] (by decide) (sections_exit_of_enter (by omega) ?_)
  split <;> rfl

/-- The delay of a task, up to the switch. -/
theorem takesPath_osTaskDelay {n : Nat} {k' : Kernel} (h : osTaskDelay k n = some k') (hn : n ≠ 0) :
    TakesPath (.task .osTaskDelay) k k' := by
  rw [osTaskDelay, if_neg hn] at h
  obtain ⟨c, -, h⟩ := Option.bind_eq_some_iff.mp h
  obtain rfl := Option.some.inj h
  refine takesPath_of_follow [false, false, true] (by decide) ?_
  exact sections_exit_of_enter (by omega) (sections_osTaskAddToBlocked n)

/-- `os_task_delete` of the caller takes a path of its source. -/
theorem takesPath_osTaskDeleteSelf {k' : Kernel} (h : osTaskDeleteSelf k = some k') :
    TakesPath (.task .osTaskDelete) k k' := by
  obtain ⟨c, -, h⟩ := Option.bind_eq_some_iff.mp h
  obtain rfl := Option.some.inj h
  refine takesPath_of_follow [true, false, false, false, true] (by decide) ?_
  exact sections_exit_of_enter (by omega) rfl

/-- So does `os_task_delete` of another task. -/
theorem takesPath_osTaskDeleteOther :
    TakesPath (.task .osTaskDelete) k (osTaskDeleteOther k t) := by
  refine takesPath_of_follow [false, false, false, false, true] (by decide) ?_
  refine sections_exit_of_enter (by omega) ?_
  rw [sections_freeTcb, apply_ite Kernel.sections, sections_freeStack, ite_self, sections_setTcb]
  split <;> rfl

/-- `os_task_delete` of a task, itself or another one. -/
theorem takesPath_osTaskDelete {handle : Option TaskId} {k' : Kernel}
    (h : osTaskDelete k handle = some (.ok, k')) : TakesPath (.task .osTaskDelete) k k' := by
  cases handle with
  | none =>
      rw [osTaskDelete] at h
      split at h
      · cases h
      · obtain ⟨k₁, hself, heq⟩ := Option.map_eq_some_iff.mp h
        cases heq
        exact takesPath_osTaskDeleteSelf hlt hself
  | some t =>
      rw [osTaskDelete] at h
      split at h
      · obtain ⟨k₁, hself, heq⟩ := Option.map_eq_some_iff.mp h
        cases heq
        exact takesPath_osTaskDeleteSelf hlt hself
      · cases h
        exact takesPath_osTaskDeleteOther hlt

/-- `os_mutex_lock`, up to the switch of a call that blocks. -/
theorem takesPath_osMutexLock {n : Nat} {k' : Kernel} {o : Outcome Status}
    (h : osMutexLock k m n = some (k', o)) : TakesPath (.mutex .osMutexLock) k k' := by
  obtain ⟨c, -, h⟩ := Option.bind_eq_some_iff.mp h
  have hboost := sections_prvBoostPriority (k := osSchedEnterCritical k) (m := m)
    (show k.criticalNesting + 1 + 1 < 2 ^ 32 from hlt) ((osSchedEnterCritical k).prio c)
  split at h
  · -- the mutex is free
    cases h
    exact takesPath_of_follow [false, true, true] (by decide)
      (sections_exit_of_enter (by omega) rfl)
  · split at h
    · -- a recursive lock
      cases h
      exact takesPath_of_follow [false, false, true] (by decide)
        (sections_exit_of_enter (by omega) rfl)
    · split at h
      · cases h
        obtain hb | hb := hboost
        · exact takesPath_of_follow [false, false, false, false, false, true] (by decide)
            (sections_exit_of_enter (by omega) hb)
        · exact ⟨_, runs_of_branches [false, false, false, false, true, false, false, true]
            (by decide), by decide, sections_exit_of_nested hlt hb⟩
      · obtain ⟨k₃, hblock, h⟩ := Option.bind_eq_some_iff.mp h
        cases h
        have hsec := sections_blockTask hblock
        obtain hb | hb := hboost
        · exact takesPath_of_follow
            [false, false, false, false, false, false, false, false, true] (by decide)
            (sections_exit_of_enter (by omega) (hsec.trans hb))
        · exact ⟨_, runs_of_branches [false, false, false, false, true, false, false, false, false,
            false, true] (by decide), by decide, sections_exit_of_nested hlt (hsec.trans hb)⟩

/-- `os_mutex_unlock` takes a path of its source. -/
theorem takesPath_osMutexUnlock {k' : Kernel} {st : Status} {w : Option TaskId}
    (h : osMutexUnlock k m = some (k', st, w)) : TakesPath (.mutex .osMutexUnlock) k k' := by
  obtain ⟨c, hcur, -⟩ := Option.bind_eq_some_iff.mp h
  have hc : k.current = some c := hcur
  have hrel := sections_release (k := Mutex.dropLock k m) (m := m)
    (show k.criticalNesting + 1 + 1 < 2 ^ 32 from hlt)
  have hlast : (osSchedExitCritical (Mutex.release (Mutex.dropLock k m) m).2).sections = k'.sections →
      TakesPath (.mutex .osMutexUnlock) k k' := by
    intro heq
    obtain hr | hr := hrel
    · exact takesPath_of_follow [false, false, false, true, true, true] (by decide)
        (heq.symm.trans (sections_exit_of_enter (by omega) hr))
    · exact ⟨_, runs_osMutexUnlock, by decide, heq.symm.trans (sections_exit_of_nested hlt hr)⟩
  rw [osMutexUnlock_eq hc] at h
  split at h
  · cases h
    exact takesPath_of_follow [false, true] (by decide) (sections_exit_of_enter (by omega) rfl)
  · split at h
    · cases h
      exact takesPath_of_follow [false, false, true] (by decide)
        (sections_exit_of_enter (by omega) rfl)
    · split at h
      · cases h
        exact hlast rfl
      · cases h
        exact hlast (sections_ite_osSchedYield _).symm

end

end MiniRTOS
