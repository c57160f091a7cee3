import MiniRTOS.Kernel.MutexInv
import MiniRTOS.Kernel.TaskMoves

/-! # No satisfied waiter sleeps

Whether a task may sleep in `os_eventgroup_wait_bits` depends on bits that other calls set and clear.
After each call, no task in the wait list of an event group has its condition met.

* **`Phase.satisfied`, `eventSatisfied_mono`** — clearing bits satisfies nobody, so only the setting
  calls can; these run one pass over the waiters, and `Waits.wakePass_passed` says that one pass is
  enough.
* **`eventWaiters_unsatisfied`** — the statement for every group and every run without mutexes.
* **`eventsUnmet_of_safeRun`** — and for every run with them, as long as no boosted owner releases one for
  good. -/

namespace MiniRTOS

open Runs

variable {e : Addr} {s s' s₀ : Sys} {L : Layout} {op : Op} {t : TaskId} {v : Waits}

/-! ## Runs with the interrupt form of the clearing call -/

/-- A step of the system, or `os_eventgroup_clear_bits_from_isr`. -/
inductive GroupOp
  /-- A step of the system. -/
  | op (o : Op)
  /-- `os_eventgroup_clear_bits_from_isr`. -/
  | clearFromIsr (e : Addr) (bits : BitVec 32)

/-- One step. -/
def groupStep (s : Sys) : GroupOp → Option Sys
  | .op o => step s o
  | .clearFromIsr e bits => some (s.onIsr (osEventgroupClearBitsFromIsr s.kernel e bits).1)

/-- The steps of the runs below: an interrupt can clear bits at any time. -/
def GroupOp.Allowed (s : Sys) : GroupOp → Prop
  | .op o => WithoutMutexes s o
  | .clearFromIsr .. => True

/-- Whether a step is allowed can be decided. -/
instance (s : Sys) : (o : GroupOp) → Decidable (o.Allowed s)
  | .op o => inferInstanceAs (Decidable (WithoutMutexes s o))
  | .clearFromIsr .. => inferInstanceAs (Decidable True)

/-! ## The invariant -/

/-- **No waiter is satisfied.** -/
def EventsUnmet (k : Kernel) : Prop :=
  ∀ e t, k.WaitsOn (.eventGroup e) t → (k.waits.phases t).satisfied (k.waits.bits e) = false

/-- The waiters of an event group are the tasks of its wait list. -/
theorem TaskListInv.mem_eventGroup_iff {k : Kernel} (h : TaskListInv k L) :
    t ∈ L (.wait (.eventGroup e)) ↔ k.WaitsOn (.eventGroup e) t := by
  refine h.mem_wait_iff (w := .eventGroup e) fun u hu => ?_
  cases u <;> simp_all [WaitList.obj]

/-- A task that goes on waiting under a call on another object waits for the same bits. -/
theorem Move.satisfied_eq {p p' : Phase} {o : Obj} (h : Move s op t p p')
    (hready : p.state = .ready → p.blockedOn = none) (hb : p.blockedOn = some o) (b : BitVec 32) :
    p'.satisfied b = p.satisfied b := by
  cases h with
  | sleeps w n b o' hc hp ho => cases (hready hp).symm.trans hb
  | ticks hp hb hop =>
      unfold Phase.ticked
      split
      · rfl
      · split <;> rfl
  | _ => rfl

/-- Clearing bits of one group leaves every waiter unsatisfied. -/
theorem EventsUnmet.clear {k k' : Kernel} {b : BitVec 32} (h : EventsUnmet k)
    (hle : ∀ i : Nat, b.getLsbD i = true → (k.waits.bits e).getLsbD i = true)
    (hk : k'.waits = k.waits.setBits e b) : EventsUnmet k' := by
  intro x t ht
  have hlive : k'.liveTcbs = k.liveTcbs := congrArg Waits.live hk
  have hphase : k'.waits.phases t = k.waits.phases t := by
    rw [hk]
    rfl
  have ht' : k.WaitsOn (.eventGroup x) t := ⟨hlive ▸ ht.1, hphase ▸ ht.2⟩
  have hun := h x t ht'
  have hbits : k'.waits.bits x = if x = e then b else k.waits.bits x := by
    rw [hk]
    exact Function.update_apply ..
  rw [hphase, hbits]
  split
  · next hx =>
      subst hx
      by_contra hsat
      rw [Bool.not_eq_false] at hsat
      have hmono := eventSatisfied_mono hle hsat
      exact absurd (hmono.symm.trans hun) (by simp)
  · exact hun

/-- Steps on other objects. -/
theorem EventsUnmet.elsewhere (h : EventsUnmet s.kernel) (hinv : TaskListInv s.kernel L)
    (hmoves : Moves s op s'.kernel.waits) (x : Addr) (hop : op.object ≠ some (.eventGroup x))
    (ht : s'.kernel.WaitsOn (.eventGroup x) t) :
    (s'.kernel.waits.phases t).satisfied (s'.kernel.waits.bits x) = false := by
  have ht' := (hmoves.waitsOn_iff hinv hop t).mp ht
  rw [(hmoves.moves t ht'.1).satisfied_eq (hinv.blockedOn_of_ready ht'.1) ht'.2,
    hmoves.bits x hop]
  exact h x t ht'

/-- A setting call wakes every waiter that its bits satisfy. -/
theorem wakePass_unmet {k k' : Kernel} {b : BitVec 32} (hinv : TaskListInv k L)
    (hk : k'.waits = (k.waits.setBits e b).wakePass e (L (.wait (.eventGroup e))))
    (ht : k'.WaitsOn (.eventGroup e) t) :
    (k'.waits.phases t).satisfied (k'.waits.bits e) = false := by
  have hpass := Waits.wakePass_passed e (k.waits.setBits e b) (hinv.lists.nodup (.wait (.eventGroup e)))
  rw [← hk] at hpass
  have hlive : k'.liveTcbs = k.liveTcbs := hpass.live
  by_cases hmem : t ∈ L (.wait (.eventGroup e))
  · rcases hpass.waiters t hmem with hw | ⟨hw, hun⟩
    · -- a woken task waits for nothing
      have hb := ht.2
      rw [hw] at hb
      cases hb
    · rw [hw]
      exact hun
  · have hphase : k'.waits.phases t = k.waits.phases t := hpass.apart t hmem
    exact absurd (hinv.mem_eventGroup_iff.mpr ⟨hlive ▸ ht.1, hphase ▸ ht.2⟩) hmem

/-- A task goes to sleep only with its condition unmet. -/
theorem EventsUnmet.sleeps {k k' : Kernel} {c : TaskId} {bits options : BitVec 32} {n : Nat}
    (h : EventsUnmet k) (hun : eventSatisfied (k.waits.bits e) bits options = false)
    (hk : k'.waits = k.waits.set c ((k.waits.phases c).eventWaiting e bits options n))
    (ht : k'.WaitsOn (.eventGroup e) t) :
    (k'.waits.phases t).satisfied (k'.waits.bits e) = false := by
  have hon := (waitsOn_set hk t).mp ht
  rw [hk]
  show (Function.update k.waits.phases c _ t).satisfied (k.waits.bits e) = false
  by_cases htc : t = c
  · subst htc
    rw [Function.update_self]
    exact hun
  · rw [if_neg htc] at hon
    rw [Function.update_of_ne htc]
    exact h e t hon

/-- **One step keeps every waiter unsatisfied.** -/
theorem EventsUnmet.step (h : EventsUnmet s.kernel) (hinv : TaskListInv s.kernel L)
    (hop : op.Allowed s) (hs : step s op = some s') : EventsUnmet s'.kernel := by
  have hmoves := step_moves hinv hop hs
  intro x t ht
  by_cases hobj : op.object = some (.eventGroup x)
  · cases op with
    | eventCreate e =>
        -- a group is created without waiters
        obtain rfl : e = x := by simpa [Op.object] using hobj
        obtain rfl := Option.some.inj hs
        have hfresh := hop.2.2.2 (.eventGroup e) (by simp [Op.fresh])
        have hhead := hinv.lists.head (.wait (.eventGroup e))
        simp only [Kernel.listHead, hfresh] at hhead
        have hmem : t ∈ L (.wait (.eventGroup e)) := hinv.mem_eventGroup_iff.mpr ht
        rw [List.head?_eq_none_iff.mp hhead.symm] at hmem
        cases hmem
    | eventWait e bits options n =>
        obtain rfl : e = x := by simpa [Op.object] using hobj
        obtain ⟨c, hc, -, -, -⟩ := Sys.Permits.task hop.1
        obtain ⟨c', k, r, -, hk, rfl⟩ := Sys.blockingCall_inv hs
        rw [Sys.kernel_outcome _ _ _ _ fun _ => rfl] at ht ⊢
        cases waits_osEventgroupWaitBits hc hk with
        | returns b hb hw =>
            refine h.clear (e := e) (b := b) (fun i hi => ?_) hw e t ht
            rcases hb with rfl | rfl
            · exact hi
            · exact getLsbD_of_clear hi
        | sleeps hun m hw =>
            rw [hc] at hw
            exact h.sleeps hun hw ht
    | eventSet e bits =>
        obtain rfl : e = x := by simpa [Op.object] using hobj
        obtain ⟨r, hk, rfl⟩ := Option.map_eq_some_iff.mp hs
        exact wakePass_unmet hinv (hinv.waits_osEventgroupSetBits hk) ht
    | eventSetFromIsr e bits =>
        obtain rfl : e = x := by simpa [Op.object] using hobj
        obtain ⟨r, hk, rfl⟩ := Option.map_eq_some_iff.mp hs
        exact wakePass_unmet hinv (hinv.waits_osEventgroupSetBitsFromIsr hk) ht
    | eventClear e bits =>
        obtain rfl : e = x := by simpa [Op.object] using hobj
        obtain rfl := Option.some.inj hs
        exact h.clear (fun i hi => getLsbD_of_clear hi)
          (waits_osEventgroupClearBits s.kernel e bits) e t ht
    | _ => simp [Op.object] at hobj
  · exact h.elsewhere hinv hmoves x hobj ht

/-- Clearing bits in an interrupt leaves every waiter unsatisfied. -/
theorem EventsUnmet.clearFromIsr (h : EventsUnmet s.kernel) (e : Addr) (bits : BitVec 32) :
    EventsUnmet (s.onIsr (osEventgroupClearBitsFromIsr s.kernel e bits).1).kernel :=
  h.clear (fun _ hi => getLsbD_of_clear hi) (waits_osEventgroupClearBits s.kernel e bits)

/-! ## Whole runs -/

/-- The invariant of the runs: the lists are well formed and no waiter is satisfied. -/
theorem groupStep_inv {o : GroupOp} (h : (∃ L, TaskListInv s.kernel L) ∧ EventsUnmet s.kernel)
    (ho : o.Allowed s) (hs : groupStep s o = some s') :
    (∃ L, TaskListInv s'.kernel L) ∧ EventsUnmet s'.kernel := by
  obtain ⟨⟨L, hinv⟩, hun⟩ := h
  cases o with
  | op o => exact ⟨taskListInv_of_step hinv ho hs, hun.step hinv ho.1 hs⟩
  | clearFromIsr e bits =>
      obtain rfl := Option.some.inj hs
      obtain ⟨L', hinv', -⟩ := hinv.osEventgroupClearBits e bits
      exact ⟨⟨L', hinv'⟩, hun.clearFromIsr e bits⟩

/-- Nobody waits at start-up. -/
theorem Sys.Init.eventsUnmet (h₀ : s₀.Init) : EventsUnmet s₀.kernel := by
  intro e t ht
  have hmem := h₀.taskListInv.mem_eventGroup_iff.mpr ht
  cases hmem

/-- **No satisfied waiter sleeps.** After every call of every run, for every event group, no task in
its wait list satisfies its wait condition under the current bits. -/
theorem eventWaiters_unsatisfied {os : List GroupOp} (h₀ : s₀.Init)
    (hr : Run GroupOp.Allowed groupStep s₀ os s) :
    ∃ L, TaskListInv s.kernel L ∧ ∀ e, ∀ t ∈ L (.wait (.eventGroup e)),
      EventGroup.prvCheckCondition s.kernel e t = false := by
  obtain ⟨⟨L, hinv⟩, hun⟩ := hr.invariant
    (fun s => (∃ L, TaskListInv s.kernel L) ∧ EventsUnmet s.kernel)
    (fun _ _ _ h ho hs => groupStep_inv h ho hs) ⟨⟨_, h₀.taskListInv⟩, h₀.eventsUnmet⟩
  exact ⟨L, hinv, fun e t ht => hun e t (hinv.mem_eventGroup_iff.mp ht)⟩

/-- One pass with two satisfied waiters: the first clears the bit that the second one waits for. -/
def clearingTrace : List GroupOp :=
  [.op (.create (taskAt 0x100 2)), .op (.create (taskAt 0x200 3)), .op (.create (taskAt 0x300 4)),
    .op (.eventCreate 0x20), .op .selectNext, .op (.eventWait 0x20 1 eventClearOnExit 10),
    .op .selectNext, .op (.eventWait 0x20 3 eventWaitAll 10), .op .selectNext,
    .op (.eventSetFromIsr 0x20 3), .clearFromIsr 0x20 2]

/-- The first waiter has cleared the bit of the second one, which goes on waiting. -/
theorem eventWaiters_unsatisfied_clearingTrace :
    ∃ s, Run GroupOp.Allowed groupStep .boot clearingTrace s ∧
      s.kernel.waitHead (.eventGroup 0x20) = some 0x200 ∧
      ∃ L, TaskListInv s.kernel L ∧ ∀ e, ∀ t ∈ L (.wait (.eventGroup e)),
        EventGroup.prvCheckCondition s.kernel e t = false := by
  obtain ⟨s, hr, hhead⟩ := exists_run_of_exec GroupOp.Allowed groupStep Sys.boot
    clearingTrace (fun s => s.kernel.waitHead (.eventGroup 0x20) = some 0x200) (by decide +kernel)
  exact ⟨s, hr, hhead, eventWaiters_unsatisfied Sys.boot_init hr⟩

/-! ## With mutexes in use -/

/-- The steps of runs in which the tasks use mutexes as well: no boosted owner releases one for good. -/
def GroupOp.Safe (s : Sys) : GroupOp → Prop
  | .op o => SafeStep s o
  | .clearFromIsr .. => True

/-- Such a step keeps every waiter unsatisfied, and the mutexes in order. -/
theorem EventsUnmet.safeStep {o : GroupOp} (h : EventsUnmet s.kernel ∧ ∃ L, LockInv s L)
    (ho : o.Safe s) (hs : groupStep s o = some s') : EventsUnmet s'.kernel ∧ ∃ L, LockInv s' L := by
  obtain ⟨hun, L, hlocks⟩ := h
  have hinv := hlocks.tasks.lists
  cases o with
  | op o => exact ⟨hun.step hinv ho.1.1 hs, hlocks.step ho hs⟩
  | clearFromIsr e bits =>
      obtain rfl := Option.some.inj hs
      exact ⟨hun.clearFromIsr e bits, hlocks.of_calm (hinv.osEventgroupClearBits e bits) rfl rfl rfl⟩

/-- **No satisfied waiter sleeps among mutexes, either**: after every call of every run of `SafeStep`s. -/
theorem eventsUnmet_of_safeRun {os : List GroupOp} (h₀ : s₀.Init) (hfree : s₀.NoneHeld)
    (hr : Run GroupOp.Safe groupStep s₀ os s) : EventsUnmet s.kernel :=
  (hr.invariant (fun s => EventsUnmet s.kernel ∧ ∃ L, LockInv s L)
    (fun _ _ _ h ho hs => EventsUnmet.safeStep h ho hs) ⟨h₀.eventsUnmet, _, h₀.lockInv hfree⟩).1

end MiniRTOS
