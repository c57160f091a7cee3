import MiniRTOS.Kernel.Tally

/-! # The task table

`os_task_create` enters each task in `task_table` and counts it in `task_count`; the statistics and the
diagnostics walk that table. `os_task_delete` frees the control block, now or at the next tick, and
leaves the table as it is: the entry of a deleted task stays, its slot is never used again, and after
`OS_CONFIG_MAX_TASKS` creations no further task can be created.

* **`Roster`** — the system, with the tasks that have been created and not deleted.
* **`TableExact`** — the table holds those, each once, and nothing else.
* **`taskTable_exact_iff`** — which is the case until the first deletion, and never again. -/

namespace MiniRTOS

open Runs

variable {k k' : Kernel}

/-! ## Reading the table (`task.c`, `stats.c`) -/

/-- `os_task_get_count`. -/
def osTaskGetCount (k : Kernel) : Nat := k.taskTable.length

/-- `os_task_get_by_index`. -/
def osTaskGetByIndex (k : Kernel) (index : Nat) : Option TaskId := k.taskTable[index]?

/-- The loop of `os_stats_reset`. -/
def statsResetFrom : Nat → Nat → Kernel → Option Kernel
  | 0, _, _ => none
  | fuel + 1, i, k =>
      match osTaskGetByIndex k i with
      | none => some k
      | some t => statsResetFrom fuel (i + 1) (k.setTcb t { k.tcb t with runTimeTicks := 0 })

/-- `os_stats_reset`. -/
def osStatsReset (k : Kernel) : Option Kernel := statsResetFrom (maxTasks + 1) 0 k

/-- The loop ends, and writes to control blocks in the table only. -/
theorem statsResetFrom_spec (fuel : Nat) {i : Nat} (hi : i ≤ k.taskTable.length)
    (hfuel : k.taskTable.length < fuel + i) :
    ∃ k', statsResetFrom fuel i k = some k' ∧ ∀ t, t ∉ k.taskTable → k'.tcb t = k.tcb t := by
  induction fuel generalizing i k with
  | zero => omega
  | succ fuel ih =>
      rw [statsResetFrom]
      cases ht : osTaskGetByIndex k i with
      | none => exact ⟨k, rfl, fun _ _ => rfl⟩
      | some t =>
          obtain ⟨hlt, hget⟩ := List.getElem?_eq_some_iff.mp ht
          obtain ⟨k', hk', hsame⟩ := ih (k := k.setTcb t { k.tcb t with runTimeTicks := 0 })
            (i := i + 1) hlt (by show k.taskTable.length < _; omega)
          refine ⟨k', hk', fun x hx => (hsame x hx).trans ?_⟩
          have hxt : x ≠ t := fun hxt => hx (hxt ▸ hget ▸ List.getElem_mem hlt)
          exact Function.update_of_ne hxt _ _

/-! ## Creating and deleting -/

/-- The system, and what its callers have created and deleted. -/
structure Roster where
  /-- The kernel and its callers. -/
  sys : Sys
  /-- The tasks that have been created and not deleted. -/
  live : List TaskId
  /-- The tasks that have been deleted, oldest first. -/
  gone : List TaskId

/-- What can happen next. -/
inductive RosterOp
  /-- `os_task_create` or `os_task_create_suspended`. -/
  | create (suspended : Bool) (a : CreateArgs)
  /-- `os_task_delete`. -/
  | delete (handle : Option TaskId)
  /-- Any other step. -/
  | call (op : Op)

/-- `os_task_create` or `os_task_create_suspended`. -/
def createTask (k : Kernel) (suspended : Bool) (a : CreateArgs) : Status × Option TaskId × Kernel :=
  if suspended then osTaskCreateSuspended k a else osTaskCreate k a

/-- The task that a call of `os_task_delete` is about. -/
def Roster.target (σ : Roster) (handle : Option TaskId) : Option TaskId :=
  handle.or σ.sys.kernel.current

/-- **One step.** -/
def rosterStep (σ : Roster) : RosterOp → Option Roster
  | .create suspended a =>
      let r := createTask σ.sys.kernel suspended a
      some
        { σ with
          sys := σ.sys.created a r
          live := if r.1 = .ok then σ.live ++ a.tcbBlock.toList else σ.live }
  | .delete handle =>
      (osTaskDelete σ.sys.kernel handle).map fun r =>
        { sys := σ.sys.after r.2
          live := match σ.target handle with
            | none => σ.live
            | some t => σ.live.erase t
          gone := σ.gone ++ (σ.target handle).toList }
  | .call op => (step σ.sys op).map fun s => { σ with sys := s }

/-- The steps that create or delete. -/
def Op.enrols : Op → Bool
  | .create _ | .createSuspended _ | .deleteSelf => true
  | _ => false

/-- What the environment may do: create a task in a control block that is not in use, delete a task
that exists, and make any other call. -/
def RosterOp.Allowed (σ : Roster) : RosterOp → Prop
  | .create _ a => σ.sys.Permits .startup ∧ ∀ t ∈ a.tcbBlock, t ∉ σ.sys.kernel.liveTcbs
  | .delete handle => σ.sys.Permits .startup ∧ ∀ t ∈ σ.target handle, t ∈ σ.live
  | .call op => op.Allowed σ.sys ∧ op.enrols = false

/-- Whether a step is allowed can be decided. -/
instance RosterOp.decidableAllowed (σ : Roster) : (op : RosterOp) → Decidable (op.Allowed σ)
  | .create .. => inferInstanceAs (Decidable (_ ∧ _))
  | .delete _ => inferInstanceAs (Decidable (_ ∧ _))
  | .call _ => inferInstanceAs (Decidable (_ ∧ _))

/-- Nothing has been created or deleted yet. -/
def Roster.start (s : Sys) : Roster := ⟨s, [], []⟩

/-- **The table is exact**: it holds the tasks that exist, each once, and nothing else; so what is read
from it is right. -/
structure TableExact (σ : Roster) : Prop where
  /-- No task is entered twice. -/
  nodup : σ.sys.kernel.taskTable.Nodup
  /-- The tasks in the table are those that exist. -/
  mem : ∀ t, t ∈ σ.sys.kernel.taskTable ↔ t ∈ σ.live
  /-- `os_task_get_count` counts them. -/
  count : osTaskGetCount σ.sys.kernel = σ.live.length
  /-- `os_task_get_by_index` answers with tasks that exist, whose control blocks are allocated. -/
  index : ∀ i, ∀ t ∈ osTaskGetByIndex σ.sys.kernel i, t ∈ σ.live ∧ t ∈ σ.sys.kernel.liveTcbs
  /-- `os_stats_reset` ends, and writes to their control blocks only. -/
  reset : ∃ k', osStatsReset σ.sys.kernel = some k' ∧
    ∀ t, t ∉ σ.live → k'.tcb t = σ.sys.kernel.tcb t
  /-- `os_task_create` finds the table full only when `OS_CONFIG_MAX_TASKS` tasks exist. -/
  full : ∀ suspended a, (createTask σ.sys.kernel suspended a).1 = .errFull → σ.live.length = maxTasks

/-! ## The invariant -/

/-- **The table counts every creation**, and until the first deletion it is the list of tasks. -/
structure RosterInv (σ : Roster) : Prop where
  /-- Deleted tasks keep their entries. -/
  length : σ.sys.kernel.taskTable.length = σ.live.length + σ.gone.length
  /-- The table does not overflow. -/
  bound : σ.sys.kernel.taskTable.length ≤ maxTasks
  /-- Before the first deletion, table, tasks and control blocks agree. -/
  fresh : σ.gone = [] → σ.sys.kernel.taskTable = σ.live ∧ σ.sys.kernel.liveTcbs = σ.live ∧
    σ.live.Nodup ∧ σ.sys.kernel.deferredDeleteList = none

variable {σ σ' : Roster}

/-- A creation, in either form. -/
theorem tally_createTask (k : Kernel) (suspended : Bool) (a : CreateArgs) :
    (∃ t, (createTask k suspended a).1 = .ok ∧ a.tcbBlock = some t ∧ k.taskTable.length < maxTasks ∧
        (createTask k suspended a).2.2.tally = k.tally.addTask t) ∨
      (createTask k suspended a).1 ≠ .ok ∧ (createTask k suspended a).2.2.tally = k.tally ∧
        ((createTask k suspended a).1 = .errFull → maxTasks ≤ k.taskTable.length) := by
  unfold createTask
  cases suspended with
  | false => exact tally_osTaskCreate k a
  | true =>
      obtain ⟨hst, ht⟩ := tally_osTaskCreateSuspended k a
      rw [if_pos rfl, hst, ht]
      exact tally_osTaskCreate k a

/-- A deletion does not write the table. -/
theorem taskTable_osTaskDelete {handle : Option TaskId} {r : Status × Kernel}
    (h : osTaskDelete k handle = some r) : r.2.taskTable = k.taskTable := by
  have hself : ∀ {k'}, osTaskDeleteSelf k = some k' → k'.taskTable = k.taskTable := by
    intro k' hk
    obtain ⟨c, -, hk⟩ := Option.bind_eq_some_iff.mp hk
    obtain rfl := Option.some.inj hk
    rfl
  have hother : ∀ t, (osTaskDeleteOther k t).taskTable = k.taskTable := by
    intro t
    unfold osTaskDeleteOther
    dsimp only
    split <;> split <;> rfl
  unfold osTaskDelete at h
  split at h
  · split at h
    · rw [← Option.some.inj h]
    · obtain ⟨k', hk, rfl⟩ := Option.map_eq_some_iff.mp h
      exact hself hk
  · split at h
    · obtain ⟨k', hk, rfl⟩ := Option.map_eq_some_iff.mp h
      exact hself hk
    · rw [← Option.some.inj h]
      exact hother _

/-- Without a handle and without a current task nothing is deleted. -/
theorem osTaskDelete_nobody {handle : Option TaskId} {r : Status × Kernel} (hn : handle.or k.current = none)
    (h : osTaskDelete k handle = some r) : r.2 = k := by
  obtain ⟨rfl, hc⟩ := Option.or_eq_none_iff.mp hn
  rw [osTaskDelete, if_pos hc] at h
  rw [← Option.some.inj h]

namespace RosterInv

/-- A step that leaves table, control blocks and deferred deletions alone. -/
theorem same {s : Sys} (h : RosterInv σ) (ht : s.kernel.taskTable = σ.sys.kernel.taskTable)
    (hl : σ.sys.kernel.deferredDeleteList = none →
      s.kernel.liveTcbs = σ.sys.kernel.liveTcbs ∧ s.kernel.deferredDeleteList = none) :
    RosterInv { σ with sys := s } := by
  refine ⟨?_, ?_, fun hg => ?_⟩
  · rw [ht]
    exact h.length
  · rw [ht]
    exact h.bound
  · obtain ⟨htable, hlive, hnd, hdef⟩ := h.fresh hg
    obtain ⟨hl', hd'⟩ := hl hdef
    exact ⟨ht.trans htable, hl'.trans hlive, hnd, hd'⟩

/-- A creation. -/
theorem create {suspended : Bool} {a : CreateArgs} (h : RosterInv σ)
    (hun : ∀ t ∈ a.tcbBlock, t ∉ σ.sys.kernel.liveTcbs)
    (hs : rosterStep σ (.create suspended a) = some σ') : RosterInv σ' := by
  obtain rfl := Option.some.inj hs
  rcases tally_createTask σ.sys.kernel suspended a with ⟨t, hok, ht, hroom, htally⟩ | ⟨hne, htally, -⟩
  · have htable : (σ.sys.created a (createTask σ.sys.kernel suspended a)).kernel.taskTable
        = σ.sys.kernel.taskTable ++ [t] := by
      rw [Sys.kernel_created]
      exact congrArg Tally.table htally
    have hlive : (σ.sys.created a (createTask σ.sys.kernel suspended a)).kernel.liveTcbs
        = σ.sys.kernel.liveTcbs ++ [t] := by
      rw [Sys.kernel_created]
      exact congrArg Tally.live htally
    have hdef : (σ.sys.created a (createTask σ.sys.kernel suspended a)).kernel.deferredDeleteList
        = σ.sys.kernel.deferredDeleteList := by
      rw [Sys.kernel_created]
      exact congrArg Tally.deferred htally
    have hlen := h.length
    refine ⟨?_, ?_, fun hg => ?_⟩
    · simp only [hok, ht, htable, if_true, List.length_append, Option.toList_some, List.length_singleton]
      omega
    · simp only [htable, List.length_append, List.length_singleton]
      omega
    · obtain ⟨htab, hl, hnd, hd⟩ := h.fresh hg
      -- the block comes from an allocator, so no live task has it
      have hfresh : t ∉ σ.live := hl ▸ hun t ht
      simp only [hok, ht, htable, hlive, hdef, if_true, Option.toList_some]
      refine ⟨by rw [htab], by rw [hl], ?_, hd⟩
      exact List.nodup_append.mpr ⟨hnd, List.nodup_singleton t, by
        intro x hx y hy hxy
        obtain rfl := List.mem_singleton.mp hy
        exact hfresh (hxy ▸ hx)⟩
  · -- refused: the counts are as they were
    have hsys : (σ.sys.created a (createTask σ.sys.kernel suspended a)).kernel.tally
        = σ.sys.kernel.tally := by
      rw [Sys.kernel_created]
      exact htally
    simp only [hne, if_false]
    exact h.same (congrArg Tally.table hsys)
      fun hd => ⟨congrArg Tally.live hsys, (congrArg Tally.deferred hsys).trans hd⟩

/-- A deletion. -/
theorem delete {handle : Option TaskId} (h : RosterInv σ) (hlive : ∀ t ∈ σ.target handle, t ∈ σ.live)
    (hs : rosterStep σ (.delete handle) = some σ') : RosterInv σ' := by
  obtain ⟨r, hr, rfl⟩ := Option.map_eq_some_iff.mp hs
  cases ht : σ.target handle with
  | none =>
      have hsame : r.2 = σ.sys.kernel := osTaskDelete_nobody ht hr
      have hinv := h.same (s := σ.sys.after r.2) (congrArg Kernel.taskTable hsame)
        fun hd => ⟨congrArg Kernel.liveTcbs hsame, (congrArg Kernel.deferredDeleteList hsame).trans hd⟩
      simpa using hinv
  | some t =>
      have htable := taskTable_osTaskDelete hr
      have hmem := hlive t ht
      have hlen := List.length_erase_of_mem hmem
      have hpos := List.length_pos_of_mem hmem
      have hold := h.length
      refine ⟨?_, htable ▸ h.bound, fun hg => ?_⟩
      · show r.2.taskTable.length = _
        simp only [htable, hlen, List.length_append, Option.toList_some, List.length_singleton]
        omega
      · simp at hg

/-- Any other call. -/
theorem call {op : Op} (h : RosterInv σ) (hop : op.enrols = false)
    (hs : rosterStep σ (.call op) = some σ') : RosterInv σ' := by
  obtain ⟨s, hstep, rfl⟩ := Option.map_eq_some_iff.mp hs
  by_cases hb : op.booked = false
  · have htally := step_tally hb hstep
    exact h.same (congrArg Tally.table htally)
      fun hd => ⟨congrArg Tally.live htally, (congrArg Tally.deferred htally).trans hd⟩
  · cases op with
    | tick =>
        obtain ⟨k', hk, rfl⟩ := Option.map_eq_some_iff.mp hstep
        obtain ⟨htally, hfree⟩ := tally_osTaskTick hk
        exact h.same (congrArg Tally.table htally : _)
          fun hd => ⟨hfree hd, (congrArg Tally.deferred htally : _)⟩
    | selectNext =>
        obtain rfl := Option.some.inj hstep
        rcases tally_osSchedSelectNext σ.sys.kernel with ht | ⟨c, -, -, ht⟩ | ⟨-, ht⟩
        all_goals
          exact h.same (congrArg Tally.table ht : _)
            fun hd => ⟨(congrArg Tally.live ht : _), (congrArg Tally.deferred ht : _).trans hd⟩
    | scribble t v nx pv =>
        obtain rfl := Option.some.inj hstep
        exact h.same rfl fun hd => ⟨rfl, hd⟩
    | create a => cases hop
    | createSuspended a => cases hop
    | deleteSelf => cases hop
    | _ => exact absurd rfl hb

/-- **One step keeps the invariant.** -/
theorem step {op : RosterOp} (h : RosterInv σ) (hop : op.Allowed σ) (hs : rosterStep σ op = some σ') :
    RosterInv σ' := by
  cases op with
  | create suspended a => exact h.create hop.2 hs
  | delete handle => exact h.delete hop.2 hs
  | call op => exact h.call hop.2 hs

/-- Until the first deletion the table is exact. -/
theorem exact_of_nil (h : RosterInv σ) (hg : σ.gone = []) : TableExact σ := by
  obtain ⟨htable, hlive, hnd, -⟩ := h.fresh hg
  refine ⟨htable ▸ hnd, fun t => by rw [htable], ?_, fun i t ht => ?_, ?_, fun suspended a ha => ?_⟩
  · rw [osTaskGetCount, htable]
  · have hmem : t ∈ σ.live := htable ▸ List.mem_of_getElem? ht
    exact ⟨hmem, hlive ▸ hmem⟩
  · obtain ⟨k', hk', hsame⟩ := statsResetFrom_spec (k := σ.sys.kernel) (maxTasks + 1)
      (Nat.zero_le _) (by have := h.bound; omega)
    exact ⟨k', hk', fun t ht => hsame t (htable ▸ ht)⟩
  · have hbound := h.bound
    rcases tally_createTask σ.sys.kernel suspended a with ⟨t, hok, -⟩ | ⟨-, -, hfull⟩
    · rw [hok] at ha
      cases ha
    · have := hfull ha
      rw [htable] at this hbound
      omega

/-- An exact table has as many entries as there are tasks. -/
theorem nil_of_exact (h : RosterInv σ) (he : TableExact σ) : σ.gone = [] := by
  have hcount : σ.sys.kernel.taskTable.length = σ.live.length := he.count
  have hlen := h.length
  exact List.length_eq_zero_iff.mp (by omega)

end RosterInv

/-- **Task table.** In every state of a run of creations, deletions, ticks and other calls, the table
is exact if and only if no task has been deleted so far. -/
theorem taskTable_exact_iff {s₀ : Sys} {ops : List RosterOp} (h₀ : s₀.Init)
    (hr : Run (fun σ op => RosterOp.Allowed σ op) rosterStep (Roster.start s₀) ops σ) :
    TableExact σ ↔ σ.gone = [] := by
  have hinit : RosterInv (Roster.start s₀) := by
    obtain ⟨k, hk⟩ := h₀.lists
    have htable : s₀.kernel.taskTable = [] := by rw [hk]; rfl
    have hdef : s₀.kernel.deferredDeleteList = none := by rw [hk]; rfl
    refine ⟨?_, ?_, fun _ => ⟨htable, h₀.live, List.nodup_nil, hdef⟩⟩
    · rw [show (Roster.start s₀).sys.kernel.taskTable = [] from htable]
      rfl
    · rw [show (Roster.start s₀).sys.kernel.taskTable = [] from htable]
      exact Nat.zero_le _
  have hinv := hr.invariant RosterInv (fun _ _ _ h hop hs => h.step hop hs) hinit
  exact ⟨hinv.nil_of_exact, hinv.exact_of_nil⟩

/-- Two tasks; the first one runs, sleeps and is woken by a tick. -/
def enrolTrace : List RosterOp :=
  [.create false (taskAt 0x100 3), .create true (taskAt 0x200 5), .call .selectNext,
    .call (.resume 0x200), .call (.delay 1), .call .selectNext, .call .tick]

/-- Two tasks are live, and both are in the table. -/
theorem taskTable_exact_enrolTrace : ∃ σ,
    Run (fun σ op => RosterOp.Allowed σ op) rosterStep (Roster.start .boot) enrolTrace σ ∧
      σ.live = [0x100, 0x200] ∧ TableExact σ := by
  obtain ⟨σ, hr, hlive, hgone⟩ := exists_run_of_exec (fun σ op => RosterOp.Allowed σ op) rosterStep
    (Roster.start .boot) enrolTrace (fun σ => σ.live = [0x100, 0x200] ∧ σ.gone = []) (by decide +kernel)
  exact ⟨σ, hr, hlive, (taskTable_exact_iff Sys.boot_init hr).mpr hgone⟩

/-- The first task deletes the second one. -/
def dismissTrace : List RosterOp :=
  [.create false (taskAt 0x100 3), .create false (taskAt 0x200 5), .call .selectNext,
    .delete (some 0x200), .call .tick]

/-- One task is left, but the table counts two, and its second entry is a control block that has been
freed. -/
theorem taskTable_keeps_deleted : ∃ σ,
    Run (fun σ op => RosterOp.Allowed σ op) rosterStep (Roster.start .boot) dismissTrace σ ∧
      σ.live = [0x100] ∧ osTaskGetCount σ.sys.kernel = 2 ∧
      osTaskGetByIndex σ.sys.kernel 1 = some 0x200 ∧ 0x200 ∉ σ.sys.kernel.liveTcbs ∧
      ¬ TableExact σ := by
  obtain ⟨σ, hr, hlive, hcount, hindex, hfreed⟩ := exists_run_of_exec
    (fun σ op => RosterOp.Allowed σ op) rosterStep (Roster.start .boot) dismissTrace
    (fun σ => σ.live = [0x100] ∧ osTaskGetCount σ.sys.kernel = 2 ∧
      osTaskGetByIndex σ.sys.kernel 1 = some 0x200 ∧ 0x200 ∉ σ.sys.kernel.liveTcbs) (by decide +kernel)
  exact ⟨σ, hr, hlive, hcount, hindex, hfreed, fun he => hfreed (he.index 1 _ hindex).2⟩

end MiniRTOS
