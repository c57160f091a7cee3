import MiniRTOS.Kernel.SystemInv

/-! # Selection of the next task

`os_sched_select_next` finds the task to run through `ready_bitmap`. On lists that satisfy the
invariant this is what a scan over the heads of all ready lists finds, so the selected task is one of
the most urgent ones. It is the only RUNNING task afterwards, whatever state the current task was in,
and the one list that may have changed was rotated.

* **`linearScan k`** — the scan, which does not look at the bitmap.
* **`Selected k k' L L' n`** — all that a selection of `n` does. -/

namespace MiniRTOS

open Runs

variable {k k' : Kernel} {L L' : Layout} {t n : TaskId} {p : Prio}

/-! ## The scan -/

/-- **The first head of a ready list**, by priority, without a look at the bitmap. -/
def linearScan (k : Kernel) : Option TaskId :=
  (List.finRange numPriorities).findSome? fun p => (k.readyList p).head

/-- With all ready lists empty the scan finds nothing. -/
theorem linearScan_none (h : ListsOk k L) (hnil : ∀ p, L (.ready p) = []) : linearScan k = none := by
  rw [linearScan, List.findSome?_eq_none_iff]
  intro p _
  have hhead := h.head (.ready p)
  rw [hnil p] at hhead
  exact hhead

/-- The scan finds the head of the first ready list that is not empty. -/
theorem linearScan_some {r : List TaskId} (h : ListsOk k L) (hp : L (.ready p) = t :: r)
    (hlow : ∀ q, q < p → L (.ready q) = []) : linearScan k = some t := by
  have hhead : ∀ q, (k.readyList q).head = (L (.ready q)).head? := fun q => h.head (.ready q)
  cases hscan : linearScan k with
  | none =>
      rw [linearScan, List.findSome?_eq_none_iff] at hscan
      have hnone := hscan p (List.mem_finRange p)
      rw [hhead, hp] at hnone
      cases hnone
  | some x =>
      -- a list that comes before `p` is empty, and one behind `p` is not reached
      obtain ⟨l₁, q, l₂, hsplit, hq, hbefore⟩ := List.findSome?_eq_some_iff.mp hscan
      have hle : p ≤ q := by
        by_contra hlt
        rw [hhead, hlow q (lt_of_not_ge hlt)] at hq
        cases hq
      have hsorted : (l₁ ++ q :: l₂).Pairwise (· < ·) := by
        rw [← hsplit]
        exact List.pairwise_lt_finRange _
      have hpq : p = q := by
        have hmem : p ∈ l₁ ++ q :: l₂ := by
          rw [← hsplit]
          exact List.mem_finRange p
        rcases List.mem_append.mp hmem with hl₁ | hmem
        · have hnone := hbefore p hl₁
          rw [hhead, hp] at hnone
          cases hnone
        · rcases List.mem_cons.mp hmem with hpq | hl₂
          · exact hpq
          · have hlt := List.rel_of_pairwise_cons (List.pairwise_append.mp hsorted).2.1 hl₂
            exact absurd hlt (not_lt_of_ge hle)
      rw [← hpq, hhead, hp] at hq
      exact hq.symm

/-- **The bitmap search and the scan agree.** -/
theorem osTaskFindHighestReady_eq_linearScan (h : ListsOk k L) :
    osTaskFindHighestReady k = linearScan k := by
  rcases ready_cases L with hnil | ⟨p, t, r, hp, hlow⟩
  · rw [osTaskFindHighestReady_none h hnil, linearScan_none h hnil]
  · rw [osTaskFindHighestReady_some h hp hlow, linearScan_some h hp hlow]

/-! ## What a selection does -/

/-- **The selection of `n`** takes the state `k` with the lists `L` to `k'` with `L'`. -/
structure Selected (k k' : Kernel) (L L' : Layout) (n : TaskId) : Prop where
  /-- The selected task is current. -/
  current : k'.current = some n
  /-- It is a live task. -/
  live : n ∈ k'.liveTcbs
  /-- It is the one task that is RUNNING. -/
  running : ∀ x ∈ k'.liveTcbs, (k'.tcb x).state = .running ↔ x = n
  /-- It was ready. -/
  ready : n ∈ L (.ready (k.prio n))
  /-- No ready task is more urgent. -/
  least : ∀ p, ∀ x ∈ L (.ready p), k.prio n ≤ k.prio x
  /-- Its priority is the one that a scan finds. -/
  scanned : (linearScan k).map k.prio = some (k.prio n)
  /-- A scan of the new lists finds the task itself. -/
  rescanned : linearScan k' = some n
  /-- A current task at the head of that list is now at its tail. -/
  rotated : ∀ c r, k.current = some c → L (.ready (k.prio n)) = c :: r →
    L' = L.set (.ready (k.prio n)) (r ++ [c])
  /-- Otherwise no list changes. -/
  unmoved : (∀ c r, k.current = some c → L (.ready (k.prio n)) ≠ c :: r) → L' = L
  /-- The invariant holds again. -/
  lists : TaskListInv k' L'
  /-- Every list has the tasks it had. -/
  perm : ∀ P, (L' P).Perm (L P)
  /-- No task is added or lost. -/
  tasks : k'.liveTcbs = k.liveTcbs ∧ k'.taskTable = k.taskTable
  /-- Nothing else changes. -/
  switched : Switched k k' n

/-- A rotation is a permutation. -/
theorem rotated_perm (cur : Option TaskId) (t : TaskId) (r : List TaskId) :
    (MiniRTOS.rotated cur t r).Perm (t :: r) := by
  rw [MiniRTOS.rotated]
  split
  · exact List.perm_append_singleton t r
  · exact List.Perm.refl _

/-- **The selected task alone is RUNNING**, if only the current task was. -/
theorem Switched.running_iff {l : List TaskId} (hsw : Switched k k' n)
    (hone : ∀ x ∈ l, (k.tcb x).state = .running → k.current = some x) :
    ∀ x ∈ l, (k'.tcb x).state = .running ↔ x = n := by
  intro x hx
  constructor
  · intro hrun
    by_contra hxn
    -- a task other than `n` that was RUNNING was current, and goes back to READY
    rw [hsw.others x hxn] at hrun
    split at hrun
    · cases hrun
    · next hnot => exact hnot ⟨hone x hx hrun, hrun⟩
  · rintro rfl
    exact hsw.next

/-- The tasks of a ready list have its priority. -/
theorem TaskListInv.prio_of_ready (h : TaskListInv k L) (ht : t ∈ L (.ready p)) : k.prio t = p :=
  ((h.placed t (h.live _ t ht) _).mp ht).1

/-- No ready task is more urgent than the first list that is not empty. -/
theorem TaskListInv.le_prio (h : TaskListInv k L) (hlow : ∀ q, q < p → L (.ready q) = []) :
    ∀ q, ∀ x ∈ L (.ready q), p ≤ k.prio x := by
  intro q x hx
  rw [h.prio_of_ready hx]
  by_contra hlt
  rw [hlow q (lt_of_not_ge hlt)] at hx
  cases hx

/-- The scan of the lists after the rotation finds the new head. -/
theorem linearScan_rotated {l : List TaskId} (h : ListsOk k' (L.set (.ready p) l))
    (hhead : l.head? = some n) (hlow : ∀ q, q < p → L (.ready q) = []) :
    linearScan k' = some n := by
  obtain ⟨r, rfl⟩ : ∃ r, l = n :: r := List.head?_eq_some_iff.mp hhead
  refine linearScan_some (p := p) (r := r) h (Layout.set_self ..) ?_
  intro q hq
  rw [Layout.set_of_ne _ _ (by simpa using ne_of_lt hq)]
  exact hlow q hq

/-- **`os_sched_select_next`.** From lists that satisfy the invariant, with a ready task and with no
RUNNING task but the current one, it selects a task of the least priority number. -/
theorem osSchedSelectNext_selected (h : TaskListInv k L) (hready : ∃ p, L (.ready p) ≠ [])
    (hone : ∀ x ∈ k.liveTcbs, (k.tcb x).state = .running → k.current = some x) :
    ∃ n L', Selected k (osSchedSelectNext k) L L' n := by
  rcases h.osSchedSelectNext with ⟨hnil, -⟩ | ⟨p, t, r, n, hp, hlow, hhead, hinv, hsw⟩
  · obtain ⟨p, hp⟩ := hready
    exact absurd (hnil p) hp
  set k' := osSchedSelectNext k with hk'
  have hlive : k'.liveTcbs = k.liveTcbs := by
    have := congrArg Kernel.liveTcbs hsw.data
    exact this
  have htable : k'.taskTable = k.taskTable := by
    have := congrArg Kernel.taskTable hsw.data
    exact this
  have hcur : k'.current = some n := by
    have := congrArg Kernel.current hsw.data
    exact this
  have hnp : n ∈ L (.ready p) := by
    rw [hp, ← mem_rotated]
    exact List.mem_of_mem_head? hhead
  have hpn : k.prio n = p := h.prio_of_ready hnp
  refine ⟨n, L.set (.ready p) (MiniRTOS.rotated k.current t r), ?_⟩
  constructor
  case current => exact hcur
  case live => exact hlive ▸ h.live _ n hnp
  case running => exact hlive ▸ hsw.running_iff hone
  case ready => exact hpn.symm ▸ hnp
  case least => exact hpn.symm ▸ h.le_prio hlow
  case scanned =>
    have htp : t ∈ L (.ready p) := by simp [hp]
    rw [linearScan_some h.lists hp hlow, Option.map_some, h.prio_of_ready htp, hpn]
  case rescanned => exact linearScan_rotated hinv.lists hhead hlow
  case rotated =>
    intro c r' hc hcr
    rw [hpn, hp] at hcr
    obtain ⟨rfl, rfl⟩ := List.cons.inj hcr
    rw [hpn, MiniRTOS.rotated, if_pos hc]
  case unmoved =>
    intro hnot
    have hne : k.current ≠ some t := by
      intro hc
      exact hnot t r hc (hpn.symm ▸ hp)
    rw [MiniRTOS.rotated, if_neg hne, ← hp]
    exact Function.update_eq_self ..
  case lists => exact hinv
  case perm =>
    intro P
    rw [Layout.set_apply]
    split
    · next hP =>
        rw [hP, hp]
        exact rotated_perm ..
    · exact List.Perm.refl _
  case tasks => exact ⟨hlive, htable⟩
  case switched => exact hsw

/-- Three tasks; the one that runs heads the list of the more urgent two. -/
def selectTrace : List Op :=
  [.create (taskAt 0x100 3), .create (taskAt 0x200 3), .create (taskAt 0x300 5), .selectNext]

/-- The running task goes to the tail, and its fellow is selected. -/
theorem osSchedSelectNext_selected_selectTrace :
    ∃ s, Run WithoutMutexes step .boot selectTrace s ∧ s.kernel.current = some 0x100 ∧
      ∃ L n L', Selected s.kernel (osSchedSelectNext s.kernel) L L' n := by
  obtain ⟨s, hr, hcur, hready, hone⟩ := exists_run_of_exec WithoutMutexes step Sys.boot selectTrace
    (fun s => s.kernel.current = some 0x100 ∧ (s.kernel.readyList 3).head = some 0x100 ∧
      ∀ x ∈ s.kernel.liveTcbs, (s.kernel.tcb x).state = .running → s.kernel.current = some x)
    (by decide +kernel)
  obtain ⟨L, hL⟩ := taskListInv_of_run Sys.boot_init hr
  have hne : L (.ready 3) ≠ [] := by
    intro hnil
    have hhead := hL.lists.head (.ready 3)
    rw [hnil] at hhead
    exact absurd (hready.symm.trans hhead) (by simp)
  exact ⟨s, hr, hcur, L, osSchedSelectNext_selected hL ⟨3, hne⟩ hone⟩

end MiniRTOS
