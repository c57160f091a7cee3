import MiniRTOS.Kernel.Tally
import MiniRTOS.Kernel.InitialFrame

/-! # Stack high-water marks

`prv_fill_stack` writes a pattern into every word of a new stack and then the canary into word 0;
`prv_calc_high_water` counts the words from word 0 on that still hold the pattern. Word 0 never does, so
what it computes is the size of the stack, whatever the task has used.

* **`UsedFrom`** — a stack of which the task has changed word `k + 1` and left the words below alone.
* **`stackUsed`** — what a scan from word 1 on would find.
* **`MarkSys`** — the system, and for each task the kernel states of the ticks that it was current at.
* **`stack_highWater_iff`** — no scan tells the use of the stack, and the getter tells it for tasks that
  no tick has met. -/

namespace MiniRTOS

open Runs

variable {k k' : Kernel} {s s' : Sys} {op : Op} {t : TaskId} {mem m₀ : Addr → BitVec 32} {base size : Nat}

/-! ## One stack -/

/-- **A stack in use.** `prv_fill_stack` has prepared it over the memory `m₀`; since then the words `0`
to `n` have kept their contents and word `n + 1` has changed. -/
structure UsedFrom (m₀ mem : Addr → BitVec 32) (base size n : Nat) : Prop where
  /-- The word lies in the stack. -/
  inside : n + 1 < size / 4
  /-- The words below it are as they were. -/
  low : ∀ i ≤ n, mem (base + 4 * i) = prvFillStack m₀ base size (base + 4 * i)
  /-- The word is not. -/
  changed : mem (base + 4 * (n + 1)) ≠ prvFillStack m₀ base size (base + 4 * (n + 1))

/-- **The bytes in use**, found by the scan of `prv_calc_high_water` over the words above the canary. -/
def stackUsed (mem : Addr → BitVec 32) (base size : Nat) : Nat :=
  prvCalcHighWater mem (base + 4) (size - 4)

/-- The words above the canary hold the pattern. -/
theorem prvFillStack_above {i : Nat} (hi : 0 < i) (hsize : i < size / 4) :
    prvFillStack m₀ base size (base + 4 * i) = stackFillValue := by
  have hne : base + 4 * i ≠ base := by omega
  rw [prvFillStack, Function.update_of_ne hne, foldl_fill, if_pos hsize]

/-- **The scan stops at the canary.** -/
theorem prvCalcHighWater_of_canary (h : mem base = stackCanaryValue) :
    prvCalcHighWater mem base size = size := by
  have hzero : ((List.range (size / 4)).takeWhile
      fun i => mem (base + 4 * i) = stackFillValue) = [] := by
    cases hn : size / 4 with
    | zero => rfl
    | succ n =>
        have hword : ¬ mem (base + 4 * 0) = stackFillValue := by
          rw [Nat.mul_zero, Nat.add_zero, h]
          decide
        rw [List.range_succ_eq_map, List.takeWhile_cons, decide_eq_false hword]
        rfl
  unfold prvCalcHighWater
  rw [hzero]
  rfl

/-- The scan counts the words up to the first one that does not hold the pattern. -/
theorem takeWhile_range_length {p : Nat → Prop} [DecidablePred p] {n m : Nat} (hn : n < m)
    (hlow : ∀ i < n, p i) (hstop : ¬ p n) : ((List.range m).takeWhile fun i => p i).length = n := by
  have hsplit : List.range m = List.range n ++ n :: (List.range (m - n - 1)).map (n + 1 + ·) := by
    have hm : m = n + (1 + (m - n - 1)) := by omega
    conv_lhs => rw [hm]
    rw [List.range_add, List.range_add]
    simp [Function.comp_def, Nat.add_assoc]
  rw [hsplit, List.takeWhile_append_of_pos fun i hi => decide_eq_true (hlow i (List.mem_range.mp hi)),
    List.takeWhile_cons, decide_eq_false hstop]
  simp

/-- **What the mark should be**: the bytes from the changed word to the end of the stack. -/
theorem UsedFrom.stackUsed_eq {n : Nat} (h : UsedFrom m₀ mem base size n) :
    stackUsed mem base size = size - 4 * (n + 1) := by
  have hin := h.inside
  have hstop : ¬ mem (base + 4 + 4 * n) = stackFillValue := by
    have hchanged := h.changed
    rw [prvFillStack_above (by omega) hin] at hchanged
    have haddr : base + 4 + 4 * n = base + 4 * (n + 1) := by omega
    rwa [haddr]
  have hlow : ∀ i < n, mem (base + 4 + 4 * i) = stackFillValue := by
    intro i hi
    have haddr : base + 4 + 4 * i = base + 4 * (i + 1) := by omega
    rw [haddr, h.low (i + 1) (by omega), prvFillStack_above (by omega) (by omega)]
  unfold stackUsed prvCalcHighWater
  have hlen := takeWhile_range_length (p := fun i => mem (base + 4 + 4 * i) = stackFillValue)
    (by omega : n < (size - 4) / 4) hlow hstop
  rw [hlen]
  show size - 4 - n * 4 = _
  omega

/-- **What the mark is.** -/
theorem UsedFrom.prvCalcHighWater_eq {n : Nat} (h : UsedFrom m₀ mem base size n) :
    prvCalcHighWater mem base size = size := by
  refine prvCalcHighWater_of_canary ?_
  have hlow := h.low 0 (Nat.zero_le _)
  rwa [Nat.mul_zero, Nat.add_zero, prvFillStack_base] at hlow

/-- A stack in use is not full to the canary. -/
theorem stackUsed_lt (hsize : 4 ≤ size) : stackUsed mem base size < size := by
  unfold stackUsed prvCalcHighWater
  dsimp only
  omega

/-! ## The getter over a run -/

/-- `os_task_get_stack_high_water`. -/
def osTaskGetStackHighWater (k : Kernel) (handle : Option TaskId) : Nat :=
  match handle with
  | none => 0
  | some t => (k.tcb t).stackHighWater

/-- What `prv_calc_high_water` computes for a task. -/
def Kernel.highWater (k : Kernel) (t : TaskId) : Nat :=
  prvCalcHighWater k.stackMem (k.tcb t).stackBase (k.tcb t).stackSize

/-- The bytes that a task uses of its stack. -/
def Kernel.stackUsed (k : Kernel) (t : TaskId) : Nat :=
  MiniRTOS.stackUsed k.stackMem (k.tcb t).stackBase (k.tcb t).stackSize

/-- The system under observation: for each task, the kernel states at the ticks that it was current at
since its creation, latest first. -/
structure MarkSys where
  /-- The system. -/
  sys : Sys
  /-- The ticks of each task. -/
  ticks : TaskId → List Kernel

/-- The observation starts with the system. -/
def MarkSys.start (s : Sys) : MarkSys := ⟨s, fun _ => []⟩

/-- What the observer notes at a step: a tick belongs to the current task, and a new task has none. -/
def MarkSys.note (m : MarkSys) (op : Op) : TaskId → List Kernel :=
  match op with
  | .tick =>
      match m.sys.kernel.current with
      | none => m.ticks
      | some c => Function.update m.ticks c (m.sys.kernel :: m.ticks c)
  | op =>
      match op.newTask with
      | none => m.ticks
      | some t => Function.update m.ticks t []

/-- One step under observation. -/
def markStep (m : MarkSys) (op : Op) : Option MarkSys :=
  (step m.sys op).map fun s => ⟨s, m.note op⟩

/-- The largest of the values at some ticks, 0 without ticks. -/
def largest (f : Kernel → Nat) (ks : List Kernel) : Nat := ks.foldr (fun k n => max (f k) n) 0

/-- The largest value with one more tick. -/
theorem largest_cons (f : Kernel → Nat) (k : Kernel) (ks : List Kernel) :
    largest f (k :: ks) = max (f k) (largest f ks) := rfl

/-- A bound of all values. -/
theorem largest_lt {f : Kernel → Nat} {ks : List Kernel} {n : Nat} (hn : 0 < n)
    (h : ∀ k ∈ ks, f k < n) : largest f ks < n := by
  induction ks with
  | nil => exact hn
  | cons k ks ih =>
      rw [largest_cons]
      exact max_lt (h k List.mem_cons_self) (ih fun x hx => h x (List.mem_cons_of_mem _ hx))

/-- **What is true of every live task**: its control block is as its ticks have found it, the canary was
intact at each of them, and the mark is the largest value computed. -/
structure MarkInv (m : MarkSys) (t : TaskId) : Prop where
  /-- No stack is shorter than 128 bytes. -/
  room : 128 ≤ (m.sys.kernel.tcb t).stackSize
  /-- The stack of the task has not moved. -/
  stack : ∀ k ∈ m.ticks t, (k.tcb t).stackBase = (m.sys.kernel.tcb t).stackBase ∧
    (k.tcb t).stackSize = (m.sys.kernel.tcb t).stackSize
  /-- The tick has passed the overflow check. -/
  canary : ∀ k ∈ m.ticks t, k.stackMem (k.tcb t).stackBase = stackCanaryValue
  /-- The mark. -/
  mark : (m.sys.kernel.tcb t).stackHighWater = largest (·.highWater t) (m.ticks t)

/-! ## What a step does to a stack -/

/-- A task that deletes itself leaves its stack. -/
theorem stackUses_osTaskDeleteSelf (h : osTaskDeleteSelf k = some k') : k'.stackUses = k.stackUses := by
  unfold osTaskDeleteSelf at h
  obtain ⟨c, -, h⟩ := Option.bind_eq_some_iff.mp h
  obtain rfl := Option.some.inj h
  have hkept := kept_setTcb (k := osTaskRemoveFromReady (osSchedEnterCritical k) c) (t := c)
    (v := { (osTaskRemoveFromReady (osSchedEnterCritical k) c).tcb c with
      state := .deleted, pendingDelete := true }) rfl rfl rfl rfl
  have huse := stackUses_of_kept hkept
  exact huse

/-- Switching leaves the stacks alone. -/
theorem stackUses_switchTo (k : Kernel) (n : TaskId) : (switchTo k n).stackUses = k.stackUses := by
  have hcharge : ∀ x, (chargeCurrent k x).stackUse = (k.tcb x).stackUse := by
    intro x
    cases hc : k.current with
    | none => simp only [chargeCurrent, hc]
    | some c =>
        simp only [chargeCurrent, hc]
        split
        · rw [Function.update_apply]
          split
          · next hx =>
              rw [hx]
              rfl
          · rfl
        · rfl
  funext x
  show (Function.update (chargeCurrent k) n _ x).stackUse = _
  rw [Function.update_apply]
  split
  · next hx =>
      subst hx
      exact hcharge x
  · exact hcharge x

/-- So does a selection. -/
theorem stackUses_osSchedSelectNext (k : Kernel) : (osSchedSelectNext k).stackUses = k.stackUses := by
  have hturn : ∀ n, (osTaskAddToReady (osTaskRemoveFromReady k n) n).stackUses = k.stackUses :=
    fun n => stackUses_of_kept (by simp)
  unfold osSchedSelectNext
  split
  · rfl
  · dsimp only
    split
    · split
      · exact hturn _
      · exact (stackUses_switchTo ..).trans (hturn _)
    · exact stackUses_switchTo ..

/-- Freeing control blocks does not write them. -/
theorem tcb_freeDeferred {fuel : Nat} {i : Option TaskId} (h : freeDeferred fuel k i = some k') :
    k'.tcb = k.tcb := by
  induction fuel generalizing k i with
  | zero =>
      cases i with
      | none => exact congrArg Kernel.tcb (Option.some.inj h).symm
      | some t => cases h
  | succ fuel ih =>
      cases i with
      | none => exact congrArg Kernel.tcb (Option.some.inj h).symm
      | some t =>
          rw [freeDeferred] at h
          refine (ih h).trans ?_
          split <;> rfl

/-- The walk over `blocked_list` leaves the stack memory alone. -/
theorem stackMem_tickWalk {fuel : Nat} {i : Option TaskId} (h : tickWalk fuel k i = some k') :
    k'.stackMem = k.stackMem := by
  have htask : ∀ (k : Kernel) (t : TaskId), (tickTask k t).stackMem = k.stackMem := by
    intro k t
    unfold tickTask
    split
    · dsimp only
      split
      · split <;> rfl
      · rfl
    · rfl
  induction fuel generalizing k i with
  | zero =>
      cases i with
      | none => exact congrArg Kernel.stackMem (Option.some.inj h).symm
      | some t => cases h
  | succ fuel ih =>
      cases i with
      | none => exact congrArg Kernel.stackMem (Option.some.inj h).symm
      | some t => exact (ih h).trans (htask k t)

/-- The mark is not the current task's choice nor on its stack. -/
theorem updateHighWater_same (k : Kernel) :
    (updateHighWater k).current = k.current ∧ (updateHighWater k).stackMem = k.stackMem := by
  rcases updateHighWater_cases k with h | ⟨c, n, h⟩ <;> rw [h] <;> exact ⟨rfl, rfl⟩

/-- The mark of the current task is raised to what the scan finds. -/
theorem stackUse_updateHighWater (k : Kernel) (x : TaskId) :
    ((updateHighWater k).tcb x).stackUse = if k.current = some x then
      { (k.tcb x).stackUse with highWater := max (k.highWater x) (k.tcb x).stackUse.highWater }
    else (k.tcb x).stackUse := by
  unfold updateHighWater
  cases hc : k.current with
  | none => rfl
  | some c =>
      dsimp only
      have hhigh : prvCalcHighWater k.stackMem (k.tcb c).stackBase (k.tcb c).stackSize = k.highWater c := rfl
      rw [hhigh]
      by_cases hx : c = x
      · subst hx
        rw [if_pos rfl]
        split
        · next hgt =>
            have hmax : max (k.highWater c) (k.tcb c).stackUse.highWater = k.highWater c :=
              max_eq_left (le_of_lt hgt)
            rw [hmax]
            show (Function.update k.tcb c _ c).stackUse = _
            rw [Function.update_self]
            rfl
        · next hle =>
            have hmax : max (k.highWater c) (k.tcb c).stackUse.highWater = (k.tcb c).stackUse.highWater :=
              max_eq_right (not_lt.mp hle)
            rw [hmax]
      · have hne : some c ≠ some x := fun h => hx (Option.some.inj h)
        rw [if_neg hne]
        split
        · show (Function.update k.tcb c _ x).stackUse = _
          rw [Function.update_of_ne (Ne.symm hx)]
        · rfl

/-- **A tick** raises the mark of the current task to what the scan finds, and its canary was intact. -/
theorem osTaskTick_marks (h : osTaskTick k = some k') :
    (∀ c, k.current = some c → k.stackMem (k.tcb c).stackBase = stackCanaryValue) ∧
      ∀ x, (k'.tcb x).stackUse = if k.current = some x then
        { (k.tcb x).stackUse with highWater := max (k.highWater x) (k.tcb x).stackUse.highWater }
      else (k.tcb x).stackUse := by
  unfold osTaskTick at h
  obtain ⟨k₁, h₁, h⟩ := Option.bind_eq_some_iff.mp h
  obtain ⟨k₂, h₂, h⟩ := Option.bind_eq_some_iff.mp h
  -- the walk over `blocked_list` writes no stack field
  have huse : ∀ x, (k₁.tcb x).stackUse = (k.tcb x).stackUse :=
    congrFun (stackUses_of_kept (kept_tickWalk h₁))
  have hcur : k₁.current = k.current := congrArg View.current (view_tickWalk h₁)
  have hmem : k₁.stackMem = k.stackMem := stackMem_tickWalk h₁
  have hhigh : ∀ x, k₁.highWater x = k.highWater x := by
    intro x
    have hx := huse x
    simp only [Tcb.stackUse, StackUse.mk.injEq] at hx
    unfold Kernel.highWater
    rw [hmem, hx.1, hx.2.1]
  have hmark := stackUse_updateHighWater k₁
  simp only [huse, hhigh, hcur] at hmark
  refine ⟨fun c hc => ?_, fun x => ?_⟩
  · -- the check has found the canary, and the mark before it has moved no stack
    have hbase : ((updateHighWater k₁).tcb c).stackBase = (k.tcb c).stackBase := by
      have hx := hmark c
      split at hx
      · exact congrArg StackUse.base hx
      · exact congrArg StackUse.base hx
    have hsame := updateHighWater_same k₁
    rw [osTaskCheckStackOverflow, hsame.1, hcur, hc] at h₂
    dsimp only at h₂
    split at h₂
    · next hcan => rwa [hsame.2, hbase, hmem] at hcan
    · cases h₂
  · obtain rfl := osTaskCheckStackOverflow_eq h₂
    unfold osTaskProcessDeferredDelete at h
    have htcb := tcb_freeDeferred h
    rw [htcb]
    exact hmark x

/-! ## Steps -/

/-- **What a step means for the mark of a live task.** -/
inductive MarkStep (s s' : Sys) (op : Op) (t : TaskId) : Prop
  /-- Nothing. -/
  | kept (hlive : t ∈ s.kernel.liveTcbs) (hnew : op.newTask ≠ some t)
      (htick : op = .tick → s.kernel.current ≠ some t)
      (huse : (s'.kernel.tcb t).stackUse = (s.kernel.tcb t).stackUse)
  /-- The task is new. -/
  | created (hnew : op.newTask = some t) (hroom : 128 ≤ (s'.kernel.tcb t).stackUse.size)
      (hmark : (s'.kernel.tcb t).stackUse.highWater = 0)
  /-- The task was current at a tick. -/
  | ticked (hop : op = .tick) (hlive : t ∈ s.kernel.liveTcbs) (hcur : s.kernel.current = some t)
      (hcanary : s.kernel.stackMem (s.kernel.tcb t).stackBase = stackCanaryValue)
      (huse : (s'.kernel.tcb t).stackUse = { (s.kernel.tcb t).stackUse with
        highWater := max (s.kernel.highWater t) (s.kernel.tcb t).stackUse.highWater })

/-- The stacks after a creation. -/
theorem stackUses_osTaskCreate (k : Kernel) (a : CreateArgs) :
    (∃ t stack, (osTaskCreate k a).1 = .ok ∧ a.tcbBlock = some t ∧ 128 ≤ a.stackSize ∧
        (osTaskCreate k a).2.2.stackUses = Function.update k.stackUses t ⟨stack, a.stackSize, 0⟩) ∨
      (osTaskCreate k a).1 ≠ .ok ∧ (osTaskCreate k a).2.2.stackUses = k.stackUses := by
  rcases osTaskCreate_cases k a with
    ⟨func, p, stack, t, -, -, -, hsize, -, ht, h⟩ | ⟨r, k', hr, -, hk', h⟩
  · rw [h]
    refine Or.inl ⟨t, stack, rfl, ht, hsize, ?_⟩
    refine (stackUses_of_kept (kept_osTaskAddToReady ..)).trans ?_
    funext x
    show (Function.update k.tcb t _ x).stackUse = Function.update k.stackUses t _ x
    rw [Function.update_apply, Function.update_apply]
    split <;> rfl
  · rw [h]
    refine Or.inr ⟨hr, ?_⟩
    rcases hk' with rfl | ⟨stack, -, rfl⟩ <;> rfl

/-- `os_task_create_suspended` prepares the same stack. -/
theorem stackUses_osTaskCreateSuspended (k : Kernel) (a : CreateArgs) :
    (osTaskCreateSuspended k a).2.2.stackUses = (osTaskCreate k a).2.2.stackUses := by
  unfold osTaskCreateSuspended
  split
  · next t k₁ heq =>
      rw [heq]
      exact stackUses_of_kept (kept_osTaskSuspend k₁ t)
  · rfl

/-- A creation, suspended or not. -/
theorem MarkStep.of_create {a : CreateArgs} {r : Status × Option TaskId × Kernel}
    (hnew : op.newTask = a.tcbBlock) (htick : op ≠ .tick) (hun : ∀ x ∈ a.tcbBlock, x ∉ s.kernel.liveTcbs)
    (htally : r.2.2.tally = (osTaskCreate s.kernel a).2.2.tally)
    (huse : r.2.2.stackUses = (osTaskCreate s.kernel a).2.2.stackUses)
    (ht : t ∈ (s.created a r).kernel.liveTcbs) : MarkStep s (s.created a r) op t := by
  have hkernel : (s.created a r).kernel = r.2.2 := by
    unfold Sys.created
    split <;> rfl
  have hlives : r.2.2.liveTcbs = (osTaskCreate s.kernel a).2.2.liveTcbs := congrArg Tally.live htally
  rw [hkernel, hlives] at ht
  have huse' : ∀ x, ((s.created a r).kernel.tcb x).stackUse
      = (osTaskCreate s.kernel a).2.2.stackUses x := by
    intro x
    rw [hkernel]
    exact congrFun huse x
  have hold : t ∈ s.kernel.liveTcbs → a.tcbBlock ≠ some t := fun hlive hb => hun t hb hlive
  rcases stackUses_osTaskCreate s.kernel a with ⟨x, stack, hok, hx, hsize, hput⟩ | ⟨hne, hsame⟩
  · have hlive := tally_osTaskCreate s.kernel a
    rcases hlive with ⟨y, -, hy, -, hadd⟩ | ⟨hbad, -⟩
    · obtain rfl : x = y := Option.some.inj (hx.symm.trans hy)
      have hmem : t ∈ s.kernel.liveTcbs ++ [x] := by
        have hl : (osTaskCreate s.kernel a).2.2.liveTcbs = _ := congrArg Tally.live hadd
        rwa [hl] at ht
      by_cases htx : t = x
      · subst htx
        have hnow := huse' t
        rw [hput, Function.update_self] at hnow
        exact .created (hnew.trans hx) (by rw [hnow]; exact hsize) (by rw [hnow])
      · have ht' : t ∈ s.kernel.liveTcbs := by simpa [htx] using hmem
        refine .kept ht' (hnew ▸ hold ht') (fun h => absurd h htick) ?_
        rw [huse', hput, Function.update_of_ne htx]
        rfl
    · exact absurd hok hbad
  · rcases tally_osTaskCreate s.kernel a with ⟨y, hok, -⟩ | ⟨-, hl, -⟩
    · exact absurd hok hne
    · have ht' : t ∈ s.kernel.liveTcbs := by
        have hl' : (osTaskCreate s.kernel a).2.2.liveTcbs = _ := congrArg Tally.live hl
        rwa [hl'] at ht
      refine .kept ht' (hnew ▸ hold ht') (fun h => absurd h htick) ?_
      rw [huse', hsame]
      rfl

/-- A step that is not booked makes no task. -/
theorem Op.newTask_of_booked (h : op.booked = false) : op.newTask = none := by
  cases op <;> first | rfl | cases h

/-- **Every step** does one of the three to every task that is live after it. -/
theorem step_marks (ha : op.Allowed s) (h : step s op = some s') (ht : t ∈ s'.kernel.liveTcbs) :
    MarkStep s s' op t := by
  by_cases hbook : op.booked = false
  · have hkept := step_kept hbook h
    have hlive : s'.kernel.liveTcbs = s.kernel.liveTcbs :=
      congrArg Tally.live (tally_of_kept hkept)
    rw [hlive] at ht
    refine .kept ht ?_ (fun hop => ?_) (congrFun (stackUses_of_kept hkept) t)
    · rw [Op.newTask_of_booked hbook]
      exact nofun
    · subst hop
      cases hbook
  have hquiet : op.quiet = true → t ∈ s.kernel.liveTcbs := by
    intro hq
    obtain ⟨l, c, hl, -, hv, -⟩ := step_quiet hq h
    have hlive : s'.kernel.liveTcbs = l := congrArg View.live hv
    rw [hlive] at ht
    exact hl ht
  cases op with
  | create a =>
      obtain rfl := Option.some.inj h
      exact .of_create rfl (by simp) ha.2.2.1 rfl rfl ht
  | createSuspended a =>
      obtain rfl := Option.some.inj h
      obtain ⟨-, htally⟩ := tally_osTaskCreateSuspended s.kernel a
      exact .of_create rfl (by simp) ha.2.2.1 htally (stackUses_osTaskCreateSuspended s.kernel a) ht
  | deleteSelf =>
      obtain ⟨k, hk, rfl⟩ := Option.map_eq_some_iff.mp h
      exact .kept (hquiet rfl) (by simp [Op.newTask]) (by simp) (congrFun (stackUses_osTaskDeleteSelf hk) t)
  | selectNext =>
      obtain rfl := Option.some.inj h
      exact .kept (hquiet rfl) (by simp [Op.newTask]) (by simp)
        (congrFun (stackUses_osSchedSelectNext s.kernel) t)
  | tick =>
      obtain ⟨k, hk, rfl⟩ := Option.map_eq_some_iff.mp h
      obtain ⟨hcan, huse⟩ := osTaskTick_marks hk
      have huse : ((s.onIsr k).kernel.tcb t).stackUse = _ := huse t
      by_cases hc : s.kernel.current = some t
      · rw [if_pos hc] at huse
        exact .ticked rfl (hquiet rfl) hc (hcan t hc) huse
      · rw [if_neg hc] at huse
        exact .kept (hquiet rfl) (by simp [Op.newTask]) (fun _ => hc) huse
  | scribble x v nx pv =>
      obtain rfl := Option.some.inj h
      have hlive : t ∈ s.kernel.liveTcbs := ht
      have hx : t ≠ x := fun heq => ha.2.2.1 x rfl (heq ▸ hlive)
      refine .kept hlive (by simp [Op.newTask]) (by simp) ?_
      show (Function.update s.kernel.tcb x v t).stackUse = _
      rw [Function.update_of_ne hx]
  | _ => exact absurd rfl hbook

/-! ## Runs -/

namespace MarkSys

variable {m m' : MarkSys}

/-- The ticks of a new task start from none. -/
theorem note_of_newTask (h : op.newTask = some t) : m.note op t = [] := by
  have hnote : m.note op = match op.newTask with
      | none => m.ticks
      | some x => Function.update m.ticks x [] := by
    cases op <;> first | rfl | cases h
  rw [hnote, h]
  exact Function.update_self ..

/-- A tick is noted for the current task. -/
theorem note_of_tick (h : m.sys.kernel.current = some t) :
    m.note .tick t = m.sys.kernel :: m.ticks t := by
  unfold note
  simp only [h]
  exact Function.update_self ..

/-- It is noted for no other one. -/
theorem note_of_ne (hnew : op.newTask ≠ some t) (htick : op = .tick → m.sys.kernel.current ≠ some t) :
    m.note op t = m.ticks t := by
  by_cases hop : op = .tick
  · subst hop
    have hne := htick rfl
    cases hc : m.sys.kernel.current with
    | none =>
        unfold note
        simp only [hc]
    | some c =>
        unfold note
        simp only [hc]
        exact Function.update_of_ne (fun heq => hne (by rw [hc, heq])) _ _
  · have hnote : m.note op = match op.newTask with
        | none => m.ticks
        | some x => Function.update m.ticks x [] := by
      cases op <;> first | rfl | exact absurd rfl hop
    rw [hnote]
    cases hx : op.newTask with
    | none => rfl
    | some x => exact Function.update_of_ne (fun heq => hnew (by rw [hx, heq])) _ _

end MarkSys

variable {m m' : MarkSys}

/-- **A step keeps what is true of the live tasks.** -/
theorem markStep_inv (hinv : ∀ t ∈ m.sys.kernel.liveTcbs, MarkInv m t) (ha : op.Allowed m.sys)
    (h : markStep m op = some m') : ∀ t ∈ m'.sys.kernel.liveTcbs, MarkInv m' t := by
  obtain ⟨s', hs, rfl⟩ := Option.map_eq_some_iff.mp h
  intro t ht
  cases step_marks ha hs ht with
  | kept hlive hnew htick huse =>
      have hnote := MarkSys.note_of_ne (m := m) hnew htick
      obtain ⟨hroom, hstack, hcanary, hmark⟩ := hinv t hlive
      simp only [Tcb.stackUse, StackUse.mk.injEq] at huse
      refine ⟨?_, ?_, ?_, ?_⟩ <;> dsimp only
      · rwa [huse.2.1]
      · rwa [hnote, huse.1, huse.2.1]
      · rwa [hnote]
      · rwa [hnote, huse.2.2]
  | created hnew hroom hmark =>
      have hnote := MarkSys.note_of_newTask (m := m) hnew
      refine ⟨hroom, ?_, ?_, ?_⟩ <;> dsimp only
      · rw [hnote]
        exact List.forall_mem_nil _
      · rw [hnote]
        exact List.forall_mem_nil _
      · rw [hnote]
        exact hmark
  | ticked hop hlive hcur hcan huse =>
      subst hop
      have hnote := MarkSys.note_of_tick (m := m) hcur
      obtain ⟨hroom, hstack, hcanary, hmark⟩ := hinv t hlive
      simp only [Tcb.stackUse, StackUse.mk.injEq] at huse
      refine ⟨?_, ?_, ?_, ?_⟩ <;> dsimp only
      · rwa [huse.2.1]
      · rw [hnote, huse.1, huse.2.1]
        exact List.forall_mem_cons.mpr ⟨⟨rfl, rfl⟩, hstack⟩
      · rw [hnote]
        exact List.forall_mem_cons.mpr ⟨hcan, hcanary⟩
      · rw [hnote, huse.2.2, largest_cons, hmark]

/-- A task that a tick has met is marked with the whole stack. -/
theorem MarkInv.getter_iff (h : MarkInv m t) :
    osTaskGetStackHighWater m.sys.kernel (some t) = largest (·.stackUsed t) (m.ticks t) ↔
      m.ticks t = [] := by
  refine ⟨fun heq => ?_, fun hnil => ?_⟩
  · have hmark : osTaskGetStackHighWater m.sys.kernel (some t) = _ := h.mark
    cases hks : m.ticks t with
    | nil => rfl
    | cons k ks =>
        exfalso
        have hroom := h.room
        -- the first tick has put the mark at the size of the stack
        have hfull : (m.sys.kernel.tcb t).stackSize ≤ largest (·.highWater t) (m.ticks t) := by
          have hk : k ∈ m.ticks t := hks ▸ List.mem_cons_self
          rw [hks, largest_cons, ← (h.stack k hk).2, Kernel.highWater,
            prvCalcHighWater_of_canary (h.canary k hk)]
          exact le_max_left _ _
        have hless : largest (·.stackUsed t) (m.ticks t) < (m.sys.kernel.tcb t).stackSize := by
          refine largest_lt (by omega) fun x hx => ?_
          have hsize := (h.stack x hx).2
          unfold Kernel.stackUsed
          rw [hsize]
          exact stackUsed_lt (by omega)
        omega
  · have hmark : osTaskGetStackHighWater m.sys.kernel (some t) = _ := h.mark
    rw [hmark, hnil]
    rfl

/-- **No scan tells the use of a stack.** `prv_calc_high_water` finds the canary in word 0 and returns
the size of the stack, at every depth of use. The mark of a live task is the largest value that its
ticks have computed, so it is the largest use only for a task that no tick has met while it ran. -/
theorem stack_highWater_iff {s₀ : Sys} (h₀ : s₀.Init) :
    (∀ m₀ mem base size n, UsedFrom m₀ mem base size n →
      stackUsed mem base size = size - 4 * (n + 1) ∧ prvCalcHighWater mem base size = size ∧
        prvCalcHighWater mem base size ≠ size - 4 * (n + 1)) ∧
    ∀ ops m, Run (fun m op => op.Allowed m.sys) markStep (.start s₀) ops m →
      ∀ t ∈ m.sys.kernel.liveTcbs,
        osTaskGetStackHighWater m.sys.kernel (some t) = largest (·.highWater t) (m.ticks t) ∧
        (osTaskGetStackHighWater m.sys.kernel (some t) = largest (·.stackUsed t) (m.ticks t) ↔
          m.ticks t = []) := by
  refine ⟨fun m₀ mem base size n h => ?_, fun ops m hr t ht => ?_⟩
  · have hin := h.inside
    refine ⟨h.stackUsed_eq, h.prvCalcHighWater_eq, ?_⟩
    rw [h.prvCalcHighWater_eq]
    omega
  · have hstart : ∀ t ∈ (MarkSys.start s₀).sys.kernel.liveTcbs, MarkInv (.start s₀) t := by
      intro t ht
      have hlive : (MarkSys.start s₀).sys.kernel.liveTcbs = [] := h₀.live
      rw [hlive] at ht
      cases ht
    have hinv := hr.invariant (fun m => ∀ t ∈ m.sys.kernel.liveTcbs, MarkInv m t)
      (fun m op m' hm ha hs => markStep_inv hm ha hs) hstart t ht
    exact ⟨hinv.mark, hinv.getter_iff⟩

/-- A stack of 128 bytes of which the task has used the top two words. -/
def shallowStack : Addr → BitVec 32 :=
  Function.update (prvFillStack (fun _ => 0) 0x20000000 128) 0x20000078 1

/-- **All of it counts as used.** -/
theorem shallowStack_marked_full :
    UsedFrom (fun _ => 0) shallowStack 0x20000000 128 29 ∧
      prvCalcHighWater shallowStack 0x20000000 128 = 128 ∧ 128 ≠ 128 - 4 * (29 + 1) := by
  refine ⟨⟨by decide, by decide, by decide⟩, by decide, by decide⟩

/-- A task that one tick has met. -/
theorem stack_highWater_after_tick :
    ∃ m, Run (fun m op => op.Allowed m.sys) markStep (.start .boot)
        [.create (taskAt 0x100 3), .selectNext, .tick] m ∧
      osTaskGetStackHighWater m.sys.kernel (some 0x100) = 256 ∧
      osTaskGetStackHighWater m.sys.kernel (some 0x100) ≠ largest (·.stackUsed 0x100) (m.ticks 0x100) := by
  obtain ⟨m, hr, hm⟩ := exists_run_of_exec (fun m op => op.Allowed m.sys) markStep (.start .boot)
    [.create (taskAt 0x100 3), .selectNext, .tick]
    (fun m => 0x100 ∈ m.sys.kernel.liveTcbs ∧ (m.ticks 0x100).length = 1 ∧
      osTaskGetStackHighWater m.sys.kernel (some 0x100) = 256) (by decide +kernel)
  refine ⟨m, hr, hm.2.2, fun heq => ?_⟩
  have hnil := (((stack_highWater_iff Sys.boot_init).2 _ m hr 0x100 hm.1).2).mp heq
  rw [hnil] at hm
  exact absurd hm.2.1 (by decide)

end MiniRTOS
