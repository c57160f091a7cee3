import MiniRTOS.Kernel.Multitasking

/-! # The first task, and all runs from reset on

The first task is not switched in by `PendSV_Handler` but by `os_port_start_first_task`, which pops the
initial frame itself. It does not pop xPSR, so this task starts with its stack pointer a word below the top
of its stack, where the other tasks start. The runs are those without FPU, in which interrupts leave
`current_task_ptr` alone and each task keeps to its own stack.

* **`tasks_own_processors`** — from there on the machine refines the ideal one along every run.
* **`resumes_as_left`** — a task finds its registers and its stack as it left them.
* **`task_starts_at_function`** — a new task finds what `os_port_stack_init` stored for it. -/

namespace MiniRTOS

open Runs WordMemory

variable {p : Port} {M : MemMap} {c : Core} {t : BitVec 32} {b b' : Board}

/-! ## `os_port_start_first_task` -/

/-- The pops of R4-R11 in `os_port_start_first_task`. -/
def Port.popsLow : Port → List Instr
  | .cortexM0 => [.pop r4r7, .mov .r8 .r4, .mov .r9 .r5, .mov .r10 .r6, .mov .r11 .r7, .pop r4r7]
  | _ => [.pop r4r11]

/-- The pops of the other registers, up to the one of the program counter. -/
def popsHigh : List Instr := [.pop [.r0, .r1, .r2, .r3], .pop [.r12], .pop [.lr]]

/-- Bit 24 of xPSR: Thumb state. -/
def thumbBit : BitVec 32 := .twoPow 32 24

/-- The processor with the process stack pointer `psp` in use. -/
def Core.onPsp (c : Core) (psp : BitVec 32) : Machine where
  reg := Function.update c.reg .sp psp
  s := c.s
  psp := psp
  z := c.xpsr.getLsbD 30
  primask := c.primask
  mem := c.mem

/-- The pops, from the stack pointer `psp` on. -/
def Port.popFrame (p : Port) (M : MemMap) (c : Core) (psp : BitVec 32) : Machine :=
  run ⟨M.currentTaskPtr, id⟩ (p.popsLow ++ popsHigh) (c.onPsp psp)

/-- `os_port_start_first_task`: the process stack pointer is `tcb->stack_ptr`, the stack pointer in use
from there on, and the initial frame is popped. The last pop is the jump; the word of xPSR stays on the
stack. -/
def Port.osPortStartFirstTask (p : Port) (M : MemMap) (c : Core) : Core :=
  let tcb := c.mem M.currentTaskPtr
  if tcb = 0 then c
  else
    let m := p.popFrame M c (c.mem tcb)
    let pc := m.mem (m.reg .sp)
    { c with
      reg := Function.update m.reg .sp (m.reg .sp + 4)
      pc := pc &&& ~~~1
      xpsr := if pc.getLsbD 0 then c.xpsr ||| thumbBit else c.xpsr &&& ~~~thumbBit }

/-- R4-R11 are popped as `PendSV_Handler` loads them. -/
theorem Port.run_popsLow (p : Port) (y : Symbols) (m : Machine) :
    (run y p.popsLow m).mem = m.mem ∧
      r4r11.map (run y p.popsLow m).reg = p.arrange (loadWords m.mem (m.reg .sp) 8) ∧
      (run y p.popsLow m).reg .sp = m.reg .sp + 32 := by
  cases p with
  | cortexM3 =>
      refine ⟨rfl, ?_, m.reg_loadUp_of_notMem .sp .sp r4r11 (by decide)⟩
      rw [Port.arrange_of_ne (by decide)]
      exact m.map_reg_loadUp .sp r4r11 (by decide)
  | cortexM4 =>
      refine ⟨rfl, ?_, m.reg_loadUp_of_notMem .sp .sp r4r11 (by decide)⟩
      rw [Port.arrange_of_ne (by decide)]
      exact m.map_reg_loadUp .sp r4r11 (by decide)
  | cortexM0 =>
      -- R4-R7 move to R8-R11 before the second pop
      have hlow := m.map_reg_loadUp .sp r4r7 (by decide)
      have hsp : (m.loadUp .sp r4r7).reg .sp = m.reg .sp + 16 :=
        m.reg_loadUp_of_notMem .sp .sp r4r7 (by decide)
      let q := run y [.mov .r8 .r4, .mov .r9 .r5, .mov .r10 .r6, .mov .r11 .r7] (m.loadUp .sp r4r7)
      have hq : q.reg .sp = m.reg .sp + 16 := by
        rw [← hsp]
        simp [q, run, Instr.exec]
      have hhigh : [Reg.r8, .r9, .r10, .r11].map q.reg = loadWords m.mem (m.reg .sp) 4 := by
        refine Eq.trans ?_ hlow
        simp [q, run, Instr.exec, r4r7]
      have hlast := q.map_reg_loadUp .sp r4r7 (by decide)
      have hkeep : [Reg.r8, .r9, .r10, .r11].map (q.loadUp .sp r4r7).reg
          = [Reg.r8, .r9, .r10, .r11].map q.reg := by
        refine List.map_congr_left fun r hr => ?_
        have hne : r ∉ r4r7 ∧ r ≠ .sp := by
          revert r
          decide
        rw [q.reg_loadUp_of_notMem .sp r r4r7 hne.1, if_neg hne.2]
      refine ⟨rfl, ?_, ?_⟩
      · rw [Port.arrange_cortexM0, ← hhigh, ← hq, ← hkeep]
        exact congrArg (· ++ _) hlast
      · refine (q.reg_loadUp_of_notMem .sp .sp r4r7 (by decide)).trans ?_
        rw [if_pos rfl, hq, BitVec.add_assoc]
        rfl

/-- The registers after the other pops, as they are written. -/
theorem reg_popsHigh (y : Symbols) (m : Machine) : (run y popsHigh m).reg =
    let four := assign (Function.update m.reg .sp (m.reg .sp + 16)) [.r0, .r1, .r2, .r3]
      (loadWords m.mem (m.reg .sp) 4)
    let five := Function.update (Function.update four .sp (m.reg .sp + 20)) .r12 (m.mem (m.reg .sp + 16))
    Function.update (Function.update five .sp (m.reg .sp + 24)) .lr (m.mem (m.reg .sp + 20)) := by
  simp [run, popsHigh, Instr.exec, Machine.loadUp, assign, loadWords, addrs, BitVec.add_assoc]

/-- The other registers are popped as the processor unstacks them. -/
theorem run_popsHigh (y : Symbols) (m : Machine) :
    (run y popsHigh m).mem = m.mem ∧ (run y popsHigh m).reg .sp = m.reg .sp + 24 ∧
      ∀ r, r ≠ .sp → (run y popsHigh m).reg r = unstackReg m.reg m.mem (m.reg .sp) r := by
  have hwords : loadWords m.mem (m.reg .sp) 4 = [m.mem (m.reg .sp), m.mem (m.reg .sp + 4),
      m.mem (m.reg .sp + 8), m.mem (m.reg .sp + 12)] := by
    simp [loadWords, addrs, BitVec.add_assoc]
  refine ⟨rfl, ?_, fun r hr => ?_⟩
  · rw [reg_popsHigh]
    rfl
  · rw [reg_popsHigh, hwords]
    cases r with
    | sp => exact absurd rfl hr
    | _ => rfl

/-- **The pops** give the registers that `PendSV_Handler` and the exception return would give. -/
theorem Port.popFrame_spec (p : Port) (M : MemMap) (c : Core) (t : BitVec 32) :
    (p.popFrame M c (c.mem t)).mem = c.mem ∧ (p.popFrame M c (c.mem t)).reg .sp = c.mem t + 56 ∧
      ∀ r, r ≠ .sp → (p.popFrame M c (c.mem t)).reg r = (p.resume (savedContext M c.mem t)).reg r := by
  rw [Port.popFrame, run_append]
  have hsp₀ : (c.onPsp (c.mem t)).reg .sp = c.mem t := Function.update_self Reg.sp _ c.reg
  have hmem₀ : (c.onPsp (c.mem t)).mem = c.mem := rfl
  obtain ⟨hmem, hlow, hsp⟩ := p.run_popsLow ⟨M.currentTaskPtr, id⟩ (c.onPsp (c.mem t))
  generalize run ⟨M.currentTaskPtr, id⟩ p.popsLow (c.onPsp (c.mem t)) = m at hmem hlow hsp ⊢
  obtain ⟨hmem', hsp', hregs⟩ := run_popsHigh ⟨M.currentTaskPtr, id⟩ m
  rw [hsp₀, hmem₀] at hlow
  refine ⟨hmem'.trans hmem, ?_, fun r hr => ?_⟩
  · rw [hsp', hsp, hsp₀, BitVec.add_assoc]
    rfl
  · rw [hregs r hr, hmem, hsp, hsp₀, hmem₀]
    exact congrFun (Port.unstackReg_resume M hlow) r

/-- Setting or clearing the Thumb bit leaves bit 9 clear. -/
theorem thumbBit_clear {x : BitVec 32} (h : x.getLsbD 9 = false) (q : Bool) :
    (if q then x ||| thumbBit else x &&& ~~~thumbBit).getLsbD 9 = false := by
  cases q with
  | false =>
      rw [if_neg Bool.false_ne_true, BitVec.getLsbD_and, h]
      rfl
  | true =>
      rw [if_pos rfl, BitVec.getLsbD_or, h, thumbBit, BitVec.getLsbD_twoPow]
      rfl

/-- **What the first task finds**: what `PendSV_Handler` and the exception return would give it, with the
stack pointer a word lower. -/
theorem Port.osPortStartFirstTask_context (p : Port) (hcur : c.mem M.currentTaskPtr = t) (ht : t ≠ 0) :
    (p.osPortStartFirstTask M c).reg
        = Function.update (p.resume (savedContext M c.mem t)).reg .sp (c.mem t + 60) ∧
      (p.osPortStartFirstTask M c).pc = (savedContext M c.mem t).pc ∧
      (p.osPortStartFirstTask M c).mem = c.mem ∧ (p.osPortStartFirstTask M c).msp = c.msp ∧
      (c.xpsr.getLsbD 9 = false → (p.osPortStartFirstTask M c).xpsr.getLsbD 9 = false) := by
  subst hcur
  obtain ⟨hmem, hsp, hregs⟩ := p.popFrame_spec M c (c.mem M.currentTaskPtr)
  rw [Port.osPortStartFirstTask, if_neg ht]
  refine ⟨?_, ?_, rfl, rfl, fun hx => thumbBit_clear hx _⟩
  · show Function.update (p.popFrame M c _).reg .sp ((p.popFrame M c _).reg .sp + 4) = _
    funext r
    by_cases hr : r = .sp
    · rw [hr, Function.update_self, Function.update_self, hsp, BitVec.add_assoc]
      rfl
    · rw [Function.update_of_ne hr, Function.update_of_ne hr, hregs r hr]
  · show (p.popFrame M c _).mem ((p.popFrame M c _).reg .sp) &&& ~~~1 = _
    rw [hmem, hsp]
    rfl

/-! ## From reset on -/

/-- **What is promised until the first task starts**: `main` and what it calls write into no task's stack
and `stack_ptr`, and create tasks. -/
def Booting (M : MemMap) (b : Board) : BoardOp M → Prop
  | .exec c => ∀ u ∈ b.tasks, ∀ a, M.Holds u a → c.mem a = b.core.mem a
  | .create n => n.tcb ∉ b.tasks ∧ n.Fits M
  | _ => False

/-- **Up to `os_port_start_first_task`**, which starts task `first`: its stack has room for a frame below
the initial one. -/
structure Boots (p : Port) (M : MemMap) (boot : List (BoardOp M)) (first : NewTask) (b : Board) :
    Prop where
  /-- The system boots from some state of the processor, with no tasks. -/
  run : ∃ c, Run (Booting M) (boardStep p) ⟨c, []⟩ boot b
  /-- The first task has been created. -/
  created : BoardOp.create first ∈ boot
  /-- It has been selected. -/
  current : b.current M = first.tcb
  /-- So there is a task to start. -/
  notNull : first.tcb ≠ 0
  /-- Bit 9 of xPSR, which an exception entry sets in the stacked word only, is clear. -/
  xpsr : b.core.xpsr.getLsbD 9 = false
  /-- The frame and two more words do not wrap around. -/
  low : 72 ≤ first.top.toNat
  /-- The two words below the initial frame belong to the stack. -/
  room : ∀ a ∈ addrs (first.top - 72) 2, M.owner a = .stack first.tcb
  /-- The main stack has room for two words. -/
  main : ∀ a ∈ addrs (b.core.msp - 8) 2, M.owner a = .mainStack
  /-- Nor do they wrap around. -/
  msp : 8 ≤ b.core.msp.toNat

/-- The first task has started. -/
def Board.started (p : Port) (M : MemMap) (b : Board) : Board :=
  { b with core := p.osPortStartFirstTask M b.core }

/-- Every task of the list is saved with its initial context. -/
structure Board.Prepared (M : MemMap) (b : Board) (ns : List NewTask) : Prop where
  /-- There are no other tasks. -/
  tasks : b.tasks = ns.map NewTask.tcb
  /-- Each one has its memory. -/
  task : ∀ n ∈ ns, n.Fits M
  /-- It is saved as it was created. -/
  saved : ∀ n ∈ ns, savedContext M b.core.mem n.tcb = n.context ∧ WellSaved M b.core.mem n.tcb

/-- Step: until the first task starts, all tasks stay as they were created. -/
theorem Board.Prepared.step {ns : List NewTask} {op : BoardOp M} (h : b.Prepared M ns)
    (hop : Booting M b op) (hs : boardStep p b op = some b') :
    ∃ ns', b'.Prepared M ns' ∧ ns ⊆ ns' ∧ ∀ n, op = .create n → n ∈ ns' := by
  cases op with
  | exec c =>
      obtain rfl := Option.some.inj hs
      refine ⟨ns, ⟨h.tasks, h.task, fun n hn => ?_⟩, List.Subset.refl _, fun n hn => by cases hn⟩
      have hmem : n.tcb ∈ b.tasks := h.tasks ▸ List.mem_map_of_mem hn
      obtain ⟨heq, hsaved⟩ := h.saved n hn
      obtain ⟨hctx, hsaved'⟩ := hsaved.congr (h.task n hn).task (hop _ hmem)
      exact ⟨hctx.trans heq, hsaved'⟩
  | interrupt i => exact absurd hop id
  | pendSv sel n => exact absurd hop id
  | create n =>
      obtain rfl := Option.some.inj hs
      obtain ⟨hnew, hfits⟩ := hop
      refine ⟨n :: ns, ⟨congrArg (n.tcb :: ·) h.tasks, fun m hm => ?_, fun m hm => ?_⟩,
        List.subset_cons_self _ _, fun m hm => ?_⟩
      · rcases List.mem_cons.mp hm with rfl | hm
        · exact hfits
        · exact h.task m hm
      · rcases List.mem_cons.mp hm with rfl | hm
        · exact hfits.created
        · have hne : m.tcb ≠ n.tcb := by
            intro heq
            refine hnew ?_
            rw [h.tasks, ← heq]
            exact List.mem_map_of_mem hm
          obtain ⟨heq, hsaved⟩ := h.saved m hm
          obtain ⟨hctx, hsaved'⟩ := hsaved.congr (h.task m hm).task fun a ha => hfits.keeps hne ha
          exact ⟨hctx.trans heq, hsaved'⟩
      · cases hm
        exact List.mem_cons_self

/-- Run: when the first task starts, every task has its initial context. -/
theorem Board.Prepared.run {ns : List NewTask} {ops : List (BoardOp M)} (h : b.Prepared M ns)
    (hr : Run (Booting M) (boardStep p) b ops b') :
    ∃ ns', b'.Prepared M ns' ∧ ns ⊆ ns' ∧ ∀ n, .create n ∈ ops → n ∈ ns' := by
  induction hr generalizing ns with
  | nil b => exact ⟨ns, h, List.Subset.refl _, fun n hn => by cases hn⟩
  | cons hg hs _ ih =>
      obtain ⟨ns₁, h₁, hsub₁, hnew₁⟩ := h.step hg hs
      obtain ⟨ns₂, h₂, hsub₂, hnew₂⟩ := ih h₁
      refine ⟨ns₂, h₂, List.Subset.trans hsub₁ hsub₂, fun n hn => ?_⟩
      rcases List.mem_cons.mp hn with heq | hn
      · exact hsub₂ (hnew₁ n heq.symm)
      · exact hnew₂ n hn

/-- A word below the top, the frame takes two words more than the initial one. -/
theorem NewTask.framePtr_start {first : NewTask} (h : 72 ≤ first.top.toNat) :
    framePtr (first.top - 4) - 32 = first.top - 72 := by
  have hsub : (first.top - 4).toNat = first.top.toNat - 4 := by bv_omega
  have htop : first.top.toNat = 2 ^ 3 * ((first.base + first.size + 7) % 2 ^ 32 / 8) := by
    rw [NewTask.top, BitVec.toNat_ofNat]
    omega
  have hbits : (first.top - 4).toNat = 2 ^ 3 * ((first.base + first.size + 7) % 2 ^ 32 / 8 - 1) + 4 := by
    omega
  have hun : unaligned (first.top - 4) = true := by
    rw [unaligned, BitVec.getLsbD, hbits, Nat.testBit_two_pow_mul_add _ (by decide)]
    rfl
  rw [framePtr, hun, if_pos rfl]
  bv_omega

variable {boot : List (BoardOp M)} {first : NewTask}

/-- When the first task starts, every task has its initial context. -/
theorem Boots.prepared (h : Boots p M boot first b) :
    ∃ ns, b.Prepared M ns ∧ ∀ n, .create n ∈ boot → n ∈ ns := by
  obtain ⟨c, hr⟩ := h.run
  have hempty : Board.Prepared M ⟨c, []⟩ [] :=
    ⟨rfl, fun n hn => absurd hn List.not_mem_nil, fun n hn => absurd hn List.not_mem_nil⟩
  obtain ⟨ns, hprep, -, hnew⟩ := hempty.run hr
  exact ⟨ns, hprep, hnew⟩

/-- **The first task has started**: it finds its initial registers, with the stack pointer a word below the
top. -/
theorem Boots.started (h : Boots p M boot first b) :
    (b.started p M).Inv M ∧ (b.started p M).current M = first.tcb ∧
      (b.started p M).core.mem = b.core.mem ∧
      ((b.started p M).context M first.tcb).reg
        = Function.update (p.resume first.context).reg .sp (first.top - 4) ∧
      ((b.started p M).context M first.tcb).pc = first.context.pc := by
  obtain ⟨ns, hprep, hnew⟩ := h.prepared
  have hn := hnew first h.created
  obtain ⟨hctx, hsaved⟩ := hprep.saved first hn
  have hfits := hprep.task first hn
  obtain ⟨hreg, hpc, hmem, hmsp, hxpsr⟩ := p.osPortStartFirstTask_context h.current h.notNull
  have hbase : b.core.mem first.tcb + 60 = first.top - 4 := by
    have hb := hsaved.base
    rw [hctx] at hb
    rw [hb.trans first.framePtr_top]
    bv_omega
  rw [hctx, hbase] at hreg
  rw [hctx] at hpc
  have hcur : (b.started p M).current M = first.tcb := (congrFun hmem _).trans h.current
  have hview : (b.started p M).context M first.tcb = (p.osPortStartFirstTask M b.core).view M first.tcb :=
    if_pos hcur.symm
  have hsp : ((p.osPortStartFirstTask M b.core).view M first.tcb).reg .sp = first.top - 4 :=
    (congrFun hreg .sp).trans (Function.update_self ..)
  refine ⟨⟨?_, fun t ht => ?_, ?_, fun t ht _ => ?_, ?_, ?_⟩, hcur, hmem, ?_, ?_⟩
  · rw [hcur]
    exact hprep.tasks ▸ List.mem_map_of_mem hn
  · have ht : t ∈ ns.map NewTask.tcb := hprep.tasks ▸ ht
    obtain ⟨n, hn, rfl⟩ := List.mem_map.mp ht
    exact (hprep.task n hn).task
  · rw [hcur]
    show Placed M first.tcb ((p.osPortStartFirstTask M b.core).view M first.tcb)
    refine ⟨?_, fun a ha => ?_, ?_, hxpsr h.xpsr⟩
    · rw [hsp]
      have hlow := h.low
      bv_omega
    · rw [hsp, NewTask.framePtr_start h.low, show (16 : Nat) = 2 + 14 from rfl, addrs_add] at ha
      rcases List.mem_append.mp ha with ha | ha
      · exact h.room a ha
      · refine hfits.frame a ?_
        rw [show (16 : Nat) = 14 + 2 from rfl, addrs_add]
        refine List.mem_append_left _ ?_
        rwa [show first.top - 72 + BitVec.ofNat 32 (4 * 2) = first.top - 64 by bv_omega] at ha
    · show (p.osPortStartFirstTask M b.core).pc &&& ~~~1 = (p.osPortStartFirstTask M b.core).pc
      rw [hpc]
      show first.func &&& ~~~1 &&& ~~~1 = first.func &&& ~~~1
      rw [BitVec.and_assoc, BitVec.and_self]
  · have ht : t ∈ ns.map NewTask.tcb := hprep.tasks ▸ ht
    obtain ⟨n, hn, rfl⟩ := List.mem_map.mp ht
    have heq : (b.started p M).core.mem = b.core.mem := hmem
    rw [heq]
    exact (hprep.saved n hn).2
  · show ∀ a ∈ addrs ((p.osPortStartFirstTask M b.core).msp - 8) 2, M.owner a = .mainStack
    rw [hmsp]
    exact h.main
  · show 8 ≤ ((p.osPortStartFirstTask M b.core).msp).toNat
    rw [hmsp]
    exact h.msp
  · rw [hview]
    exact hreg
  · rw [hview]
    exact hpc

/-! ## From reset on: every run -/

/-- **Every task has a processor of its own.** On every port, for all tasks: from the start of the first
task on, along every run of tasks, interrupts, switches and creations, the registers and the stacks show
the contexts of the ideal machine, in which a context changes by what its own task executes and by what
the port makes of it when the task is switched in. In these runs (`Board.Permits`) nobody uses the FPU,
interrupts leave `current_task_ptr` alone, tasks keep to their own stacks and leave room for a frame, and
the frame of a new task lies in memory of its own (`NewTask.Fits`). -/
theorem tasks_own_processors (hb : Boots p M boot first b) {ops : List (BoardOp M)}
    (hr : Run (Board.Permits p M) (boardStep p) (b.started p M) ops b') :
    b'.Shows M (ops.foldl (idealStep p) ((b.started p M).ideal M)) :=
  (hb.started.1.run (Board.shows_ideal M _) hr).2

/-- **A task resumes as it left.** From any reached state on, while task `t` does not execute, it has all
its registers and its stack, whatever tasks that keep to their own stacks, interrupts that leave
`current_task_ptr` alone and switches do (no FPU). Only the Cortex-M0 exchanges R4-R7 with R8-R11, once
each time the task is switched in. -/
theorem resumes_as_left (hb : Boots p M boot first b) {ops ops' : List (BoardOp M)} {b₁ b₂ : Board}
    (hr : Run (Board.Permits p M) (boardStep p) (b.started p M) ops b₁) (ht : t ∈ b₁.tasks)
    (hr' : Run (Board.Spares p M t) (boardStep p) b₁ ops' b₂) :
    b₂.context M t = p.resume^[(ops'.map (BoardOp.entries t)).sum] (b₁.context M t) :=
  (hb.started.1.run (Board.shows_ideal M _) hr).1.spared_run ht hr'

/-- **How a task starts.** The task that `os_port_start_first_task` starts has its initial registers, with
the stack pointer a word below the top, where xPSR is left. Every other task, created before or in any
state that the runs above reach (no FPU, interrupts leave `current_task_ptr` alone, tasks keep to their own
stacks), has its initial context until it executes: at its function, with the parameter in R0 and the stack
pointer at the top. The Cortex-M0 exchanges R4-R7 with R8-R11 of it at the first switch already. -/
theorem task_starts_at_function (hb : Boots p M boot first b) :
    ((b.started p M).context M first.tcb).reg
        = Function.update (p.resume first.context).reg .sp (first.top - 4) ∧
      ((b.started p M).context M first.tcb).pc = first.context.pc ∧
      (∀ n, .create n ∈ boot → n.tcb ≠ first.tcb → ∀ ops b',
        Run (Board.Spares p M n.tcb) (boardStep p) (b.started p M) ops b' →
        b'.context M n.tcb = p.resume^[(ops.map (BoardOp.entries n.tcb)).sum] n.context) ∧
      ∀ n ops b₁ b₁' ops' b₂, Run (Board.Permits p M) (boardStep p) (b.started p M) ops b₁ →
        b₁.Permits p M (.create n) → boardStep p b₁ (.create (M := M) n) = some b₁' →
        Run (Board.Spares p M n.tcb) (boardStep p) b₁' ops' b₂ →
        b₂.context M n.tcb = p.resume^[(ops'.map (BoardOp.entries n.tcb)).sum] n.context := by
  obtain ⟨hinv, hcur, hmem, hreg, hpc⟩ := hb.started
  refine ⟨hreg, hpc, fun n hn hne ops b' hr => ?_, fun n ops b₁ b₁' ops' b₂ hr hop hs hr' => ?_⟩
  · obtain ⟨ns, hprep, hnew⟩ := hb.prepared
    have htask : n.tcb ∈ (b.started p M).tasks := hprep.tasks ▸ List.mem_map_of_mem (hnew n hn)
    have hctx : (b.started p M).context M n.tcb = n.context := by
      rw [Board.context_of_ne (hcur ▸ hne), hmem]
      exact (hprep.saved n (hnew n hn)).1
    rw [hinv.spared_run htask hr, hctx]
  · have hinv₁ := (hinv.run (Board.shows_ideal M _) hr).1
    obtain ⟨hinv', hshow⟩ := hinv₁.step (Board.shows_ideal M _) hop hs
    obtain rfl := Option.some.inj hs
    have hctx := (hshow.contexts n.tcb List.mem_cons_self).trans (SharedCpu.ctx_write ..)
    rw [hinv'.spared_run List.mem_cons_self hr', hctx]

/-! ### Two tasks -/

/-- The first task of `twoTasksMap`. -/
def mainTask : NewTask := ⟨0x20000100, 0x08000101, 7, 0x20001000, 0x100⟩

/-- The second one. -/
def otherTask : NewTask := ⟨0x20000200, 0x08000201, 8, 0x20001100, 0x100⟩

/-- A stack ends below its end. -/
theorem twoTasksMap_below {a t : BitVec 32} (h : twoTasksMap.owner a = .stack t) :
    t = 0x20000100 ∧ a < 0x20001100 ∨ t = 0x20000200 ∧ a < 0x20001200 := by
  unfold twoTasksMap at h
  dsimp only at h
  split_ifs at h with _ _ h₁ h₂
  · cases h
    exact Or.inl ⟨rfl, h₁.2⟩
  · cases h
    exact Or.inr ⟨rfl, h₂.2⟩

/-- The top of the first stack. -/
theorem mainTask_top : mainTask.top = 0x20001100 := by decide

/-- The top of the second stack. -/
theorem otherTask_top : otherTask.top = 0x20001200 := by decide

/-- The first task has memory of its own. -/
theorem mainTask_fits : mainTask.Fits twoTasksMap := by
  refine ⟨rfl, fun a ha => ?_, fun a ha hle => ?_, ?_⟩ <;> rw [mainTask_top] at *
  · obtain ⟨hlow, hhigh⟩ := toNat_of_mem_addrs (by decide) ha
    exact twoTasksMap_stack_first (by bv_omega) (by bv_omega)
  · rcases twoTasksMap_below ha with ⟨-, hlt⟩ | ⟨ht, -⟩
    · bv_omega
    · exact absurd ht (by decide)
  · decide

/-- So has the second one. -/
theorem otherTask_fits : otherTask.Fits twoTasksMap := by
  refine ⟨rfl, fun a ha => ?_, fun a ha hle => ?_, ?_⟩ <;> rw [otherTask_top] at *
  · obtain ⟨hlow, hhigh⟩ := toNat_of_mem_addrs (by decide) ha
    exact twoTasksMap_stack_second (by bv_omega) (by bv_omega)
  · rcases twoTasksMap_below ha with ⟨ht, -⟩ | ⟨-, hlt⟩
    · exact absurd ht (by decide)
    · bv_omega
  · decide

/-- The processor after reset. -/
def resetCore : Core where
  reg _ := 0
  pc := 0
  xpsr := thumbBit
  s _ := 0
  msp := 0x20002100
  primask := false
  mem _ := 0

/-- Both tasks are created. -/
def bothCreated : Core := (resetCore.create mainTask).create otherTask

/-- `os_sched_start` has selected the first one. -/
def selectedFirst : Core :=
  { bothCreated with mem := Function.update bothCreated.mem 0x20000000 0x20000100 }

/-- What `main` does. -/
def bootOps : List (BoardOp twoTasksMap) := [.create mainTask, .create otherTask, .exec selectedFirst]

/-- Two tasks are created, and the first one is selected. -/
theorem boots_mainTask :
    Boots .cortexM3 twoTasksMap bootOps mainTask ⟨selectedFirst, [otherTask.tcb, mainTask.tcb]⟩ where
  run := by
    have hselect : Booting twoTasksMap ⟨bothCreated, [otherTask.tcb, mainTask.tcb]⟩
        (.exec selectedFirst) := by
      intro u _ a ha
      exact Function.update_of_ne (ha.ne (Or.inl rfl)) _ _
    have hother : Booting twoTasksMap ⟨resetCore.create mainTask, [mainTask.tcb]⟩ (.create otherTask) :=
      ⟨by decide, otherTask_fits⟩
    exact ⟨resetCore, .cons ⟨List.not_mem_nil, mainTask_fits⟩ rfl
      (.cons hother rfl (.cons hselect rfl (.nil _)))⟩
  created := List.mem_cons_self
  current := by
    have hself : selectedFirst.mem 0x20000000 = 0x20000100 :=
      Function.update_self (0x20000000 : BitVec 32) _ bothCreated.mem
    exact hself
  notNull := by decide
  xpsr := by decide
  low := by decide
  room a ha := by
    rw [mainTask_top] at ha
    obtain ⟨hlow, hhigh⟩ := toNat_of_mem_addrs (by decide) ha
    exact twoTasksMap_stack_first (by bv_omega) (by bv_omega)
  main a ha := by
    have ha : a ∈ addrs (0x200020F8 : BitVec 32) 2 := ha
    obtain ⟨hlow, hhigh⟩ := toNat_of_mem_addrs (by decide) ha
    exact twoTasksMap_mainStack (by bv_omega) (by bv_omega)
  msp := by decide

/-- The first task has started. -/
def runningFirst : Board :=
  Board.started .cortexM3 twoTasksMap ⟨selectedFirst, [otherTask.tcb, mainTask.tcb]⟩

/-- The first task is preempted by the second one, which executes and is preempted in turn. -/
def preemption (c : Core) : List (BoardOp twoTasksMap) :=
  [.pendSv (.pick twoTasksMap otherTask.tcb) otherTask.tcb, .exec c,
    .pendSv (.pick twoTasksMap mainTask.tcb) mainTask.tcb]

/-- The second task has been switched in. -/
def preempted : Core :=
  excReturn (Port.pendSv .cortexM3 (.pick twoTasksMap otherTask.tcb) runningFirst.core.enter)

/-- It has executed `mov r4, #9`. -/
def secondExecuted : Core := { preempted with reg := Function.update preempted.reg .r4 9 }

/-- The invariant holds when the first task starts. -/
theorem runningFirst_inv : runningFirst.Inv twoTasksMap := boots_mainTask.started.1

/-- The preemption is a run in which the first task does not execute. -/
theorem preemption_run : ∃ b, Run (Board.Spares .cortexM3 twoTasksMap mainTask.tcb) (boardStep .cortexM3)
    runningFirst (preemption secondExecuted) b := by
  have hpick (b : Board) (n : BitVec 32) (hn : n ∈ b.tasks) :
      b.Spares .cortexM3 twoTasksMap mainTask.tcb (.pendSv (.pick twoTasksMap n) n) :=
    ⟨⟨hn, Port.pendSv_pick ..⟩, fun _ => rfl⟩
  have hout := hpick runningFirst otherTask.tcb List.mem_cons_self
  obtain ⟨hinv, -⟩ := runningFirst_inv.step (runningFirst.shows_ideal twoTasksMap) hout.1 rfl
  have hcur : Board.current twoTasksMap { runningFirst with core := preempted } = otherTask.tcb := hout.1.2
  refine ⟨_, .cons hout rfl (.cons ⟨⟨rfl, rfl, fun _ _ _ _ _ => rfl, ?_⟩, fun heq => ?_⟩ rfl
    (.cons (hpick _ mainTask.tcb (List.mem_cons_of_mem _ List.mem_cons_self)) rfl (.nil _)))⟩
  · exact ⟨hinv.placed.low, hinv.placed.room, hinv.placed.pc, hinv.placed.xpsr⟩
  · exact absurd (hcur.symm.trans heq) (by decide)

/-- The preempted task has all its registers when it is resumed. -/
theorem resumes_as_left_preemption : ∃ b,
    Run (Board.Spares .cortexM3 twoTasksMap mainTask.tcb) (boardStep .cortexM3) runningFirst
      (preemption secondExecuted) b ∧
    b.context twoTasksMap mainTask.tcb
      = Port.resume .cortexM3 (runningFirst.context twoTasksMap mainTask.tcb) := by
  obtain ⟨b, hr⟩ := preemption_run
  have hmem : mainTask.tcb ∈ runningFirst.tasks := List.mem_cons_of_mem _ List.mem_cons_self
  exact ⟨b, hr, resumes_as_left boots_mainTask (.nil _) hmem hr⟩

/-- Both tasks have their contexts throughout the preemption. -/
theorem tasks_own_processors_preemption : ∃ b,
    Run (Board.Permits .cortexM3 twoTasksMap) (boardStep .cortexM3) runningFirst
      (preemption secondExecuted) b ∧
    b.Shows twoTasksMap
      ((preemption secondExecuted).foldl (idealStep .cortexM3) (runningFirst.ideal twoTasksMap)) := by
  obtain ⟨b, hr⟩ := preemption_run
  have hr := hr.mono fun _ _ hop => hop.1
  exact ⟨b, hr, tasks_own_processors boots_mainTask hr⟩

/-- The first task starts at its function with the parameter 7, a word below the top of its stack. -/
theorem task_starts_at_function_mainTask :
    (runningFirst.context twoTasksMap mainTask.tcb).reg .r0 = 7 ∧
      (runningFirst.context twoTasksMap mainTask.tcb).reg .sp = 0x200010FC ∧
      (runningFirst.context twoTasksMap mainTask.tcb).pc = 0x08000100 ∧
      runningFirst.context twoTasksMap otherTask.tcb = otherTask.context := by
  obtain ⟨hreg, hpc, hothers, -⟩ := task_starts_at_function boots_mainTask
  have hreg : (runningFirst.context twoTasksMap mainTask.tcb).reg = _ := hreg
  have hother : BoardOp.create (M := twoTasksMap) otherTask ∈ bootOps :=
    List.mem_cons_of_mem _ List.mem_cons_self
  refine ⟨?_, ?_, ?_, hothers otherTask hother (by decide) [] runningFirst (.nil _)⟩
  · rw [hreg]
    rfl
  · rw [hreg, mainTask_top]
    rfl
  · exact hpc.trans (by decide)

end MiniRTOS
