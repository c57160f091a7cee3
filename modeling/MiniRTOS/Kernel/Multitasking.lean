import MiniRTOS.Lib.SharedCpu
import MiniRTOS.Kernel.Exceptions

/-! # Every task has a processor of its own

Tasks execute, interrupts come at any instruction, `PendSV_Handler` switches to whatever task
`os_sched_select_next` selects, and new tasks are created. The machine has one set of registers and the
stacks of the tasks; it refines the ideal machine of `SharedCpu`, in which every task has registers of its
own. A switch is faithful on the Cortex-M3 and, without the FPU, on the Cortex-M4; the Cortex-M0 exchanges
R4-R7 with R8-R11 on the way in (`Port.resume`).

* **`Board.Inv.step`**, **`Board.Inv.run`** — the machine refines the ideal one.
* **`Board.Inv.spared_run`** — a task that does not execute keeps its context. -/

namespace MiniRTOS

open Runs WordMemory

variable {p : Port} {M : MemMap} {sel : SelectNext M} {c c' : Core} {m : Machine} {t u a : BitVec 32}
  {mem mem' : BitVec 32 → BitVec 32}

/-! ## What a switch leaves alone -/

/-- **The stack of the interrupted task** keeps its words outside the frame, and the handler gives the main
stack back. -/
theorem Interrupted.keeps (h : Interrupted p M t m) (sel : SelectNext M) :
    (∀ a, M.owner a = .stack t → a ∉ p.frameAddrs m → (p.pendSv sel m).mem a = m.mem a) ∧
      (p.pendSv sel m).reg .sp = m.reg .sp := by
  let y : Symbols := ⟨M.currentTaskPtr, sel.run⟩
  let m₁ := run y p.saves m
  let m₂ := run y suspends m₁
  let m₃ := sel.run m₂
  have hsaved : Saved p m m₁ := p.saves_saved y m
  have hsusp : Suspended y m₁ m₂ := run_suspends y m₁
  have hrun : p.pendSv sel m = run y p.loads (run y resumes m₃) := by
    rw [Port.pendSv, Port.pendSvHandler_eq, run_append, run_append, run_append, run_append]
    rfl
  have hcur : m₁.mem M.currentTaskPtr = t := by
    rw [hsaved.mem, storeWords_of_notMem, h.current]
    intro hmem
    have howner := h.frame _ hmem
    rw [M.owner_currentTaskPtr] at howner
    cases howner
  have hsp₃ : m₃.reg .sp = m.reg .sp - 8 := by rw [sel.sp, hsusp.sp, hsaved.sp]
  constructor
  · intro a ha hframe
    have hat : a ≠ t := by
      rintro rfl
      rw [h.task] at ha
      cases ha
    have hnot : a ∉ addrs (m.reg .sp - 8) 2 := by
      intro hmem
      have howner := h.main a hmem
      rw [ha] at howner
      cases howner
    have hmem : (p.pendSv sel m).mem = m₃.mem := by
      rw [hrun]
      exact (p.loads_loaded y _).mem
    rw [hmem, sel.tasks m₂ t a (Or.inl ha), hsusp.mem, hsaved.sp, storeWords_of_notMem hnot, hcur,
      Function.update_of_ne hat, hsaved.mem, storeWords_of_notMem hframe]
  · -- two words were pushed and popped again
    have hpop : (run y resumes m₃).reg .sp = m₃.reg .sp + 8 := by
      have hload : (m₃.loadUp .sp [.r1, .lr]).reg .sp = m₃.reg .sp + 8 :=
        m₃.reg_loadUp_of_notMem .sp .sp [.r1, .lr] (by decide)
      rw [← hload]
      simp [run, resumes, Instr.exec]
    have hloads : ∀ q : Machine, (run y p.loads q).reg .sp = q.reg .sp := by
      intro q
      cases p with
      | cortexM3 => exact q.reg_loadUp_of_notMem .r0 .sp r4r11 (by decide)
      | cortexM0 =>
          have h₁ := q.reg_loadUp_of_notMem .r0 .sp r4r7 (by decide)
          simp only [run, Port.loads, List.foldl_cons, List.foldl_nil, Instr.exec]
          refine (Machine.reg_loadUp_of_notMem _ .r0 .sp r4r7 (by decide)).trans ?_
          simpa using h₁
      | cortexM4 =>
          have h₁ := q.reg_loadUp_of_notMem .r0 .sp r4r11 (by decide)
          simp only [run, Port.loads, List.foldl_cons, List.foldl_nil, Instr.exec]
          split <;> simpa using h₁
    rw [hrun, hloads, hpop, hsp₃]
    bv_omega

/-! ## New tasks -/

/-- The arguments of `os_port_stack_init` for a new task, and its control block. -/
structure NewTask where
  /-- Its control block. -/
  tcb : BitVec 32
  /-- Its function. -/
  func : BitVec 32
  /-- The parameter of this one. -/
  param : BitVec 32
  /-- Its stack. -/
  base : Addr
  /-- The size of the stack in bytes. -/
  size : Nat

/-- Where `os_port_stack_init` starts to push: the end of the stack, rounded up to a multiple of 8. -/
def NewTask.top (n : NewTask) : BitVec 32 := BitVec.ofNat 32 ((n.base + n.size + 7) % 2 ^ 32 / 8 * 8)

/-- **The context of a new task**: it is at its function, with the parameter in R0. -/
def NewTask.context (n : NewTask) : TaskContext where
  reg
    | .r0 => n.param
    | .r1 => 0x01010101 | .r2 => 0x02020202 | .r3 => 0x03030303 | .r4 => 0x04040404
    | .r5 => 0x05050505 | .r6 => 0x06060606 | .r7 => 0x07070707 | .r8 => 0x08080808
    | .r9 => 0x09090909 | .r10 => 0x10101010 | .r11 => 0x11111111 | .r12 => 0x12121212
    | .lr => 0xFFFFFFFE
    | .sp => n.top
  pc := n.func &&& ~~~1
  xpsr := 0x01000000
  stack _ := 0

/-- The memory of the processor as `os_port_stack_init` of the kernel model has it. -/
def natMem (mem : BitVec 32 → BitVec 32) (a : Addr) : BitVec 32 := mem (BitVec.ofNat 32 a)

/-- `tcb->stack_ptr = os_port_stack_init(..)`. -/
def Core.create (n : NewTask) (c : Core) : Core :=
  let init := osPortStackInit (natMem c.mem) n.func n.param n.base n.size
  { c with mem := Function.update (wordAt init.2) n.tcb (BitVec.ofNat 32 init.1) }

/-- **The new task has its own control block and stack**, which ends below the top, with room for the
initial frame. -/
structure NewTask.Fits (M : MemMap) (n : NewTask) : Prop where
  /-- Its first word is `stack_ptr`. -/
  task : M.owner n.tcb = .stackPtr n.tcb
  /-- The initial frame lies on its stack. -/
  frame : ∀ a ∈ addrs (n.top - 64) 16, M.owner a = .stack n.tcb
  /-- Its stack ends at the top. -/
  below : ∀ a, M.owner a = .stack n.tcb → ¬ n.top ≤ a
  /-- The frame does not wrap around. -/
  low : 68 ≤ n.top.toNat

variable {n : NewTask}

/-- The top of a stack is a multiple of 8. -/
theorem NewTask.unaligned_top (n : NewTask) : unaligned n.top = false := by
  have hbit : ((n.base + n.size + 7) % 2 ^ 32 / 8 * 2 ^ 3).testBit 2 = false := by
    rw [Nat.testBit_mul_two_pow]
    rfl
  rw [unaligned, top, BitVec.getLsbD_ofNat]
  exact (congrArg (decide (2 < 32) && ·) hbit).trans rfl

/-- The initial frame has 16 words. -/
theorem NewTask.framePtr_top (n : NewTask) : framePtr n.top - 32 = n.top - 64 := by
  rw [framePtr, n.unaligned_top, if_neg Bool.false_ne_true]
  bv_omega

/-- **Creation stores the initial frame** below the top, and its address in the control block. -/
theorem Core.mem_create (n : NewTask) (c : Core) :
    (c.create n).mem = Function.update
      (storeWords c.mem (n.top - 64) (initialFrame n.func n.param).reverse) n.tcb (n.top - 64) := by
  obtain ⟨hsp, hmem⟩ := pushWords_eq (natMem c.mem) ((n.base + n.size + 7) % 2 ^ 32 / 8 * 8)
    (initialFrame n.func n.param) (by simp [initialFrame])
  have hback : wordAt (natMem c.mem) = c.mem := by
    funext a
    rw [wordAt, natMem, BitVec.ofNat_toNat, BitVec.setWidth_eq]
  show Function.update (wordAt (osPortStackInit (natMem c.mem) n.func n.param n.base n.size).2) n.tcb
    (BitVec.ofNat 32 (osPortStackInit (natMem c.mem) n.func n.param n.base n.size).1) = _
  rw [osPortStackInit, hsp, hmem, hback]
  rfl

/-- Creation writes into the stack and the control block of the new task. -/
theorem NewTask.Fits.keeps (h : n.Fits M) (hu : u ≠ n.tcb) (ha : M.Holds u a) :
    (c.create n).mem a = c.mem a := by
  have htcb : a ≠ n.tcb := by
    rintro rfl
    rcases ha with ha | ha <;> rw [h.task] at ha <;> cases ha
    exact hu rfl
  have hframe : a ∉ addrs (n.top - 64) (initialFrame n.func n.param).reverse.length := by
    intro hmem
    have howner := h.frame a hmem
    rcases ha with ha | ha <;> rw [ha] at howner <;> cases howner
    exact hu rfl
  rw [Core.mem_create, Function.update_of_ne htcb, storeWords_of_notMem hframe]

/-- A creation leaves `current_task_ptr` alone. -/
theorem NewTask.Fits.current (h : n.Fits M) :
    (c.create n).mem M.currentTaskPtr = c.mem M.currentTaskPtr := by
  have htcb : M.currentTaskPtr ≠ n.tcb := by
    intro heq
    have howner := h.task
    rw [← heq, M.owner_currentTaskPtr] at howner
    cases howner
  have hframe : M.currentTaskPtr ∉ addrs (n.top - 64) (initialFrame n.func n.param).reverse.length := by
    intro hmem
    have howner := h.frame _ hmem
    rw [M.owner_currentTaskPtr] at howner
    cases howner
  rw [Core.mem_create, Function.update_of_ne htcb, storeWords_of_notMem hframe]

/-- **An initial frame is a saved context.** -/
theorem NewTask.Fits.saved (h : n.Fits M) (hbase : mem n.tcb = n.top - 64)
    (hload : loadWords mem (n.top - 64) 16 = (initialFrame n.func n.param).reverse) :
    savedContext M mem n.tcb = n.context ∧ WellSaved M mem n.tcb := by
  have hsplit : initialRegs n.func n.param ++ ((initialFrame n.func n.param).take 8).reverse = _ :=
    hload.symm.trans (loadWords_add mem (n.top - 64) 8 8)
  obtain ⟨hsw, hhw⟩ := List.append_inj hsplit (length_loadWords ..).symm
  have hframe : n.top - 64 + BitVec.ofNat 32 (4 * 8) = mem n.tcb + 32 := by
    rw [hbase]
    rfl
  have hlow : ∀ r ∈ r4r11, savedLow mem (mem n.tcb) r = n.context.reg r := by
    refine List.map_inj_left.mp ?_
    rw [map_savedLow, hbase, ← hsw]
    rfl
  rw [hframe, loadWords_eight] at hhw
  simp only [initialFrame, List.take_succ_cons, List.take_zero, List.reverse_cons, List.reverse_nil,
    List.nil_append, List.cons_append, List.cons.injEq] at hhw
  obtain ⟨h0, h1, h2, h3, h12, hlr, hpc, hpsr, -⟩ := hhw
  have hbit : (0x01000000 : BitVec 32).getLsbD 9 = false := by decide
  have hsp : unstackedSp (mem n.tcb + 32) (mem (mem n.tcb + 32 + 28)) = n.top := by
    rw [← hpsr, unstackedSp, hbit, if_neg Bool.false_ne_true, hbase]
    bv_omega
  have hreg : (savedContext M mem n.tcb).reg = n.context.reg := by
    funext r
    cases r with
    | r0 => exact h0.symm
    | r1 => exact h1.symm
    | r2 => exact h2.symm
    | r3 => exact h3.symm
    | r12 => exact h12.symm
    | lr => exact hlr.symm
    | sp => exact hsp
    | r4 => exact hlow .r4 (by decide)
    | r5 => exact hlow .r5 (by decide)
    | r6 => exact hlow .r6 (by decide)
    | r7 => exact hlow .r7 (by decide)
    | r8 => exact hlow .r8 (by decide)
    | r9 => exact hlow .r9 (by decide)
    | r10 => exact hlow .r10 (by decide)
    | r11 => exact hlow .r11 (by decide)
  have heq : savedContext M mem n.tcb = n.context := by
    have hclear : (0x01000000 : BitVec 32) &&& ~~~alignBit = 0x01000000 := by decide
    rw [BitVec.add_assoc] at hpc hpsr hsp
    refine TaskContext.ext hreg ?_ ?_ ?_
    · exact congrArg (· &&& ~~~1) hpc.symm
    · exact (congrArg (· &&& ~~~alignBit) hpsr.symm).trans hclear
    · -- nothing lies above the top
      funext a
      refine (congrFun (congrArg (M.stackOf n.tcb · mem) hsp) a).trans ?_
      rw [MemMap.stackOf, if_neg fun ha => h.below a ha.1 ha.2]
      rfl
  have hplaced : Placed M n.tcb n.context := by
    refine ⟨h.low, ?_, ?_, hbit⟩
    · show ∀ a ∈ addrs (framePtr n.top - 32) 16, M.owner a = .stack n.tcb
      rw [n.framePtr_top]
      exact h.frame
    · show n.func &&& ~~~1 &&& ~~~1 = n.func &&& ~~~1
      rw [BitVec.and_assoc, BitVec.and_self]
  refine ⟨heq, ?_, ?_⟩
  · rw [heq]
    exact hplaced
  · rw [heq, hbase]
    exact n.framePtr_top.symm

/-- **A new task has its initial context**. -/
theorem NewTask.Fits.created (h : n.Fits M) :
    savedContext M (c.create n).mem n.tcb = n.context ∧ WellSaved M (c.create n).mem n.tcb := by
  refine h.saved ?_ ?_
  · rw [Core.mem_create]
    exact Function.update_self ..
  · have hback : loadWords (storeWords c.mem (n.top - 64) (initialFrame n.func n.param).reverse)
        (n.top - 64) (initialFrame n.func n.param).reverse.length
          = (initialFrame n.func n.param).reverse := loadWords_storeWords (by simp [initialFrame])
    refine Eq.trans (loadWords_congr fun a ha => ?_) hback
    have htcb : a ≠ n.tcb := by
      rintro rfl
      have howner := h.frame _ ha
      rw [h.task] at howner
      cases howner
    rw [Core.mem_create, Function.update_of_ne htcb]

/-! ## The machine and its runs -/

/-- **What an interrupt handler is allowed to do** that is not `PendSV_Handler`: anything that a function may
do which writes into no task's stack, no `stack_ptr` and not `current_task_ptr`. `SysTick_Handler` is one
with `OS_CONFIG_USE_INTERRUPT_NESTING`; without it, when the selection in `os_kernel_tick_increment` keeps
the current task. -/
structure Isr (M : MemMap) where
  /-- What the handler does. -/
  run : Machine → Machine
  /-- R4-R11 belong to the caller. -/
  low : ∀ m, r4r11.map (run m).reg = r4r11.map m.reg
  /-- It gives the main stack back. -/
  sp : ∀ m, (run m).reg .sp = m.reg .sp
  /-- It leaves the process stack pointer alone. -/
  psp : ∀ m, (run m).psp = m.psp
  /-- The contexts of the tasks stay. -/
  tasks : ∀ m t a, M.Holds t a → (run m).mem a = m.mem a
  /-- So does the current task. -/
  current : ∀ m, (run m).mem M.currentTaskPtr = m.mem M.currentTaskPtr

/-- The processor, and the control blocks of the tasks that were created. -/
structure Board where
  /-- The processor. -/
  core : Core
  /-- The tasks created so far. -/
  tasks : List (BitVec 32)

/-- What `current_task_ptr` points to. -/
def Board.current (M : MemMap) (b : Board) : BitVec 32 := b.core.mem M.currentTaskPtr

/-- What can happen next. -/
inductive BoardOp (M : MemMap)
  /-- The current task executes, up to this state of the processor. -/
  | exec (c : Core)
  /-- An interrupt, and its handler. -/
  | interrupt (h : Isr M)
  /-- PendSV, with the selection of task `n`. -/
  | pendSv (sel : SelectNext M) (n : BitVec 32)
  /-- The current task creates a task. -/
  | create (n : NewTask)

/-- A step of the machine. -/
def boardStep (p : Port) (b : Board) : BoardOp M → Option Board
  | .exec c => some { b with core := c }
  | .interrupt h => some { b with core := excReturn (h.run b.core.enter) }
  | .pendSv sel _ => some { b with core := excReturn (p.pendSv sel b.core.enter) }
  | .create n => some ⟨b.core.create n, n.tcb :: b.tasks⟩

/-- **What is promised.** A task writes into no other task's stack and `stack_ptr` and leaves room for a
frame on its own stack; `os_sched_select_next` selects a task that was created; a new task has its own
memory. -/
def Board.Permits (p : Port) (M : MemMap) (b : Board) : BoardOp M → Prop
  | .exec c => c.mem M.currentTaskPtr = b.current M ∧ c.msp = b.core.msp ∧
      (∀ u ∈ b.tasks, u ≠ b.current M → ∀ a, M.Holds u a → c.mem a = b.core.mem a) ∧
      Placed M (b.current M) (c.view M (b.current M))
  | .interrupt _ => True
  | .pendSv sel n => n ∈ b.tasks ∧ (p.pendSv sel b.core.enter).mem M.currentTaskPtr = n
  | .create n => n.tcb ∉ b.tasks ∧ n.Fits M

/-- **The context of a task**: the registers if it is the current one, what its stack holds if not. -/
def Board.context (M : MemMap) (b : Board) (t : BitVec 32) : TaskContext :=
  if t = b.current M then b.core.view M t else savedContext M b.core.mem t

/-- The current task can be interrupted, and the others can be switched in. -/
structure Board.Inv (M : MemMap) (b : Board) : Prop where
  /-- The current task is one of them. -/
  current : b.current M ∈ b.tasks
  /-- The first word of each is its `stack_ptr`. -/
  task : ∀ t ∈ b.tasks, M.owner t = .stackPtr t
  /-- The current task has room for a frame. -/
  placed : Placed M (b.current M) (b.core.view M (b.current M))
  /-- Every other one is saved. -/
  saved : ∀ t ∈ b.tasks, t ≠ b.current M → WellSaved M b.core.mem t
  /-- The main stack has room for two words. -/
  main : ∀ a ∈ addrs (b.core.msp - 8) 2, M.owner a = .mainStack
  /-- They do not wrap around. -/
  msp : 8 ≤ b.core.msp.toNat

/-! ## The ideal machine -/

/-- What the ideal machine sees of a step when `t` is the current task. -/
def BoardOp.event (M : MemMap) (t : BitVec 32) : BoardOp M → SharedCpu.Event (BitVec 32) TaskContext
  | .exec c => .write t (c.view M t)
  | .interrupt _ => .idle
  | .pendSv _ n => .switch n
  | .create n => .write n.tcb n.context

/-- One step of the ideal machine. -/
def idealStep (p : Port) (a : SharedCpu.State (BitVec 32) TaskContext) (op : BoardOp M) :
    SharedCpu.State (BitVec 32) TaskContext :=
  SharedCpu.after p.resume a (op.event M a.current)

/-- **The machine shows what the ideal machine has.** -/
structure Board.Shows (M : MemMap) (b : Board) (a : SharedCpu.State (BitVec 32) TaskContext) : Prop where
  /-- Both have the same current task. -/
  current : b.current M = a.current
  /-- Every task has its context. -/
  contexts : ∀ t ∈ b.tasks, b.context M t = a.ctx t

variable {b b' : Board} {s : SharedCpu.State (BitVec 32) TaskContext}

/-- The context of the current task is in the processor. -/
theorem Board.context_current (M : MemMap) (b : Board) :
    b.context M (b.current M) = b.core.view M (b.current M) :=
  if_pos rfl

/-- The context of any other task is on its stack. -/
theorem Board.context_of_ne (h : t ≠ b.current M) : b.context M t = savedContext M b.core.mem t :=
  if_neg h

/-- Entry keeps the contexts of the other tasks. -/
theorem Placed.enter_others (h : Placed M t (c.view M t)) (hu : u ≠ t) (ha : M.Holds u a) :
    c.enter.mem a = c.mem a := by
  refine Core.mem_enter fun hmem => ?_
  have howner := h.room a (mem_frame_of_hw hmem)
  rcases ha with ha | ha <;> rw [ha] at howner <;> cases howner
  exact hu rfl

/-- An exception entry leaves `current_task_ptr` alone. -/
theorem Placed.enter_current (h : Placed M t (c.view M t)) :
    c.enter.mem M.currentTaskPtr = c.mem M.currentTaskPtr := by
  refine Core.mem_enter fun hmem => ?_
  have howner := h.room _ (mem_frame_of_hw hmem)
  rw [M.owner_currentTaskPtr] at howner
  cases howner

/-- What a port loads differently is not what places a context. -/
theorem Placed.resume {x : TaskContext} (h : Placed M t x) (p : Port) : Placed M t (p.resume x) := by
  have hsp : (p.resume x).reg .sp = x.reg .sp := assign_of_notMem (by decide)
  exact ⟨hsp ▸ h.low, hsp ▸ h.room, h.pc, h.xpsr⟩

/-- The other tasks' contexts stay where nobody writes into them. -/
theorem Board.Inv.others (h : b.Inv M) (ht : t ∈ b.tasks) (hne : t ≠ b.current M)
    (hkeep : ∀ a, M.Holds t a → mem' a = b.core.mem a) :
    savedContext M mem' t = b.context M t ∧ WellSaved M mem' t := by
  rw [Board.context_of_ne hne]
  exact (h.saved t ht hne).congr (h.task t ht) hkeep

/-! ### Steps -/

/-- **Executing** changes the context of the current task. -/
theorem Board.Inv.exec (h : b.Inv M) (hs : b.Shows M s) {c : Core} (hop : b.Permits p M (.exec c)) :
    let b' : Board := { b with core := c }
    b'.Inv M ∧ b'.Shows M (idealStep p s (.exec (M := M) c)) := by
  obtain ⟨hcur, hmsp, hothers, hplaced⟩ := hop
  intro b'
  have hcur' : b'.current M = b.current M := hcur
  have hctx : ∀ t ∈ b.tasks, t ≠ b.current M →
      savedContext M c.mem t = b.context M t ∧ WellSaved M c.mem t :=
    fun t ht hne => h.others ht hne (hothers t ht hne)
  constructor
  · refine ⟨hcur' ▸ h.current, h.task, hcur' ▸ hplaced, fun t ht hne => ?_, ?_, ?_⟩
    · exact (hctx t ht (hcur' ▸ hne)).2
    · show ∀ a ∈ addrs (c.msp - 8) 2, M.owner a = .mainStack
      rw [hmsp]
      exact h.main
    · show 8 ≤ c.msp.toNat
      rw [hmsp]
      exact h.msp
  · refine ⟨hcur'.trans hs.current, fun t ht => ?_⟩
    show b'.context M t = Function.update s.ctx s.current (c.view M s.current) t
    by_cases hne : t = b.current M
    · rw [hne, ← hs.current, Function.update_self, ← hcur']
      exact b'.context_current M
    · rw [Board.context_of_ne (hcur'.symm ▸ hne), Function.update_of_ne (hs.current ▸ hne),
        ← hs.contexts t ht]
      exact (hctx t ht hne).1

/-- **An interrupt** changes no context. -/
theorem Board.Inv.interrupt (h : b.Inv M) (hs : b.Shows M s) (i : Isr M) :
    let b' : Board := { b with core := excReturn (i.run b.core.enter) }
    b'.Inv M ∧ b'.Shows M s := by
  intro b'
  have hcur' : b'.current M = b.current M := (i.current _).trans h.placed.enter_current
  have hview : b'.core.view M (b.current M) = b.core.view M (b.current M) := by
    refine h.placed.excReturn (i.psp _) (i.low _) fun a ha => i.tasks _ _ a (Or.inl ha)
  have hmsp : b'.core.msp = b.core.msp := (i.sp _).trans (by simp [Core.enter])
  have hctx : ∀ t ∈ b.tasks, t ≠ b.current M →
      savedContext M b'.core.mem t = b.context M t ∧ WellSaved M b'.core.mem t := by
    intro t ht hne
    refine h.others ht hne fun a ha => ?_
    exact (i.tasks _ t a ha).trans (h.placed.enter_others hne ha)
  constructor
  · refine ⟨hcur' ▸ h.current, h.task, ?_, fun t ht hne => ?_, hmsp ▸ h.main, hmsp ▸ h.msp⟩
    · rw [hcur', hview]
      exact h.placed
    · exact (hctx t ht (hcur' ▸ hne)).2
  · refine ⟨hcur'.trans hs.current, fun t ht => ?_⟩
    rw [← hs.contexts t ht]
    by_cases hne : t = b.current M
    · rw [hne, Board.context_current, ← hview, ← hcur']
      exact b'.context_current M
    · rw [Board.context_of_ne (hcur'.symm ▸ hne)]
      exact (hctx t ht hne).1

/-- **A switch** changes no context but what the port makes of the selected one. -/
theorem Board.Inv.pendSv (h : b.Inv M) (hs : b.Shows M s) (sel : SelectNext M) {n : BitVec 32}
    (hop : b.Permits p M (.pendSv sel n)) :
    let b' : Board := { b with core := excReturn (p.pendSv sel b.core.enter) }
    b'.Inv M ∧ b'.Shows M (idealStep p s (.pendSv sel n)) := by
  obtain ⟨hn, hcur'⟩ := hop
  intro b'
  have hcur' : b'.current M = n := hcur'
  have hint : Interrupted p M (b.current M) b.core.enter :=
    h.placed.interrupted rfl (h.task _ h.current) h.main h.msp
  have hsw := hint.pendSv sel
  obtain ⟨hown, hsp⟩ := hint.keeps sel
  have hmsp : b'.core.msp = b.core.msp := hsp.trans (by simp [Core.enter])
  -- the interrupted task has become one of the saved ones
  have hcurrent : savedContext M b'.core.mem (b.current M) = b.core.view M (b.current M) ∧
      WellSaved M b'.core.mem (b.current M) := by
    have hbase : b'.core.mem (b.current M) = framePtr (b.core.reg .sp) - 32 :=
      hsw.stored.trans (b.core.frameBase_enter p)
    have heq : savedContext M b'.core.mem (b.current M) = b.core.view M (b.current M) := by
      refine h.placed.savedContext hbase ?_ ?_ fun a ha hle => ?_
      · have hframe := hsw.frame
        rw [Core.frameBase_enter, Core.frame_enter] at hframe
        exact hframe
      · rw [← Core.load_enter]
        refine loadWords_congr fun a ha => ?_
        refine hown a (h.placed.room a (mem_frame_of_hw ha)) fun hin => ?_
        exact not_mem_sw_of_hw ha (Core.frameAddrs_enter p b.core ▸ hin)
      · have hnot := not_mem_frame h.placed.low hle
        refine (hown a ha fun hin => ?_).trans (Core.mem_enter fun hin => hnot (mem_frame_of_hw hin))
        exact hnot (mem_frame_of_sw (Core.frameAddrs_enter p b.core ▸ hin))
    refine ⟨heq, ?_, ?_⟩
    · rw [heq]
      exact h.placed
    · rw [heq]
      exact hbase
  have hctx : ∀ t ∈ b.tasks,
      savedContext M b'.core.mem t = b.context M t ∧ WellSaved M b'.core.mem t := by
    intro t ht
    by_cases hne : t = b.current M
    · rw [hne, Board.context_current]
      exact hcurrent
    · refine h.others ht hne fun a ha => ?_
      exact (hsw.others t hne a ha).trans (h.placed.enter_others hne ha)
  have hview : b'.core.view M n = p.resume (b.context M n) := by
    have hmem : (p.pendSv sel b.core.enter).mem M.currentTaskPtr = n := hcur'
    rw [← (hctx n hn).1]
    refine excReturn_savedContext ?_ ?_
    · have hpsp := hsw.psp
      rw [hmem, Core.usesFpu_enter] at hpsp
      rw [hpsp, Port.loadSize, if_neg fun hand => Bool.false_ne_true hand.2]
      rfl
    · rw [hsw.regs, hmem]
  constructor
  · refine ⟨hcur'.symm ▸ hn, h.task, ?_, fun t ht _ => (hctx t ht).2, hmsp ▸ h.main, hmsp ▸ h.msp⟩
    rw [hcur', hview, ← (hctx n hn).1]
    exact (hctx n hn).2.placed.resume p
  · refine ⟨hcur', fun t ht => ?_⟩
    show b'.context M t = Function.update s.ctx n (p.resume (s.ctx n)) t
    by_cases hne : t = n
    · rw [hne, Function.update_self, ← hs.contexts n hn, ← hview, ← hcur']
      exact b'.context_current M
    · rw [Board.context_of_ne (hcur'.symm ▸ hne), Function.update_of_ne hne, ← hs.contexts t ht]
      exact (hctx t ht).1

/-- **Creation** changes no context and adds one. -/
theorem Board.Inv.create (h : b.Inv M) (hs : b.Shows M s) {n : NewTask}
    (hop : b.Permits p M (.create n)) :
    let b' : Board := ⟨b.core.create n, n.tcb :: b.tasks⟩
    b'.Inv M ∧ b'.Shows M (idealStep p s (.create (M := M) n)) := by
  obtain ⟨hnew, hfits⟩ := hop
  intro b'
  have hcur' : b'.current M = b.current M := hfits.current
  have hne : ∀ t ∈ b.tasks, t ≠ n.tcb := by
    rintro t ht rfl
    exact hnew ht
  have hnc : n.tcb ≠ b.current M := (hne _ h.current).symm
  have hview : b'.core.view M (b.current M) = b.core.view M (b.current M) := by
    refine TaskContext.ext rfl rfl rfl (M.stackOf_congr fun a ha _ => ?_)
    exact hfits.keeps (hne _ h.current) (Or.inl ha)
  have hctx : ∀ t ∈ b.tasks, t ≠ b.current M →
      savedContext M b'.core.mem t = b.context M t ∧ WellSaved M b'.core.mem t :=
    fun t ht htc => h.others ht htc fun a ha => hfits.keeps (hne t ht) ha
  constructor
  · refine ⟨hcur'.symm ▸ List.mem_cons_of_mem _ h.current, fun t ht => ?_, ?_, fun t ht htc => ?_,
      h.main, h.msp⟩
    · rcases List.mem_cons.mp ht with rfl | ht
      · exact hfits.task
      · exact h.task t ht
    · rw [hcur', hview]
      exact h.placed
    · rcases List.mem_cons.mp ht with rfl | ht
      · exact hfits.created.2
      · exact (hctx t ht (hcur' ▸ htc)).2
  · refine ⟨hcur'.trans hs.current, fun t ht => ?_⟩
    show b'.context M t = Function.update s.ctx n.tcb n.context t
    rcases List.mem_cons.mp ht with rfl | ht
    · rw [Function.update_self, Board.context_of_ne (hcur'.symm ▸ hnc)]
      exact hfits.created.1
    · rw [Function.update_of_ne (hne t ht), ← hs.contexts t ht]
      by_cases htc : t = b.current M
      · rw [htc, Board.context_current, ← hview, ← hcur']
        exact b'.context_current M
      · rw [Board.context_of_ne (hcur'.symm ▸ htc)]
        exact (hctx t ht htc).1

/-! ### Runs -/

/-- **Step**: the machine refines the ideal one. -/
theorem Board.Inv.step {op : BoardOp M} (h : b.Inv M) (hs : b.Shows M s) (hop : b.Permits p M op)
    (hstep : boardStep p b op = some b') : b'.Inv M ∧ b'.Shows M (idealStep p s op) := by
  cases op with
  | exec c =>
      obtain rfl := Option.some.inj hstep
      exact h.exec hs hop
  | interrupt i =>
      obtain rfl := Option.some.inj hstep
      exact h.interrupt hs i
  | pendSv sel n =>
      obtain rfl := Option.some.inj hstep
      exact h.pendSv hs sel hop
  | create n =>
      obtain rfl := Option.some.inj hstep
      exact h.create hs hop

/-- **Run**: it refines the ideal machine along every run. -/
theorem Board.Inv.run {ops : List (BoardOp M)} (h : b.Inv M) (hs : b.Shows M s)
    (hr : Run (Board.Permits p M) (boardStep p) b ops b') :
    b'.Inv M ∧ b'.Shows M (ops.foldl (idealStep p) s) := by
  induction hr generalizing s with
  | nil b => exact ⟨h, hs⟩
  | cons hg hstep _ ih =>
      obtain ⟨h₁, hs₁⟩ := h.step hs hg hstep
      exact ih h₁ hs₁

/-- The ideal machine that the machine shows. -/
def Board.ideal (M : MemMap) (b : Board) : SharedCpu.State (BitVec 32) TaskContext :=
  ⟨b.current M, b.context M⟩

/-- At first the ideal machine has what the board shows. -/
theorem Board.shows_ideal (M : MemMap) (b : Board) : b.Shows M (b.ideal M) := ⟨rfl, fun _ _ => rfl⟩

/-- The operation is an execution of a task. -/
def BoardOp.executes : BoardOp M → Bool
  | .exec _ => true
  | _ => false

/-- How often task `t` is switched in. -/
def BoardOp.entries (t : BitVec 32) : BoardOp M → Nat
  | .pendSv _ n => if n = t then 1 else 0
  | _ => 0

/-- **Task `t` does not execute**: everything else may happen. -/
def Board.Spares (p : Port) (M : MemMap) (t : BitVec 32) (b : Board) (op : BoardOp M) : Prop :=
  b.Permits p M op ∧ (b.current M = t → op.executes = false)

/-- **Step**: the context of a task that does not execute. -/
theorem Board.Inv.spared {op : BoardOp M} (h : b.Inv M) (ht : t ∈ b.tasks) (hop : b.Spares p M t op)
    (hstep : boardStep p b op = some b') :
    b'.context M t = p.resume^[op.entries t] (b.context M t) ∧ t ∈ b'.tasks := by
  obtain ⟨hop, hspare⟩ := hop
  have hshow := (h.step (b.shows_ideal M) hop hstep).2
  cases op with
  | exec c =>
      obtain rfl := Option.some.inj hstep
      have hne : b.current M ≠ t := fun heq => Bool.false_ne_true (hspare heq).symm
      have hwrites : SharedCpu.Event.writes t ((BoardOp.exec (M := M) c).event M (b.current M)) = false :=
        decide_eq_false hne
      exact ⟨(hshow.contexts t ht).trans (SharedCpu.ctx_after hwrites), ht⟩
  | interrupt i =>
      obtain rfl := Option.some.inj hstep
      exact ⟨hshow.contexts t ht, ht⟩
  | pendSv sel n =>
      obtain rfl := Option.some.inj hstep
      have hwrites : SharedCpu.Event.writes t ((BoardOp.pendSv sel n).event M (b.current M)) = false := rfl
      exact ⟨(hshow.contexts t ht).trans (SharedCpu.ctx_after hwrites), ht⟩
  | create n =>
      obtain rfl := Option.some.inj hstep
      have hne : n.tcb ≠ t := by
        rintro rfl
        exact hop.1 ht
      have hwrites : SharedCpu.Event.writes t ((BoardOp.create (M := M) n).event M (b.current M)) = false :=
        decide_eq_false hne
      have hmem : t ∈ n.tcb :: b.tasks := List.mem_cons_of_mem _ ht
      exact ⟨(hshow.contexts t hmem).trans (SharedCpu.ctx_after hwrites), hmem⟩

/-- **Run**: a task that does not execute keeps its context, up to what the port makes of it whenever it
is switched in. -/
theorem Board.Inv.spared_run {ops : List (BoardOp M)} (h : b.Inv M) (ht : t ∈ b.tasks)
    (hr : Run (Board.Spares p M t) (boardStep p) b ops b') :
    b'.context M t = p.resume^[(ops.map (BoardOp.entries t)).sum] (b.context M t) := by
  induction hr with
  | nil b => rfl
  | cons hg hstep _ ih =>
      obtain ⟨hctx, ht₁⟩ := h.spared ht hg hstep
      have h₁ := (h.step (Board.shows_ideal M _) hg.1 hstep).1
      rw [ih h₁ ht₁, hctx, List.map_cons, List.sum_cons, Nat.add_comm, Function.iterate_add_apply]

/-- The Cortex-M3 and the Cortex-M4 make nothing of it: the context is the one it had. -/
theorem Board.Inv.spared_run_of_ne {ops : List (BoardOp M)} (h : b.Inv M) (hp : p ≠ .cortexM0)
    (ht : t ∈ b.tasks) (hr : Run (Board.Spares p M t) (boardStep p) b ops b') :
    b'.context M t = b.context M t := by
  have hsame : p.resume = id := funext (Port.resume_of_ne hp)
  rw [h.spared_run ht hr, hsame, Function.iterate_id, id]

end MiniRTOS
