import MiniRTOS.Lib.WordMemory

/-! # `PendSV_Handler`

The context switches of the ports for the Cortex-M3, M0 and M4, instruction by instruction. Each handler
stores the registers of the interrupted task on its process stack and the stack pointer in its control
block, calls `os_sched_select_next`, and loads the registers of the task that this one selected. What the
first and the last part of a handler move is the content of `Port.saves_saved` and `Port.loads_loaded`;
the part in between is the same in all three. -/

namespace MiniRTOS

open WordMemory

/-! ## The machine -/

/-- The core registers that the handlers name. In an exception handler `sp` is the main stack pointer,
and `lr` (R14) enters with EXC_RETURN. -/
inductive Reg
  | r0 | r1 | r2 | r3 | r4 | r5 | r6 | r7 | r8 | r9 | r10 | r11 | r12 | sp | lr
  deriving DecidableEq, Repr

/-- Registers and memory. -/
structure Machine where
  /-- The core registers. -/
  reg : Reg → BitVec 32
  /-- S0-S31. -/
  s : Fin 32 → BitVec 32
  /-- The process stack pointer. -/
  psp : BitVec 32
  /-- The zero flag. -/
  z : Bool
  /-- PRIMASK: interrupts are disabled. -/
  primask : Bool
  /-- The words of the memory, by byte address. -/
  mem : BitVec 32 → BitVec 32

/-- Write one register. -/
def Machine.setReg (m : Machine) (r : Reg) (v : BitVec 32) : Machine :=
  { m with reg := Function.update m.reg r v }

/-- `{r4-r11}`. -/
def r4r11 : List Reg := [.r4, .r5, .r6, .r7, .r8, .r9, .r10, .r11]

/-- `{r4-r7}`. -/
def r4r7 : List Reg := [.r4, .r5, .r6, .r7]

/-- `{s16-s31}`. -/
def s16s31 : List (Fin 32) := [16, 17, 18, 19, 20, 21, 22, 23, 24, 25, 26, 27, 28, 29, 30, 31]

/-- The instructions of the handlers. -/
inductive Instr
  /-- `cpsid i`. -/
  | cpsid
  /-- `cpsie i`. -/
  | cpsie
  /-- `mrs d, psp`. -/
  | mrsPsp (d : Reg)
  /-- `msr psp, n`. -/
  | msrPsp (n : Reg)
  /-- `mov d, m`. -/
  | mov (d m : Reg)
  /-- `sub d, n, #imm`. -/
  | sub (d n : Reg) (imm : BitVec 32)
  /-- `stmdb n!, {rs}`. -/
  | stmdb (n : Reg) (rs : List Reg)
  /-- `stmia n!, {rs}`. -/
  | stmia (n : Reg) (rs : List Reg)
  /-- `ldmia n!, {rs}`. -/
  | ldmia (n : Reg) (rs : List Reg)
  /-- `ldr t, =current_task_ptr`. -/
  | ldrCurrentTaskPtr (t : Reg)
  /-- `ldr t, [n]`. -/
  | ldr (t n : Reg)
  /-- `str t, [n]`. -/
  | str (t n : Reg)
  /-- `push {rs}`. -/
  | push (rs : List Reg)
  /-- `pop {rs}`. -/
  | pop (rs : List Reg)
  /-- `bl os_sched_select_next`. -/
  | blSelectNext
  /-- `tst n, #imm`. -/
  | tst (n : Reg) (imm : BitVec 32)
  /-- `it eq` and `vstmdbeq n!, {s16-s31}`. -/
  | vstmdbEq (n : Reg)
  /-- `it eq` and `vldmiaeq n!, {s16-s31}`. -/
  | vldmiaEq (n : Reg)
  /-- `bx m`. -/
  | bx (m : Reg)

/-- What the instructions refer to by name: the address of `current_task_ptr`, and what a call of
`os_sched_select_next` does to the machine. -/
structure Symbols where
  /-- The address of `current_task_ptr`. -/
  currentTaskPtr : BitVec 32
  /-- What `os_sched_select_next` does. -/
  selectNext : Machine → Machine

/-- `stmdb n!, {rs}`: the lowest register of the list goes to the lowest address. -/
def Machine.storeDown (m : Machine) (n : Reg) (ws : List (BitVec 32)) : Machine :=
  let a := m.reg n - BitVec.ofNat 32 (4 * ws.length)
  { m with mem := storeWords m.mem a ws, reg := Function.update m.reg n a }

/-- `stmia n!, {rs}`. -/
def Machine.storeUp (m : Machine) (n : Reg) (ws : List (BitVec 32)) : Machine :=
  { m with
    mem := storeWords m.mem (m.reg n) ws
    reg := Function.update m.reg n (m.reg n + BitVec.ofNat 32 (4 * ws.length)) }

/-- `ldmia n!, {rs}`. -/
def Machine.loadUp (m : Machine) (n : Reg) (rs : List Reg) : Machine :=
  { m with
    reg := assign (Function.update m.reg n (m.reg n + BitVec.ofNat 32 (4 * rs.length))) rs
      (loadWords m.mem (m.reg n) rs.length) }

section Fields

variable (m : Machine) (n q : Reg) (v : BitVec 32) (ws : List (BitVec 32)) (rs : List Reg)

/-- The registers after one has been written. -/
@[simp] theorem Machine.reg_setReg :
    (m.setReg n v).reg q = if q = n then v else m.reg q := Function.update_apply ..

/-- Writing a register leaves the memory alone. -/
@[simp] theorem Machine.mem_setReg : (m.setReg n v).mem = m.mem := rfl

/-- It leaves the process stack pointer alone. -/
@[simp] theorem Machine.psp_setReg : (m.setReg n v).psp = m.psp := rfl

/-- It leaves the floating-point registers alone. -/
@[simp] theorem Machine.s_setReg : (m.setReg n v).s = m.s := rfl

/-- The memory after a descending store. -/
theorem Machine.mem_storeDown :
    (m.storeDown n ws).mem = storeWords m.mem (m.reg n - BitVec.ofNat 32 (4 * ws.length)) ws := rfl

/-- The base register moves down by the words stored. -/
@[simp] theorem Machine.reg_storeDown : (m.storeDown n ws).reg q
    = if q = n then m.reg n - BitVec.ofNat 32 (4 * ws.length) else m.reg q := Function.update_apply ..

/-- The memory after an ascending store. -/
theorem Machine.mem_storeUp : (m.storeUp n ws).mem = storeWords m.mem (m.reg n) ws := rfl

/-- The base register moves up by the words stored. -/
@[simp] theorem Machine.reg_storeUp : (m.storeUp n ws).reg q
    = if q = n then m.reg n + BitVec.ofNat 32 (4 * ws.length) else m.reg q := Function.update_apply ..

/-- A load leaves the memory alone. -/
@[simp] theorem Machine.mem_loadUp : (m.loadUp n rs).mem = m.mem := rfl

/-- It leaves the process stack pointer alone. -/
@[simp] theorem Machine.psp_loadUp : (m.loadUp n rs).psp = m.psp := rfl

/-- It leaves the floating-point registers alone. -/
@[simp] theorem Machine.s_loadUp : (m.loadUp n rs).s = m.s := rfl

/-- A load leaves the registers that are not listed. -/
theorem Machine.reg_loadUp_of_notMem (h : q ∉ rs) : (m.loadUp n rs).reg q
    = if q = n then m.reg n + BitVec.ofNat 32 (4 * rs.length) else m.reg q :=
  (assign_of_notMem h).trans (Function.update_apply ..)

/-- The listed registers get the words, the lowest one first. -/
theorem Machine.map_reg_loadUp (h : rs.Nodup) :
    rs.map (m.loadUp n rs).reg = loadWords m.mem (m.reg n) rs.length :=
  map_assign h (length_loadWords ..).symm

end Fields

/-- One instruction. The exception return `bx r14` ends the handler: what the hardware unstacks from the
process stack is no transfer of the handler's. -/
def Instr.exec (y : Symbols) (i : Instr) (m : Machine) : Machine :=
  match i with
  | .cpsid => { m with primask := true }
  | .cpsie => { m with primask := false }
  | .mrsPsp d => m.setReg d m.psp
  | .msrPsp n => { m with psp := m.reg n }
  | .mov d r => m.setReg d (m.reg r)
  | .sub d n imm => m.setReg d (m.reg n - imm)
  | .stmdb n rs => m.storeDown n (rs.map m.reg)
  | .stmia n rs => m.storeUp n (rs.map m.reg)
  | .ldmia n rs => m.loadUp n rs
  | .ldrCurrentTaskPtr t => m.setReg t y.currentTaskPtr
  | .ldr t n => m.setReg t (m.mem (m.reg n))
  | .str t n => { m with mem := Function.update m.mem (m.reg n) (m.reg t) }
  | .push rs => m.storeDown .sp (rs.map m.reg)
  | .pop rs => m.loadUp .sp rs
  | .blSelectNext => y.selectNext m
  | .tst n imm => { m with z := m.reg n &&& imm == 0 }
  | .vstmdbEq n => if m.z then m.storeDown n (s16s31.map m.s) else m
  | .vldmiaEq n =>
      if m.z then
        { m with
          s := assign m.s s16s31 (loadWords m.mem (m.reg n) s16s31.length)
          reg := Function.update m.reg n (m.reg n + BitVec.ofNat 32 (4 * s16s31.length)) }
      else m
  | .bx _ => m

/-- Execute a list of instructions. -/
def run (y : Symbols) (is : List Instr) (m : Machine) : Machine :=
  is.foldl (fun m i => i.exec y m) m

/-- Instructions run one after the other. -/
theorem run_append (y : Symbols) (is js : List Instr) (m : Machine) :
    run y (is ++ js) m = run y js (run y is m) :=
  List.foldl_append

/-! ## The handlers -/

/-- The ports for the Cortex-M3 (`port.c`), the Cortex-M0 and the Cortex-M4. The port for the Cortex-M7 is
left out: its handler is that of the Cortex-M4, but it saves D16-D31 where this one saves S16-S31. -/
inductive Port
  /-- `src/port/port.c`. -/
  | cortexM3
  /-- `src/port/cortex_m0/port_m0.c`. -/
  | cortexM0
  /-- `src/port/cortex_m4/port_m4.c`. -/
  | cortexM4
  deriving DecidableEq, Repr

/-- `PendSV_Handler` of each port. -/
def Port.pendSvHandler : Port → List Instr
  | .cortexM3 =>
      [.cpsid, .mrsPsp .r0,
        .stmdb .r0 r4r11,
        .ldrCurrentTaskPtr .r1, .ldr .r2 .r1, .str .r0 .r2,
        .push [.r1, .lr], .blSelectNext, .pop [.r1, .lr],
        .ldr .r2 .r1, .ldr .r0 .r2,
        .ldmia .r0 r4r11,
        .msrPsp .r0, .cpsie, .bx .lr]
  | .cortexM0 =>
      [.cpsid, .mrsPsp .r0,
        .mov .r3 .r0, .sub .r3 .r3 32,
        .stmia .r3 r4r7,
        .mov .r4 .r8, .mov .r5 .r9, .mov .r6 .r10, .mov .r7 .r11,
        .stmia .r3 r4r7,
        .sub .r0 .r0 32,
        .ldrCurrentTaskPtr .r1, .ldr .r2 .r1, .str .r0 .r2,
        .push [.r1, .lr], .blSelectNext, .pop [.r1, .lr],
        .ldr .r2 .r1, .ldr .r0 .r2,
        .ldmia .r0 r4r7,
        .mov .r8 .r4, .mov .r9 .r5, .mov .r10 .r6, .mov .r11 .r7,
        .ldmia .r0 r4r7,
        .msrPsp .r0, .cpsie, .bx .lr]
  | .cortexM4 =>
      [.cpsid, .mrsPsp .r0,
        .tst .lr 0x10, .vstmdbEq .r0,
        .stmdb .r0 r4r11,
        .ldrCurrentTaskPtr .r1, .ldr .r2 .r1, .str .r0 .r2,
        .push [.r1, .lr], .blSelectNext, .pop [.r1, .lr],
        .ldr .r2 .r1, .ldr .r0 .r2,
        .ldmia .r0 r4r11,
        .tst .lr 0x10, .vldmiaEq .r0,
        .msrPsp .r0, .cpsie, .bx .lr]

/-- The instructions up to the new process stack pointer in R0. -/
def Port.saves : Port → List Instr
  | .cortexM3 => [.cpsid, .mrsPsp .r0, .stmdb .r0 r4r11]
  | .cortexM0 =>
      [.cpsid, .mrsPsp .r0, .mov .r3 .r0, .sub .r3 .r3 32, .stmia .r3 r4r7,
        .mov .r4 .r8, .mov .r5 .r9, .mov .r6 .r10, .mov .r7 .r11, .stmia .r3 r4r7, .sub .r0 .r0 32]
  | .cortexM4 => [.cpsid, .mrsPsp .r0, .tst .lr 0x10, .vstmdbEq .r0, .stmdb .r0 r4r11]

/-- The store into the control block of the interrupted task, up to the call. -/
def suspends : List Instr :=
  [.ldrCurrentTaskPtr .r1, .ldr .r2 .r1, .str .r0 .r2, .push [.r1, .lr]]

/-- From the call to the load from the control block of the selected task. -/
def resumes : List Instr := [.pop [.r1, .lr], .ldr .r2 .r1, .ldr .r0 .r2]

/-- The instructions from the stack pointer of the selected task in R0 on. -/
def Port.loads : Port → List Instr
  | .cortexM3 => [.ldmia .r0 r4r11, .msrPsp .r0, .cpsie, .bx .lr]
  | .cortexM0 =>
      [.ldmia .r0 r4r7, .mov .r8 .r4, .mov .r9 .r5, .mov .r10 .r6, .mov .r11 .r7, .ldmia .r0 r4r7,
        .msrPsp .r0, .cpsie, .bx .lr]
  | .cortexM4 => [.ldmia .r0 r4r11, .tst .lr 0x10, .vldmiaEq .r0, .msrPsp .r0, .cpsie, .bx .lr]

/-- **The parts of a handler**: it saves, suspends, selects, resumes and loads. -/
theorem Port.pendSvHandler_eq (p : Port) :
    p.pendSvHandler = p.saves ++ (suspends ++ ([.blSelectNext] ++ (resumes ++ p.loads))) := by
  cases p <;> rfl

/-! ## Frames -/

/-- **EXC_RETURN bit 4**, read from R14: clear when the interrupted task has an active FPU context. -/
def Machine.usesFpu (m : Machine) : Bool := m.reg .lr &&& 0x10 == 0

/-- The FPU was in use when bit 4 of EXC_RETURN is clear. -/
theorem Machine.usesFpu_iff {m : Machine} : m.usesFpu = true ↔ m.reg .lr &&& 16#32 = 0#32 :=
  beq_iff_eq

/-- The words that a handler stores for the interrupted task, from the lowest address on. -/
def Port.frame (p : Port) (m : Machine) : List (BitVec 32) :=
  r4r11.map m.reg ++ if p = .cortexM4 ∧ m.usesFpu then s16s31.map m.s else []

/-- Where the frame lies: right below the process stack pointer. -/
def Port.frameBase (p : Port) (m : Machine) : BitVec 32 :=
  m.psp - BitVec.ofNat 32 (4 * (p.frame m).length)

/-- The addresses of the frame. -/
def Port.frameAddrs (p : Port) (m : Machine) : List (BitVec 32) :=
  addrs (p.frameBase m) (p.frame m).length

/-- The words that a handler loads when `f` says whether R14 has bit 4 clear. -/
def Port.loadSize (p : Port) (f : Bool) : Nat := if p = .cortexM4 ∧ f then 24 else 8

/-- A handler loads as many words as it stored, for the same use of the FPU. -/
theorem Port.length_frame (p : Port) (m : Machine) : (p.frame m).length = p.loadSize m.usesFpu := by
  unfold frame loadSize
  split <;> rfl

/-- What the registers of the list `{r4-r11}` get from the first eight words of a frame: on the
Cortex-M0 the last `ldmia` fills R4-R7 with the words of R8-R11, whose own ones came before. -/
def Port.arrange (p : Port) (ws : List (BitVec 32)) : List (BitVec 32) :=
  if p = .cortexM0 then (ws.drop 4).take 4 ++ ws.take 4 else ws.take 8

/-! ## What each part does -/

variable {p : Port} {y : Symbols} {m m' : Machine}

/-- **The context is saved**: the frame lies in memory, and its base is in R0. -/
structure Saved (p : Port) (m m' : Machine) : Prop where
  /-- The frame is all that is stored. -/
  mem : m'.mem = storeWords m.mem (p.frameBase m) (p.frame m)
  /-- The new process stack pointer. -/
  base : m'.reg .r0 = p.frameBase m
  /-- EXC_RETURN stays. -/
  lr : m'.reg .lr = m.reg .lr
  /-- The main stack stays. -/
  sp : m'.reg .sp = m.reg .sp

/-- Without the FPU the frame holds the core registers only. -/
theorem Port.frame_eq_core (h : ¬ (p = .cortexM4 ∧ m.usesFpu = true)) :
    p.frame m = r4r11.map m.reg := by
  rw [frame, if_neg h, List.append_nil]

/-- It then takes 32 bytes. -/
theorem Port.frameBase_eq_core (h : ¬ (p = .cortexM4 ∧ m.usesFpu = true)) :
    p.frameBase m = m.psp - 32 := by
  rw [frameBase, frame_eq_core h]
  rfl

/-- With it, the floating-point registers lie above the core registers. -/
theorem Port.frame_eq_fpu (h : m.usesFpu = true) :
    Port.frame .cortexM4 m = r4r11.map m.reg ++ s16s31.map m.s := by
  rw [frame, if_pos ⟨rfl, h⟩]

/-- **The first part of a handler** saves the context. -/
theorem Port.saves_saved (p : Port) (y : Symbols) (m : Machine) : Saved p m (run y p.saves m) := by
  cases p with
  | cortexM3 =>
      have hcore : ¬ (Port.cortexM3 = .cortexM4 ∧ m.usesFpu = true) := by simp
      have hframe := Port.frame_eq_core hcore
      have hbase := Port.frameBase_eq_core hcore
      constructor
      · rw [hframe, hbase]
        simp [run, Port.saves, Instr.exec, Machine.mem_storeDown, r4r11]
      · rw [hbase]
        simp [run, Port.saves, Instr.exec, r4r11]
      · simp [run, Port.saves, Instr.exec]
      · simp [run, Port.saves, Instr.exec]
  | cortexM0 =>
      have hcore : ¬ (Port.cortexM0 = .cortexM4 ∧ m.usesFpu = true) := by simp
      have hframe := Port.frame_eq_core hcore
      have hbase := Port.frameBase_eq_core hcore
      constructor
      · -- the two halves of the frame, one behind the other
        have happ := storeWords_append m.mem (m.psp - 32) (r4r7.map m.reg)
          ([.r8, .r9, .r10, .r11].map m.reg)
        rw [hframe, hbase]
        refine Eq.trans ?_ happ.symm
        simp [run, Port.saves, Instr.exec, r4r7, Machine.mem_storeUp]
      · rw [hbase]
        simp [run, Port.saves, Instr.exec]
      · simp [run, Port.saves, Instr.exec]
      · simp [run, Port.saves, Instr.exec]
  | cortexM4 =>
      cases hf : m.usesFpu with
      | false =>
          have hz : ¬ (m.reg .lr &&& 16#32 = 0#32) := by
            rw [← Machine.usesFpu_iff, hf]
            exact Bool.false_ne_true
          have hcore : ¬ (Port.cortexM4 = .cortexM4 ∧ m.usesFpu = true) := by simp [hf]
          have hframe := Port.frame_eq_core hcore
          have hbase := Port.frameBase_eq_core hcore
          constructor
          · rw [hframe, hbase]
            simp [run, Port.saves, Instr.exec, hz, Machine.mem_storeDown, r4r11]
          · rw [hbase]
            simp [run, Port.saves, Instr.exec, hz, r4r11]
          · simp [run, Port.saves, Instr.exec, hz]
          · simp [run, Port.saves, Instr.exec, hz]
      | true =>
          have hz : m.reg .lr &&& 16#32 = 0#32 := Machine.usesFpu_iff.mp hf
          have hframe := Port.frame_eq_fpu hf
          have hbase : Port.frameBase .cortexM4 m = m.psp - 96 := by
            rw [Port.frameBase, hframe]
            rfl
          have htop : m.psp - 96#32 + 32#32 = m.psp - 64#32 := by bv_omega
          have hlow : m.psp - 64#32 - 32#32 = m.psp - 96#32 := by bv_omega
          constructor
          · -- S16-S31 are stored before R4-R11, which lie below them
            have happ := storeWords_append_of_le m.mem (m.psp - 96) (r4r11.map m.reg)
              (s16s31.map m.s) (by simp [r4r11, s16s31])
            rw [hframe, hbase, ← happ]
            simp [run, Port.saves, Instr.exec, hz, Machine.mem_storeDown, r4r11, s16s31, htop, hlow]
          · rw [hbase]
            simp [run, Port.saves, Instr.exec, hz, r4r11, s16s31, hlow]
          · simp [run, Port.saves, Instr.exec, hz]
          · simp [run, Port.saves, Instr.exec, hz]

/-- **The interrupted task is suspended**: its stack pointer is in its control block, and what the
handler needs behind the call is on the main stack. -/
structure Suspended (y : Symbols) (m m' : Machine) : Prop where
  /-- One store into a control block, two words on the main stack. -/
  mem : m'.mem = storeWords (Function.update m.mem (m.mem y.currentTaskPtr) (m.reg .r0))
    (m.reg .sp - 8) [y.currentTaskPtr, m.reg .lr]
  /-- The main stack. -/
  sp : m'.reg .sp = m.reg .sp - 8

/-- **The part before the call** suspends the interrupted task. -/
theorem run_suspends (y : Symbols) (m : Machine) : Suspended y m (run y suspends m) := by
  constructor
  · simp [run, suspends, Instr.exec, Machine.mem_storeDown]
  · simp [run, suspends, Instr.exec]

/-- What the handler reads behind the call, when it finds on the main stack what it left there. -/
theorem run_resumes {lr : BitVec 32} (y : Symbols) (m : Machine)
    (h : loadWords m.mem (m.reg .sp) 2 = [y.currentTaskPtr, lr]) :
    (run y resumes m).mem = m.mem ∧ (run y resumes m).reg .lr = lr ∧
      (run y resumes m).reg .r0 = m.mem (m.mem y.currentTaskPtr) := by
  have hpop := m.map_reg_loadUp .sp [.r1, .lr] (by decide)
  rw [List.length_cons, List.length_singleton, h, List.map_cons, List.map_singleton] at hpop
  obtain ⟨hr1, hlr⟩ := List.cons_eq_cons.mp hpop
  refine ⟨rfl, ?_, ?_⟩
  · exact (List.cons_eq_cons.mp hlr).1
  · simp [run, resumes, Instr.exec, hr1]

/-- **A context is loaded** from the frame at the address in R0. -/
structure Loaded (p : Port) (m m' : Machine) : Prop where
  /-- Loading stores nothing. -/
  mem : m'.mem = m.mem
  /-- R4-R11. -/
  regs : r4r11.map m'.reg = p.arrange (loadWords m.mem (m.reg .r0) 8)
  /-- The process stack pointer is behind the words that were loaded. -/
  psp : m'.psp = m.reg .r0 + BitVec.ofNat 32 (4 * p.loadSize m.usesFpu)
  /-- S16-S31, when R14 says so. -/
  fpu : p = .cortexM4 → m.usesFpu = true →
    s16s31.map m'.s = loadWords m.mem (m.reg .r0 + 32) 16

/-- The eight words of a frame in ascending order. -/
theorem Port.arrange_of_ne (h : p ≠ .cortexM0) (mem : BitVec 32 → BitVec 32) (a : BitVec 32) :
    p.arrange (loadWords mem a 8) = loadWords mem a 8 := by
  rw [arrange, if_neg h]
  exact List.take_of_length_le (length_loadWords ..).le

/-- The two halves of a frame, the upper one first. -/
theorem Port.arrange_cortexM0 (mem : BitVec 32 → BitVec 32) (a : BitVec 32) :
    Port.arrange .cortexM0 (loadWords mem a 8) = loadWords mem (a + 16) 4 ++ loadWords mem a 4 := by
  have hsplit : loadWords mem a 8 = loadWords mem a 4 ++ loadWords mem (a + 16) 4 :=
    loadWords_add mem a 4 4
  rw [arrange, if_pos rfl, hsplit, List.drop_left' (length_loadWords ..),
    List.take_left' (length_loadWords ..), List.take_of_length_le (length_loadWords ..).le]

/-- `ldmia r0!, {r4-r11}`. -/
theorem Machine.loadUp_r4r11 (m : Machine) :
    r4r11.map (m.loadUp .r0 r4r11).reg = loadWords m.mem (m.reg .r0) 8 ∧
      (m.loadUp .r0 r4r11).reg .r0 = m.reg .r0 + 32 ∧
      (m.loadUp .r0 r4r11).reg .lr = m.reg .lr := by
  refine ⟨m.map_reg_loadUp .r0 r4r11 (by decide), ?_, ?_⟩
  · exact m.reg_loadUp_of_notMem .r0 .r0 r4r11 (by decide)
  · exact m.reg_loadUp_of_notMem .r0 .lr r4r11 (by decide)

/-- From the `tst` of the Cortex-M4 on: S16-S31 are loaded when R14 says that the FPU is used. -/
theorem run_tst (y : Symbols) (m : Machine) :
    let m' := run y [.tst .lr 0x10, .vldmiaEq .r0, .msrPsp .r0, .cpsie, .bx .lr] m
    m'.mem = m.mem ∧ r4r11.map m'.reg = r4r11.map m.reg ∧
      m'.psp = m.reg .r0 + BitVec.ofNat 32 (if m.usesFpu then 64 else 0) ∧
      (m.usesFpu = true → s16s31.map m'.s = loadWords m.mem (m.reg .r0) 16) := by
  cases hf : m.usesFpu with
  | false =>
      have hz : ¬ (m.reg .lr &&& 16#32 = 0#32) := by
        rw [← Machine.usesFpu_iff, hf]
        exact Bool.false_ne_true
      simp [run, Instr.exec, hz]
  | true =>
      have hz : m.reg .lr &&& 16#32 = 0#32 := Machine.usesFpu_iff.mp hf
      have hassign : s16s31.map (assign m.s s16s31 (loadWords m.mem (m.reg .r0) 16))
          = loadWords m.mem (m.reg .r0) 16 := map_assign (by decide) (by simp [s16s31])
      refine ⟨?_, ?_, ?_, fun _ => ?_⟩
      · simp [run, Instr.exec, hz]
      · simp [run, Instr.exec, hz, r4r11]
      · simp [run, Instr.exec, hz, s16s31]
      · rw [← hassign]
        simp [run, Instr.exec, hz, s16s31]

/-- **The last part of a handler** loads a context. -/
theorem Port.loads_loaded (p : Port) (y : Symbols) (m : Machine) : Loaded p m (run y p.loads m) := by
  cases p with
  | cortexM3 =>
      obtain ⟨hregs, hr0, -⟩ := m.loadUp_r4r11
      constructor
      · rfl
      · rw [Port.arrange_of_ne (by decide)]
        exact hregs
      · exact hr0
      · intro h
        cases h
  | cortexM0 =>
      -- R4-R7 before they move to R8-R11, and the machine in between
      have hlow := m.map_reg_loadUp .r0 r4r7 (by decide)
      have hr0 : (m.loadUp .r0 r4r7).reg .r0 = m.reg .r0 + 16 :=
        m.reg_loadUp_of_notMem .r0 .r0 r4r7 (by decide)
      let q := run y [.mov .r8 .r4, .mov .r9 .r5, .mov .r10 .r6, .mov .r11 .r7] (m.loadUp .r0 r4r7)
      have hq : q.reg .r0 = m.reg .r0 + 16 := by
        rw [← hr0]
        simp [q, run, Instr.exec]
      have hhigh : [Reg.r8, .r9, .r10, .r11].map q.reg = loadWords m.mem (m.reg .r0) 4 := by
        refine Eq.trans ?_ hlow
        simp [q, run, Instr.exec, r4r7]
      have hlast := q.map_reg_loadUp .r0 r4r7 (by decide)
      have hkeep : [Reg.r8, .r9, .r10, .r11].map (q.loadUp .r0 r4r7).reg
          = [Reg.r8, .r9, .r10, .r11].map q.reg := by
        refine List.map_congr_left fun r hr => ?_
        have hne : r ∉ r4r7 ∧ r ≠ .r0 := by
          revert r
          decide
        rw [q.reg_loadUp_of_notMem .r0 r r4r7 hne.1, if_neg hne.2]
      have hpsp : (q.loadUp .r0 r4r7).reg .r0 = q.reg .r0 + 16 :=
        q.reg_loadUp_of_notMem .r0 .r0 r4r7 (by decide)
      constructor
      · rfl
      · rw [Port.arrange_cortexM0, ← hhigh, ← hq, ← hkeep]
        exact congrArg (· ++ _) hlast
      · refine hpsp.trans ?_
        rw [hq, BitVec.add_assoc]
        rfl
      · intro h
        cases h
  | cortexM4 =>
      obtain ⟨hregs, hr0, hlr⟩ := m.loadUp_r4r11
      have hf : (m.loadUp .r0 r4r11).usesFpu = m.usesFpu := by rw [Machine.usesFpu, hlr, Machine.usesFpu]
      obtain ⟨hmem, htail, hpsp, hfpu⟩ := run_tst y (m.loadUp .r0 r4r11)
      constructor
      · exact hmem
      · rw [Port.arrange_of_ne (by decide), ← hregs]
        exact htail
      · refine hpsp.trans ?_
        rw [hr0, hf]
        cases hm : m.usesFpu with
        | false => simp [Port.loadSize]
        | true => simp [Port.loadSize, BitVec.add_assoc]
      · intro _ h
        rw [← hr0]
        exact hfpu (hf.trans h)

end MiniRTOS
