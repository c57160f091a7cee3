import MiniRTOS.Kernel.ContextSwitch

/-! # Exceptions and whole contexts

`PendSV_Handler` moves R4-R11 and the process stack pointer; R0-R3, R12, the link register, the program
counter and xPSR of the interrupted task are stacked and unstacked by the processor. Both together move the
whole context of a task. `Core` is the processor as a task sees it, `Core.enter` and `excReturn` are what an
exception does before its handler starts and when it returns with `bx lr`.

Frames have no FPU part: EXC_RETURN is `0xFFFFFFFD` for every task. -/

namespace MiniRTOS

open WordMemory

/-! ## The processor in thread mode -/

/-- The processor while a task executes: `reg .sp` is the process stack pointer and `reg .lr` the link
register of the task. -/
structure Core where
  /-- R0 to R12, SP and LR. -/
  reg : Reg → BitVec 32
  /-- The address of the next instruction. -/
  pc : BitVec 32
  /-- Flags and execution state. -/
  xpsr : BitVec 32
  /-- S0-S31. -/
  s : Fin 32 → BitVec 32
  /-- The main stack pointer. -/
  msp : BitVec 32
  /-- The mask register. -/
  primask : Bool
  /-- The memory, a word at each address. -/
  mem : BitVec 32 → BitVec 32

/-- Bit 9 of a stacked xPSR: the stack pointer was moved down by a word to align the frame. -/
def alignBit : BitVec 32 := .twoPow 32 9

/-- Bit 2 of a stack pointer: it is not a multiple of 8. -/
def unaligned (sp : BitVec 32) : Bool := sp.getLsbD 2

/-- Where the processor stacks: eight words below the stack pointer, aligned to 8 bytes. -/
def framePtr (sp : BitVec 32) : BitVec 32 := if unaligned sp then sp - 36 else sp - 32

/-- xPSR as it is stacked. -/
def stackedXpsr (sp xpsr : BitVec 32) : BitVec 32 := if unaligned sp then xpsr ||| alignBit else xpsr

/-- The stack pointer after unstacking. -/
def unstackedSp (frame psr : BitVec 32) : BitVec 32 := if psr.getLsbD 9 then frame + 36 else frame + 32

/-- The words that the processor stacks, the lowest address first. -/
def Core.hwFrame (c : Core) : List (BitVec 32) :=
  [.r0, .r1, .r2, .r3, .r12, .lr].map c.reg ++ [c.pc, stackedXpsr (c.reg .sp) c.xpsr]

/-- **Exception entry** from a task: the processor stacks eight words on the process stack, switches to the
main stack and puts EXC_RETURN into the link register. -/
def Core.enter (c : Core) : Machine where
  reg := Function.update (Function.update c.reg .sp c.msp) .lr 0xFFFFFFFD
  s := c.s
  psp := framePtr (c.reg .sp)
  z := c.xpsr.getLsbD 30
  primask := c.primask
  mem := storeWords c.mem (framePtr (c.reg .sp)) c.hwFrame

/-- The registers of the task that an exception returns to, when it finds R4-R11 in `low` and the stacked
words at `frame`. -/
def unstackReg (low : Reg → BitVec 32) (mem : BitVec 32 → BitVec 32) (frame : BitVec 32) :
    Reg → BitVec 32
  | .r0 => mem frame
  | .r1 => mem (frame + 4)
  | .r2 => mem (frame + 8)
  | .r3 => mem (frame + 12)
  | .r12 => mem (frame + 16)
  | .lr => mem (frame + 20)
  | .sp => unstackedSp frame (mem (frame + 28))
  | r => low r

/-- **Exception return** to a task. -/
def excReturn (m : Machine) : Core where
  reg := unstackReg m.reg m.mem m.psp
  pc := m.mem (m.psp + 24) &&& ~~~1
  xpsr := m.mem (m.psp + 28) &&& ~~~alignBit
  s := m.s
  msp := m.reg .sp
  primask := m.primask
  mem := m.mem

/-! ## Contexts -/

/-- **The context of a task**: all sixteen registers, and its stack from the stack pointer on. -/
@[ext]
structure TaskContext where
  /-- R0-R12, the stack pointer and the link register. -/
  reg : Reg → BitVec 32
  /-- Where it goes on. -/
  pc : BitVec 32
  /-- The flags. -/
  xpsr : BitVec 32
  /-- The words in use on the stack, zero elsewhere. -/
  stack : BitVec 32 → BitVec 32

/-- The words of the stack of task `t` from `sp` on. -/
def MemMap.stackOf (M : MemMap) (t sp : BitVec 32) (mem : BitVec 32 → BitVec 32) (a : BitVec 32) :
    BitVec 32 :=
  if M.owner a = .stack t ∧ sp ≤ a then mem a else 0

/-- The context of the task that executes. -/
def Core.view (M : MemMap) (t : BitVec 32) (c : Core) : TaskContext where
  reg := c.reg
  pc := c.pc
  xpsr := c.xpsr
  stack := M.stackOf t (c.reg .sp) c.mem

/-- R4-R11 from the words at `b`. -/
def savedLow (mem : BitVec 32 → BitVec 32) (b : BitVec 32) : Reg → BitVec 32 :=
  assign (fun _ => 0) r4r11 (loadWords mem b 8)

/-- **The context of a task that does not execute**, as its stack has it: R4-R11 at `stack_ptr`, and the
words that the processor stacked above them. -/
def savedContext (M : MemMap) (mem : BitVec 32 → BitVec 32) (t : BitVec 32) : TaskContext where
  reg := unstackReg (savedLow mem (mem t)) mem (mem t + 32)
  pc := mem (mem t + 56) &&& ~~~1
  xpsr := mem (mem t + 60) &&& ~~~alignBit
  stack := M.stackOf t (unstackedSp (mem t + 32) (mem (mem t + 60))) mem

/-- **What a port makes of a context on the way in**: R4-R11 are loaded as `Port.arrange` says. -/
def Port.resume (p : Port) (x : TaskContext) : TaskContext :=
  { x with reg := assign x.reg r4r11 (p.arrange (r4r11.map x.reg)) }

/-- **A context that can be saved**: the task leaves room on its stack for both parts of a frame. -/
structure Placed (M : MemMap) (t : BitVec 32) (x : TaskContext) : Prop where
  /-- The frame does not wrap around. -/
  low : 68 ≤ (x.reg .sp).toNat
  /-- The frame lies on the stack of the task. -/
  room : ∀ a ∈ addrs (framePtr (x.reg .sp) - 32) 16, M.owner a = .stack t
  /-- Instructions have even addresses. -/
  pc : x.pc &&& ~~~1 = x.pc
  /-- Bit 9 of xPSR is reserved while a task executes. -/
  xpsr : x.xpsr.getLsbD 9 = false

variable {p : Port} {M : MemMap} {sel : SelectNext M} {c : Core} {m : Machine} {t u a : BitVec 32}
  {mem mem' : BitVec 32 → BitVec 32} {x : TaskContext}

/-! ### The frame -/

/-- What is stacked for the alignment is undone. -/
theorem unstackedSp_framePtr {sp xpsr : BitVec 32} (h : xpsr.getLsbD 9 = false) :
    unstackedSp (framePtr sp) (stackedXpsr sp xpsr) = sp := by
  unfold unstackedSp framePtr stackedXpsr
  cases unaligned sp with
  | false =>
      rw [if_neg Bool.false_ne_true, if_neg Bool.false_ne_true, h, if_neg Bool.false_ne_true]
      bv_omega
  | true =>
      have hbit : (xpsr ||| alignBit).getLsbD 9 = true := by
        rw [BitVec.getLsbD_or, h, alignBit, BitVec.getLsbD_twoPow]
        rfl
      rw [if_pos rfl, if_pos rfl, hbit, if_pos rfl]
      bv_omega

/-- The alignment bit of the stacked xPSR is the only one that changes. -/
theorem stackedXpsr_clear {sp xpsr : BitVec 32} (h : xpsr.getLsbD 9 = false) :
    stackedXpsr sp xpsr &&& ~~~alignBit = xpsr := by
  refine BitVec.eq_of_getLsbD_eq fun i hi => ?_
  have htwo : alignBit.getLsbD i = decide (9 = i) := by
    rw [alignBit, BitVec.getLsbD_twoPow]
    rfl
  rw [BitVec.getLsbD_and, BitVec.getLsbD_not, htwo, decide_eq_true hi, Bool.true_and, stackedXpsr]
  by_cases h9 : 9 = i
  · rw [decide_eq_true h9, Bool.not_true, Bool.and_false, ← h9, h]
  · rw [decide_eq_false h9, Bool.not_false, Bool.and_true]
    cases unaligned sp with
    | false => rfl
    | true => rw [if_pos rfl, BitVec.getLsbD_or, htwo, decide_eq_false h9, Bool.or_false]

/-- The frame lies below the stack pointer. -/
theorem toNat_framePtr {sp : BitVec 32} (h : 68 ≤ sp.toNat) :
    (framePtr sp - 32).toNat + 64 ≤ sp.toNat ∧ (framePtr sp - 32).toNat + 68 ≥ sp.toNat := by
  unfold framePtr
  split <;> constructor <;> bv_omega

/-- No word that is in use lies in the frame. -/
theorem not_mem_frame {sp : BitVec 32} (h : 68 ≤ sp.toNat) (ha : sp ≤ a) :
    a ∉ addrs (framePtr sp - 32) 16 := by
  intro hmem
  obtain ⟨hlow, -⟩ := toNat_framePtr h
  have hsp := sp.isLt
  have hlt := (toNat_of_mem_addrs (by omega) hmem).2
  have hle : sp.toNat ≤ a.toNat := ha
  omega

/-- The frame of the processor is the upper half. -/
theorem mem_frame_of_hw {sp : BitVec 32} (h : a ∈ addrs (framePtr sp) 8) :
    a ∈ addrs (framePtr sp - 32) 16 := by
  rw [show (16 : Nat) = 8 + 8 from rfl, addrs_add]
  refine List.mem_append_right _ ?_
  rwa [show framePtr sp - 32 + BitVec.ofNat 32 (4 * 8) = framePtr sp by bv_omega]

/-- The frame of the handler is the lower half. -/
theorem mem_frame_of_sw {sp : BitVec 32} (h : a ∈ addrs (framePtr sp - 32) 8) :
    a ∈ addrs (framePtr sp - 32) 16 := by
  rw [show (16 : Nat) = 8 + 8 from rfl, addrs_add]
  exact List.mem_append_left _ h

/-- The two frames are disjoint. -/
theorem not_mem_sw_of_hw {sp : BitVec 32} (h : a ∈ addrs (framePtr sp) 8) :
    a ∉ addrs (framePtr sp - 32) 8 := by
  have hnd := nodup_addrs (framePtr sp - 32) (n := 8 + 8) (by decide)
  rw [addrs_add, show framePtr sp - 32 + BitVec.ofNat 32 (4 * 8) = framePtr sp by bv_omega] at hnd
  intro hsw
  exact (List.disjoint_of_nodup_append hnd) hsw h

/-! ### Entry -/

/-- Eight words, one by one. -/
theorem loadWords_eight (mem : BitVec 32 → BitVec 32) (b : BitVec 32) :
    loadWords mem b 8 = [mem b, mem (b + 4), mem (b + 8), mem (b + 12), mem (b + 16), mem (b + 20),
      mem (b + 24), mem (b + 28)] := by
  simp [loadWords, addrs, BitVec.add_assoc]

/-- EXC_RETURN says that there is no FPU part. -/
theorem Core.usesFpu_enter (c : Core) : c.enter.usesFpu = false := by
  have hlr : c.enter.reg .lr = 0xFFFFFFFD :=
    Function.update_self Reg.lr _ (Function.update c.reg .sp c.msp)
  rw [Machine.usesFpu, hlr]
  rfl

/-- The frame of the interrupted processor holds R4-R11. -/
theorem Core.frame_enter (p : Port) (c : Core) : p.frame c.enter = r4r11.map c.reg := by
  rw [Port.frame_eq_core (by simp [usesFpu_enter])]
  rfl

/-- It lies right below the frame of the hardware. -/
theorem Core.frameBase_enter (p : Port) (c : Core) :
    p.frameBase c.enter = framePtr (c.reg .sp) - 32 :=
  Port.frameBase_eq_core (by simp [usesFpu_enter])

/-- It takes eight words. -/
theorem Core.frameAddrs_enter (p : Port) (c : Core) :
    p.frameAddrs c.enter = addrs (framePtr (c.reg .sp) - 32) 8 := by
  rw [Port.frameAddrs, frameBase_enter, frame_enter]
  rfl

/-- Entry writes into the frame only. -/
theorem Core.mem_enter (h : a ∉ addrs (framePtr (c.reg .sp)) 8) : c.enter.mem a = c.mem a :=
  storeWords_of_notMem h

/-- The words above it are those that the hardware stored. -/
theorem Core.load_enter (c : Core) : loadWords c.enter.mem (framePtr (c.reg .sp)) 8 = c.hwFrame :=
  loadWords_storeWords (by simp [hwFrame])

/-- **An exception interrupts the current task**, with room for the frames on its stack. -/
theorem Placed.interrupted (h : Placed M t (c.view M t)) (hcur : c.mem M.currentTaskPtr = t)
    (ht : M.owner t = .stackPtr t) (hmain : ∀ a ∈ addrs (c.msp - 8) 2, M.owner a = .mainStack)
    (hmsp : 8 ≤ c.msp.toNat) : Interrupted p M t c.enter where
  current := by
    rw [Core.mem_enter fun hmem => ?_, hcur]
    have howner := h.room _ (mem_frame_of_hw hmem)
    rw [M.owner_currentTaskPtr] at howner
    cases howner
  task := ht
  frame a ha := h.room a (mem_frame_of_sw (Core.frameAddrs_enter p c ▸ ha))
  main := hmain
  sp := hmsp

/-! ### Unstacking -/

/-- The last two words of a stacked frame. -/
theorem Core.hwFrame_words (h : loadWords mem (framePtr (c.reg .sp)) 8 = c.hwFrame) :
    mem (framePtr (c.reg .sp) + 24) = c.pc ∧
      mem (framePtr (c.reg .sp) + 28) = stackedXpsr (c.reg .sp) c.xpsr := by
  rw [loadWords_eight] at h
  simp only [hwFrame, List.map_cons, List.map_nil, List.cons_append, List.nil_append,
    List.cons.injEq] at h
  exact ⟨h.2.2.2.2.2.2.1, h.2.2.2.2.2.2.2.1⟩

/-- **The registers come back** from a stacked frame. -/
theorem Core.unstackReg_hwFrame {low : Reg → BitVec 32}
    (h : loadWords mem (framePtr (c.reg .sp)) 8 = c.hwFrame) (hx : c.xpsr.getLsbD 9 = false)
    (hlow : r4r11.map low = r4r11.map c.reg) :
    unstackReg low mem (framePtr (c.reg .sp)) = c.reg := by
  obtain ⟨-, hpsr⟩ := hwFrame_words h
  have hlow : ∀ r ∈ r4r11, low r = c.reg r := List.map_inj_left.mp hlow
  rw [loadWords_eight] at h
  simp only [hwFrame, List.map_cons, List.map_nil, List.cons_append, List.nil_append,
    List.cons.injEq] at h
  obtain ⟨h0, h1, h2, h3, h12, hlr, -⟩ := h
  funext r
  cases r with
  | r0 => exact h0
  | r1 => exact h1
  | r2 => exact h2
  | r3 => exact h3
  | r12 => exact h12
  | lr => exact hlr
  | sp =>
      rw [unstackReg, hpsr]
      exact unstackedSp_framePtr hx
  | r4 => exact hlow .r4 (by decide)
  | r5 => exact hlow .r5 (by decide)
  | r6 => exact hlow .r6 (by decide)
  | r7 => exact hlow .r7 (by decide)
  | r8 => exact hlow .r8 (by decide)
  | r9 => exact hlow .r9 (by decide)
  | r10 => exact hlow .r10 (by decide)
  | r11 => exact hlow .r11 (by decide)

/-- The words in use are the same in memories that agree on them. -/
theorem MemMap.stackOf_congr {sp : BitVec 32}
    (h : ∀ a, M.owner a = .stack t → sp ≤ a → mem' a = mem a) :
    M.stackOf t sp mem' = M.stackOf t sp mem := by
  funext a
  unfold stackOf
  split
  · next ha => exact h a ha.1 ha.2
  · rfl

/-- **Return to the same task**: an exception whose handler keeps R4-R11, the stack pointers and the stack
of the task gives the task its context back. -/
theorem Placed.excReturn (h : Placed M t (c.view M t)) (hpsp : m.psp = framePtr (c.reg .sp))
    (hlow : r4r11.map m.reg = r4r11.map c.reg)
    (hmem : ∀ a, M.owner a = .stack t → m.mem a = c.enter.mem a) :
    (excReturn m).view M t = c.view M t := by
  have hframe : loadWords m.mem (framePtr (c.reg .sp)) 8 = c.hwFrame := by
    rw [← c.load_enter]
    exact loadWords_congr fun a ha => hmem a (h.room a (mem_frame_of_hw ha))
  obtain ⟨hpc, hpsr⟩ := Core.hwFrame_words hframe
  have hreg : (MiniRTOS.excReturn m).reg = c.reg := by
    rw [MiniRTOS.excReturn, hpsp]
    exact Core.unstackReg_hwFrame hframe h.xpsr hlow
  refine TaskContext.ext hreg ?_ ?_ ?_
  · show m.mem (m.psp + 24) &&& ~~~1 = c.pc
    rw [hpsp, hpc]
    exact h.pc
  · show m.mem (m.psp + 28) &&& ~~~alignBit = c.xpsr
    rw [hpsp, hpsr]
    exact stackedXpsr_clear h.xpsr
  · show M.stackOf t ((MiniRTOS.excReturn m).reg .sp) m.mem = _
    rw [hreg]
    refine M.stackOf_congr fun a ha hle => ?_
    rw [hmem a ha]
    exact Core.mem_enter fun hin => not_mem_frame h.low hle (mem_frame_of_hw hin)

/-! ### Contexts on stacks -/

/-- R4-R11 as they were saved. -/
theorem map_savedLow (mem : BitVec 32 → BitVec 32) (b : BitVec 32) :
    r4r11.map (savedLow mem b) = loadWords mem b 8 :=
  map_assign (by decide) (length_loadWords ..).symm

/-- **The frame holds the context** that the task had when it was switched out. -/
theorem Placed.savedContext (h : Placed M t (c.view M t))
    (hbase : mem t = framePtr (c.reg .sp) - 32)
    (hsw : loadWords mem (framePtr (c.reg .sp) - 32) 8 = r4r11.map c.reg)
    (hhw : loadWords mem (framePtr (c.reg .sp)) 8 = c.hwFrame)
    (hmem : ∀ a, M.owner a = .stack t → c.reg .sp ≤ a → mem a = c.mem a) :
    savedContext M mem t = c.view M t := by
  have hframe : mem t + 32 = framePtr (c.reg .sp) := by
    rw [hbase]
    bv_omega
  have hoff : ∀ k : BitVec 32, mem t + (32 + k) = framePtr (c.reg .sp) + k := fun k => by
    rw [← BitVec.add_assoc, hframe]
  obtain ⟨hpc, hpsr⟩ := Core.hwFrame_words hhw
  have hpc' : mem (mem t + 56) = c.pc := (congrArg mem (hoff 24)).trans hpc
  have hpsr' : mem (mem t + 60) = stackedXpsr (c.reg .sp) c.xpsr := (congrArg mem (hoff 28)).trans hpsr
  refine TaskContext.ext ?_ ?_ ?_ ?_
  · show unstackReg (savedLow mem (mem t)) mem (mem t + 32) = c.reg
    rw [hframe, Core.unstackReg_hwFrame hhw h.xpsr]
    rw [map_savedLow, hbase, hsw]
  · show mem (mem t + 56) &&& ~~~1 = c.pc
    rw [hpc']
    exact h.pc
  · show mem (mem t + 60) &&& ~~~alignBit = c.xpsr
    rw [hpsr']
    exact stackedXpsr_clear h.xpsr
  · show M.stackOf t (unstackedSp (mem t + 32) (mem (mem t + 60))) mem = _
    have hsp : unstackedSp (framePtr (c.reg .sp)) (stackedXpsr (c.reg .sp) c.xpsr) = c.reg .sp :=
      unstackedSp_framePtr h.xpsr
    rw [hframe, hpsr', hsp]
    exact M.stackOf_congr hmem

/-- The registers of a saved context, when R4-R11 are loaded as the port loads them. -/
theorem Port.unstackReg_resume {low : Reg → BitVec 32} (M : MemMap)
    (hlow : r4r11.map low = p.arrange (loadWords mem (mem t) 8)) :
    unstackReg low mem (mem t + 32) = (p.resume (savedContext M mem t)).reg := by
  have hold : r4r11.map (savedContext M mem t).reg = loadWords mem (mem t) 8 := map_savedLow mem (mem t)
  have hlen : r4r11.length = (p.arrange (loadWords mem (mem t) 8)).length := by
    rw [← hlow, List.length_map]
  funext r
  show _ = assign (savedContext M mem t).reg r4r11 (p.arrange (r4r11.map (savedContext M mem t).reg)) r
  rw [hold]
  by_cases hr : r ∈ r4r11
  · have hnew : ∀ q ∈ r4r11, assign (savedContext M mem t).reg r4r11
        (p.arrange (loadWords mem (mem t) 8)) q = low q :=
      List.map_inj_left.mp ((map_assign (by decide) hlen).trans hlow.symm)
    rw [hnew r hr]
    cases r <;> first | rfl | exact absurd hr (by decide)
  · rw [assign_of_notMem hr]
    cases r <;> first | rfl | exact absurd (by decide) hr

/-- **Return to another task**: what its stack holds, with R4-R11 as the port loads them. -/
theorem excReturn_savedContext (hpsp : m.psp = m.mem t + 32)
    (hlow : r4r11.map m.reg = p.arrange (loadWords m.mem (m.mem t) 8)) :
    (excReturn m).view M t = p.resume (savedContext M m.mem t) := by
  have hoff : ∀ k : BitVec 32, m.psp + k = m.mem t + (32 + k) := fun k => by
    rw [hpsp, BitVec.add_assoc]
  have hpsr : m.mem (m.psp + 28) = m.mem (m.mem t + 60) := congrArg m.mem (hoff 28)
  refine TaskContext.ext ?_ ?_ ?_ ?_
  · show unstackReg m.reg m.mem m.psp = _
    rw [hpsp]
    exact Port.unstackReg_resume M hlow
  · exact congrArg (m.mem · &&& ~~~1) (hoff 24)
  · exact congrArg (· &&& ~~~alignBit) hpsr
  · show M.stackOf t (unstackedSp m.psp (m.mem (m.psp + 28))) m.mem = _
    rw [hpsr, hpsp]
    rfl

/-- The Cortex-M3 and the Cortex-M4 resume a task as it was. -/
theorem Port.resume_of_ne (hp : p ≠ .cortexM0) (x : TaskContext) : p.resume x = x := by
  have hsame : ∀ r, assign x.reg r4r11 (r4r11.map x.reg) r = x.reg r := fun r => by
    by_cases hr : r ∈ r4r11
    · have hmap : r4r11.map (assign x.reg r4r11 (r4r11.map x.reg)) = r4r11.map x.reg :=
        map_assign (by decide) (List.length_map _).symm
      exact List.map_inj_left.mp hmap r hr
    · exact assign_of_notMem hr
  have harr : p.arrange (r4r11.map x.reg) = r4r11.map x.reg := by
    rw [Port.arrange, if_neg hp]
    exact List.take_of_length_le (List.length_map _).le
  rw [Port.resume, harr]
  exact TaskContext.ext (funext hsame) rfl rfl rfl

/-- **A saved context**: its task left room for the frame, which lies where `stack_ptr` points. -/
structure WellSaved (M : MemMap) (mem : BitVec 32 → BitVec 32) (t : BitVec 32) : Prop where
  /-- There was room for the frame. -/
  placed : Placed M t (savedContext M mem t)
  /-- `stack_ptr` points to its lower half. -/
  base : mem t = framePtr ((savedContext M mem t).reg .sp) - 32

/-- **Frame**: a saved context is the same in a memory that keeps the words of its task. -/
theorem WellSaved.congr (h : WellSaved M mem t) (ht : M.owner t = .stackPtr t)
    (hkeep : ∀ a, M.Holds t a → mem' a = mem a) :
    savedContext M mem' t = savedContext M mem t ∧ WellSaved M mem' t := by
  have hbase : mem' t = mem t := hkeep t (Or.inr ht)
  have hframe : ∀ i < 16,
      mem' (mem t + BitVec.ofNat 32 (4 * i)) = mem (mem t + BitVec.ofNat 32 (4 * i)) := by
    intro i hi
    refine hkeep _ (Or.inl (h.placed.room _ ?_))
    rw [← h.base]
    exact mem_addrs.mpr ⟨i, hi, rfl⟩
  have hlow : savedLow mem' (mem t) = savedLow mem (mem t) := by
    have hload : loadWords mem' (mem t) 8 = loadWords mem (mem t) 8 := by
      refine loadWords_congr fun a ha => ?_
      obtain ⟨i, hi, rfl⟩ := mem_addrs.mp ha
      exact hframe i (by omega)
    rw [savedLow, hload, savedLow]
  have hword : ∀ k : Nat, k < 8 → mem' (mem t + 32 + BitVec.ofNat 32 (4 * k))
      = mem (mem t + 32 + BitVec.ofNat 32 (4 * k)) := by
    intro k hk
    have hoff : mem t + 32 + BitVec.ofNat 32 (4 * k) = mem t + BitVec.ofNat 32 (4 * (8 + k)) := by
      rw [BitVec.add_assoc, Nat.mul_add, BitVec.ofNat_add]
      rfl
    rw [hoff]
    exact hframe (8 + k) (by omega)
  have hreg : unstackReg (savedLow mem (mem t)) mem' (mem t + 32)
      = unstackReg (savedLow mem (mem t)) mem (mem t + 32) := by
    funext r
    cases r with
    | r0 => exact hframe 8 (by decide)
    | r1 => exact hword 1 (by decide)
    | r2 => exact hword 2 (by decide)
    | r3 => exact hword 3 (by decide)
    | r12 => exact hword 4 (by decide)
    | lr => exact hword 5 (by decide)
    | sp => exact congrArg (unstackedSp (mem t + 32)) (hword 7 (by decide))
    | _ => rfl
  have hpsr : mem' (mem t + 60) = mem (mem t + 60) := hframe 15 (by decide)
  have heq : savedContext M mem' t = savedContext M mem t := by
    refine TaskContext.ext ?_ ?_ ?_ ?_
    · show unstackReg (savedLow mem' (mem' t)) mem' (mem' t + 32) = _
      rw [hbase, hlow, hreg]
      rfl
    · show mem' (mem' t + 56) &&& ~~~1 = mem (mem t + 56) &&& ~~~1
      rw [hbase, show mem' (mem t + 56) = mem (mem t + 56) from hframe 14 (by decide)]
    · show mem' (mem' t + 60) &&& ~~~alignBit = mem (mem t + 60) &&& ~~~alignBit
      rw [hbase, hpsr]
    · show M.stackOf t (unstackedSp (mem' t + 32) (mem' (mem' t + 60))) mem' = _
      rw [hbase, hpsr]
      exact M.stackOf_congr fun a ha _ => hkeep a (Or.inl ha)
  refine ⟨heq, ?_, ?_⟩
  · rw [heq]
    exact h.placed
  · rw [heq, hbase]
    exact h.base

end MiniRTOS
