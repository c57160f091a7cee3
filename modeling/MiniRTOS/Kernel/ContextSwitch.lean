import MiniRTOS.Kernel.PendSv
import MiniRTOS.Kernel.Context

/-! # The round trip of a context

A task that is switched out finds its registers again when it is switched back in, if `PendSV_Handler`
loads what it stored. The two halves run for different tasks: the Cortex-M4 asks R14 whether to load
S16-S31, and R14 is the EXC_RETURN of the task that is switched out then; the Cortex-M0 loads R4-R7 and
R8-R11 from each other's half of the frame. -/

namespace MiniRTOS

open Runs WordMemory

/-! ## Memory that belongs to somebody -/

/-- What a word of the memory is part of. -/
inductive Owner
  /-- The variable `current_task_ptr`. -/
  | currentTaskPtr
  /-- The field `stack_ptr`, the first one, of the control block at this address. -/
  | stackPtr (t : BitVec 32)
  /-- The stack of the task with the control block at this address. -/
  | stack (t : BitVec 32)
  /-- The main stack. -/
  | mainStack
  /-- Everything else: the other variables and fields of the kernel, the data of the tasks. -/
  | other
  deriving DecidableEq

/-- A memory map: every word belongs to one owner. -/
structure MemMap where
  /-- Who owns the word at each address. -/
  owner : BitVec 32 → Owner
  /-- The address of `current_task_ptr`. -/
  currentTaskPtr : BitVec 32
  /-- The word of `current_task_ptr` is its own. -/
  owner_currentTaskPtr : owner currentTaskPtr = .currentTaskPtr

/-- The words that hold the context of a task while it is switched out: its stack and `stack_ptr`. -/
def MemMap.Holds (M : MemMap) (t a : BitVec 32) : Prop :=
  M.owner a = .stack t ∨ M.owner a = .stackPtr t

/-- **What `os_sched_select_next` is allowed to do**: anything that a function may do which uses the main
stack below the caller's part and writes into no task's stack and no `stack_ptr`. -/
structure SelectNext (M : MemMap) where
  /-- What it does to the machine. -/
  run : Machine → Machine
  /-- The main stack pointer is the caller's again. -/
  sp : ∀ m, (run m).reg .sp = m.reg .sp
  /-- What the caller has on the main stack stays. -/
  caller : ∀ m a, M.owner a = .mainStack → m.reg .sp ≤ a → (run m).mem a = m.mem a
  /-- The contexts of the tasks stay. -/
  tasks : ∀ m t a, M.Holds t a → (run m).mem a = m.mem a

/-- `PendSV_Handler` of a port with this selection. -/
def Port.pendSv (p : Port) {M : MemMap} (sel : SelectNext M) (m : Machine) : Machine :=
  MiniRTOS.run ⟨M.currentTaskPtr, sel.run⟩ p.pendSvHandler m

/-- **The handler interrupts the current task** `t`, with room for the frame on the stack of the task and
for two words on the main stack. -/
structure Interrupted (p : Port) (M : MemMap) (t : BitVec 32) (m : Machine) : Prop where
  /-- It is the current one. -/
  current : m.mem M.currentTaskPtr = t
  /-- Its first word is `stack_ptr`. -/
  task : M.owner t = .stackPtr t
  /-- Its stack has room for the frame. -/
  frame : ∀ a ∈ p.frameAddrs m, M.owner a = .stack t
  /-- The main stack has room for two words. -/
  main : ∀ a ∈ addrs (m.reg .sp - 8) 2, M.owner a = .mainStack
  /-- They do not wrap around. -/
  sp : 8 ≤ (m.reg .sp).toNat

variable {p : Port} {M : MemMap} {sel out back : SelectNext M} {m m' : Machine} {t u a : BitVec 32}

/-! ## One switch -/

/-- **A switch** from task `t` to the one that is current afterwards. -/
structure SwitchedOut (p : Port) (M : MemMap) (t : BitVec 32) (m m' : Machine) : Prop where
  /-- The control block of `t` has its new stack pointer. -/
  stored : m'.mem t = p.frameBase m
  /-- The frame is on the stack of `t`. -/
  frame : loadWords m'.mem (p.frameBase m) (p.frame m).length = p.frame m
  /-- The contexts of all other tasks stay. -/
  others : ∀ u, u ≠ t → ∀ a, M.Holds u a → m'.mem a = m.mem a
  /-- R4-R11 come from the frame of the task that is current now. -/
  regs : r4r11.map m'.reg = p.arrange (loadWords m'.mem (m'.mem (m'.mem M.currentTaskPtr)) 8)
  /-- The process stack pointer is behind that frame, if R14 tells its size. -/
  psp : m'.psp = m'.mem (m'.mem M.currentTaskPtr) + BitVec.ofNat 32 (4 * p.loadSize m.usesFpu)
  /-- S16-S31, if R14 says so. -/
  fpu : p = .cortexM4 → m.usesFpu = true →
    s16s31.map m'.s = loadWords m'.mem (m'.mem (m'.mem M.currentTaskPtr) + 32) 16

/-- The selection is the last that writes into the memory. -/
theorem Port.mem_pendSv (p : Port) (sel : SelectNext M) (m : Machine) :
    ∃ q, (p.pendSv sel m).mem = (sel.run q).mem := by
  rw [Port.pendSv, Port.pendSvHandler_eq, run_append, run_append, run_append, run_append]
  exact ⟨_, (p.loads_loaded _ _).mem⟩

/-- The selection of task `n` and nothing else. -/
def SelectNext.pick (M : MemMap) (n : BitVec 32) : SelectNext M where
  run m := { m with mem := Function.update m.mem M.currentTaskPtr n }
  sp _ := rfl
  caller m a ha _ := by
    refine Function.update_of_ne ?_ _ _
    rintro rfl
    rw [M.owner_currentTaskPtr] at ha
    cases ha
  tasks m t a ha := by
    refine Function.update_of_ne ?_ _ _
    rintro rfl
    rcases ha with ha | ha <;> rw [M.owner_currentTaskPtr] at ha <;> cases ha

/-- The task that was picked is the current one. -/
theorem Port.pendSv_pick (p : Port) (M : MemMap) (n : BitVec 32) (m : Machine) :
    (p.pendSv (.pick M n) m).mem M.currentTaskPtr = n := by
  obtain ⟨q, hq⟩ := p.mem_pendSv (.pick M n) m
  rw [hq]
  exact Function.update_self ..

/-- Two words are never of two owners. -/
theorem MemMap.Holds.ne {b : BitVec 32} (h : M.Holds t a)
    (hb : M.owner b = .currentTaskPtr ∨ M.owner b = .mainStack) : a ≠ b := by
  rintro rfl
  rcases h with h | h <;> rcases hb with hb | hb <;> rw [h] at hb <;> cases hb

/-- **What a handler does** to the task that it interrupts. -/
theorem Interrupted.pendSv (h : Interrupted p M t m) (sel : SelectNext M) :
    SwitchedOut p M t m (p.pendSv sel m) := by
  let y : Symbols := ⟨M.currentTaskPtr, sel.run⟩
  let m₁ := run y p.saves m
  let m₂ := run y suspends m₁
  let m₃ := sel.run m₂
  let m₄ := run y resumes m₃
  have hsaved : Saved p m m₁ := p.saves_saved y m
  have hsusp : Suspended y m₁ m₂ := run_suspends y m₁
  have hrun : p.pendSv sel m = run y p.loads m₄ := by
    rw [Port.pendSv, Port.pendSvHandler_eq, run_append, run_append, run_append, run_append]
    rfl
  have hcur : m₁.mem M.currentTaskPtr = t := by
    rw [hsaved.mem, storeWords_of_notMem, h.current]
    intro hmem
    have howner := h.frame _ hmem
    rw [M.owner_currentTaskPtr] at howner
    cases howner
  -- the words on the main stack survive the call
  have hsp₃ : m₃.reg .sp = m.reg .sp - 8 := by rw [sel.sp, hsusp.sp, hsaved.sp]
  have hpush : loadWords m₃.mem (m₃.reg .sp) 2 = [y.currentTaskPtr, m.reg .lr] := by
    have hkeep : loadWords m₃.mem (m.reg .sp - 8) 2 = loadWords m₂.mem (m.reg .sp - 8) 2 := by
      refine loadWords_congr fun a ha => sel.caller m₂ a (h.main a ha) ?_
      obtain ⟨i, hi, rfl⟩ := mem_addrs.mp ha
      have hsp := h.sp
      rw [hsusp.sp, hsaved.sp]
      obtain rfl | rfl : i = 0 ∨ i = 1 := by omega
      all_goals bv_omega
    rw [hsp₃, hkeep, hsusp.mem, hsaved.sp, hsaved.lr]
    exact loadWords_storeWords (by simp)
  obtain ⟨hmem₄, hlr₄, hr0₄⟩ := run_resumes y m₃ hpush
  have hload : Loaded p m₄ (run y p.loads m₄) := p.loads_loaded y m₄
  rw [hrun]
  have hmem : (run y p.loads m₄).mem = m₃.mem := hload.mem.trans hmem₄
  have hfpu : m₄.usesFpu = m.usesFpu := by rw [Machine.usesFpu, hlr₄, Machine.usesFpu]
  -- what a word of a task's context is after the call
  have hword : ∀ u a, M.Holds u a →
      m₃.mem a = if a = t then p.frameBase m else storeWords m.mem (p.frameBase m) (p.frame m) a := by
    intro u a ha
    have hnot : a ∉ addrs (m.reg .sp - 8) 2 := fun hmem => ha.ne (Or.inr (h.main a hmem)) rfl
    rw [sel.tasks m₂ u a ha, hsusp.mem, hsaved.sp, storeWords_of_notMem hnot, hcur, hsaved.base,
      Function.update_apply, hsaved.mem]
  have hframe : ∀ a ∈ p.frameAddrs m, a ≠ t := by
    rintro a ha rfl
    have howner := h.frame a ha
    rw [h.task] at howner
    cases howner
  constructor
  · rw [hmem, hword t t (Or.inr h.task), if_pos rfl]
  · rw [hmem]
    have hback : loadWords (storeWords m.mem (p.frameBase m) (p.frame m)) (p.frameBase m)
        (p.frame m).length = p.frame m := by
      refine loadWords_storeWords ?_
      rw [p.length_frame, Port.loadSize]
      split <;> decide
    refine Eq.trans (loadWords_congr fun a ha => ?_) hback
    rw [hword t a (Or.inl (h.frame a ha)), if_neg (hframe a ha)]
  · intro u hu a ha
    have hat : a ≠ t := by
      rintro rfl
      rcases ha with ha | ha
      · rw [h.task] at ha
        cases ha
      · rw [h.task] at ha
        exact hu (Owner.stackPtr.inj ha).symm
    have hnot : a ∉ p.frameAddrs m := by
      intro hmem
      have howner := h.frame a hmem
      rcases ha with ha | ha
      · rw [ha] at howner
        exact hu (Owner.stack.inj howner)
      · rw [ha] at howner
        cases howner
    rw [hmem, hword u a ha, if_neg hat, storeWords_of_notMem hnot]
  · rw [hload.regs, hr0₄, hmem, hmem₄]
  · rw [hload.psp, hr0₄, hmem, hfpu]
  · intro hp hf
    rw [hload.fpu hp (hfpu.trans hf), hr0₄, hmem, hmem₄]

/-! ## The switch of the kernel model

`MiniRTOS.pendSvHandler` switches the kernel model without looking at registers: it takes the stack
pointer down by the eight words of R4-R11 and up again. -/

/-- **The machine represents the CPU of the model**: the process stack pointer, `current_task_ptr` and the
saved stack pointers. -/
structure Represents (M : MemMap) (m : Machine) (c : Cpu) : Prop where
  /-- The process stack pointer is the one in use. -/
  psp : m.psp.toNat = c.psp
  /-- The word of `current_task_ptr` is the current task. -/
  current : ∀ n ∈ c.sys.kernel.current, m.mem M.currentTaskPtr = BitVec.ofNat 32 n
  /-- The control block of every live task is in the memory, and owns its `stack_ptr`. -/
  live : ∀ n ∈ c.sys.kernel.liveTcbs,
    n < 2 ^ 32 ∧ M.owner (BitVec.ofNat 32 n) = .stackPtr (BitVec.ofNat 32 n)
  /-- `stack_ptr` is that of the model. -/
  sps : ∀ n ∈ c.sys.kernel.liveTcbs,
    (m.mem (BitVec.ofNat 32 n)).toNat = (c.sys.kernel.tcb n).stackPtr

/-- A frame without FPU registers starts where `stmdb` of the model takes the stack pointer. -/
theorem Port.toNat_frameBase (h : ¬ (p = .cortexM4 ∧ m.usesFpu = true)) :
    (p.frameBase m).toNat = stmdb m.psp.toNat := by
  rw [frameBase_eq_core h, BitVec.toNat_sub, stmdb, Nat.add_comm]
  rfl

/-- **The handlers refine the switch of the model** for tasks without FPU registers, when
`os_sched_select_next` selects the task that the model selects. -/
theorem Represents.pendSv {c c' : Cpu} {n : TaskId} (h : Represents M m c)
    (hcur : c.sys.kernel.current = some n) (hn : n ∈ c.sys.kernel.liveTcbs)
    (hi : Interrupted p M (BitVec.ofNat 32 n) m) (hfpu : ¬ (p = .cortexM4 ∧ m.usesFpu = true))
    (hc : pendSvHandler c = some c') (hrun : c'.running ∈ c'.sys.kernel.liveTcbs)
    (hsel : (p.pendSv sel m).mem M.currentTaskPtr = BitVec.ofNat 32 c'.running) :
    Represents M (p.pendSv sel m) c' := by
  unfold pendSvHandler at hc
  obtain ⟨cur, hcur', hc⟩ := Option.bind_eq_some_iff.mp hc
  obtain rfl := Option.some.inj (hcur.symm.trans hcur')
  obtain ⟨s₂, hsel₂, hc⟩ := Option.bind_eq_some_iff.mp hc
  obtain ⟨r, hr, hc⟩ := Option.bind_eq_some_iff.mp hc
  obtain rfl := Option.some.inj hsel₂
  obtain rfl := Option.some.inj hc
  have hsw := hi.pendSv sel
  have hlive := osSchedSelectNext_liveTcbs (saveContext c.sys.kernel n c.psp)
  -- what the control blocks of the model hold after the switch
  have hsps : ∀ x ∈ c.sys.kernel.liveTcbs, ((p.pendSv sel m).mem (BitVec.ofNat 32 x)).toNat
      = ((osSchedSelectNext (saveContext c.sys.kernel n c.psp)).tcb x).stackPtr := by
    intro x hx
    rw [osSchedSelectNext_stackPtr, saveContext_stackPtr]
    split
    · next hxn =>
        rw [hxn, hsw.stored, Port.toNat_frameBase hfpu, h.psp]
    · next hxn =>
        have hne : BitVec.ofNat 32 x ≠ BitVec.ofNat 32 n := by
          intro heq
          have hnat := congrArg BitVec.toNat heq
          rw [BitVec.toNat_ofNat, BitVec.toNat_ofNat, Nat.mod_eq_of_lt (h.live x hx).1,
            Nat.mod_eq_of_lt (h.live n hn).1] at hnat
          exact hxn hnat
        rw [hsw.others _ hne _ (Or.inr (h.live x hx).2), h.sps x hx]
  constructor
  · show (p.pendSv sel m).psp.toNat = pspOf _
    rw [hsw.psp, hsel, BitVec.toNat_add, hsps _ (hlive ▸ hrun), Port.loadSize, if_neg hfpu]
    rfl
  · intro x hx
    obtain rfl := Option.some.inj (hr.symm.trans hx)
    exact hsel
  · intro x hx
    exact h.live x (hlive ▸ hx)
  · intro x hx
    exact hsps x (hlive ▸ hx)

/-! ## While a task is switched out -/

/-- What happens between two switches of a task, and the switches of other tasks. -/
inductive SwitchOp (M : MemMap)
  /-- Tasks and interrupts execute, up to this machine. -/
  | exec (m : Machine)
  /-- `PendSV_Handler`. -/
  | pendSv (sel : SelectNext M)

/-- A step of the processor: somebody executes, or tasks are switched. -/
def switchStep (p : Port) (m : Machine) : SwitchOp M → Option Machine
  | .exec m' => some m'
  | .pendSv sel => some (p.pendSv sel m)

/-- **Task `t` stays switched out**: nobody writes into its context, and every switch is from another
task to another task. -/
def Away (p : Port) (M : MemMap) (t : BitVec 32) (m : Machine) : SwitchOp M → Prop
  | .exec m' => ∀ a, M.Holds t a → m'.mem a = m.mem a
  | .pendSv sel => (∃ u, u ≠ t ∧ Interrupted p M u m) ∧ (p.pendSv sel m).mem M.currentTaskPtr ≠ t

/-- **Task `t` is switched in**: it is switched out in `m₁`, another task is interrupted in `m₂`, and the
handler ends in `m₃` with `t` as the current task. -/
structure SwitchesIn (p : Port) (M : MemMap) (t : BitVec 32) (m₁ m₂ m₃ : Machine) : Prop where
  /-- The task has stayed switched out. -/
  away : ∃ ops, Run (Away p M t) (switchStep p) m₁ ops m₂
  /-- Another task is interrupted. -/
  interrupted : ∃ u, u ≠ t ∧ Interrupted p M u m₂
  /-- The handler selects. -/
  handler : ∃ sel : SelectNext M, m₃ = p.pendSv sel m₂
  /-- The task is the one selected. -/
  current : m₃.mem M.currentTaskPtr = t

variable {m₀ m₁ m₂ m₃ : Machine}

/-- Step: the context of a task that is switched out stays. -/
theorem Away.step {op : SwitchOp M} (h : Away p M t m op) (hs : switchStep p m op = some m') :
    ∀ a, M.Holds t a → m'.mem a = m.mem a := by
  cases op with
  | exec m₁ =>
      obtain rfl := Option.some.inj hs
      exact h
  | pendSv sel =>
      obtain rfl := Option.some.inj hs
      obtain ⟨⟨u, hu, hint⟩, -⟩ := h
      exact (hint.pendSv sel).others t (Ne.symm hu)

/-- Run: it stays until the task is switched in. -/
theorem SwitchesIn.kept (h : SwitchesIn p M t m₁ m₂ m₃) : ∀ a, M.Holds t a → m₃.mem a = m₁.mem a := by
  obtain ⟨ops, hr⟩ := h.away
  obtain ⟨u, hu, hint⟩ := h.interrupted
  obtain ⟨sel, rfl⟩ := h.handler
  have hkept : ∀ a, M.Holds t a → m₂.mem a = m₁.mem a := by
    refine hr.invariant (fun m => ∀ a, M.Holds t a → m.mem a = m₁.mem a) ?_ fun _ _ => rfl
    intro m op m' hinv hg hs a ha
    exact (hg.step hs a ha).trans (hinv a ha)
  intro a ha
  exact ((hint.pendSv sel).others t (Ne.symm hu) a ha).trans (hkept a ha)

/-- **A task is switched in** with the words at its saved stack pointer. -/
theorem SwitchesIn.loaded {b : BitVec 32} (h : SwitchesIn p M t m₁ m₂ m₃) (ht : M.owner t = .stackPtr t)
    (hb : m₁.mem t = b) (hregs : ∀ a ∈ addrs b 8, M.owner a = .stack t) :
    r4r11.map m₃.reg = p.arrange (loadWords m₁.mem b 8) ∧
      m₃.psp = b + BitVec.ofNat 32 (4 * p.loadSize m₂.usesFpu) ∧
      (p = .cortexM4 → m₂.usesFpu = true → (∀ a ∈ addrs (b + 32) 16, M.owner a = .stack t) →
        s16s31.map m₃.s = loadWords m₁.mem (b + 32) 16) := by
  have hkept := h.kept
  obtain ⟨u, hu, hint⟩ := h.interrupted
  obtain ⟨sel, hsel⟩ := h.handler
  have hsw : SwitchedOut p M u m₂ m₃ := hsel ▸ hint.pendSv sel
  have hbase : m₃.mem (m₃.mem M.currentTaskPtr) = b := by
    rw [h.current, hkept t (Or.inr ht), hb]
  refine ⟨?_, ?_, fun hp hf hfpu => ?_⟩
  · rw [hsw.regs, hbase, loadWords_congr fun a ha => hkept a (Or.inl (hregs a ha))]
  · rw [hsw.psp, hbase]
  · rw [hsw.fpu hp hf, hbase, loadWords_congr fun a ha => hkept a (Or.inl (hfpu a ha))]

/-! ## The round trip -/

/-- **The registers are restored**: R4-R11, the process stack pointer, and S16-S31 on a Cortex-M4 when the
task used the FPU. -/
def Restored (p : Port) (m m' : Machine) : Prop :=
  r4r11.map m'.reg = r4r11.map m.reg ∧ m'.psp = m.psp ∧
    (p = .cortexM4 → m.usesFpu = true → s16s31.map m'.s = s16s31.map m.s)

/-- **The halves of the handler mirror each other** for a task that was switched out in `m₀` and is
switched in by the handler that interrupts `m₂`: on the Cortex-M0 when the two halves of its registers are
equal, on the Cortex-M4 when both interrupted tasks used the FPU or neither did. -/
def Port.Mirrors (p : Port) (m₀ m₂ : Machine) : Prop :=
  match p with
  | .cortexM3 => True
  | .cortexM0 => r4r7.map m₀.reg = [Reg.r8, .r9, .r10, .r11].map m₀.reg
  | .cortexM4 => m₀.usesFpu = m₂.usesFpu

/-- R4-R11 are the first eight words of every frame. -/
theorem SwitchedOut.core (h : SwitchedOut p M t m m') :
    loadWords m'.mem (p.frameBase m) 8 = r4r11.map m.reg := by
  have hframe := h.frame
  by_cases hf : p = .cortexM4 ∧ m.usesFpu = true
  · obtain ⟨rfl, hf⟩ := hf
    rw [Port.frame_eq_fpu hf] at hframe
    have hsplit := loadWords_add m'.mem (Port.frameBase .cortexM4 m) 8 16
    exact (List.append_inj (hsplit.symm.trans hframe) (length_loadWords ..)).1
  · rw [Port.frame_eq_core hf] at hframe
    exact hframe

/-- S16-S31 are the next sixteen words. -/
theorem SwitchedOut.fpuWords (h : SwitchedOut .cortexM4 M t m m') (hf : m.usesFpu = true) :
    loadWords m'.mem (Port.frameBase .cortexM4 m + 32) 16 = s16s31.map m.s := by
  have hframe := h.frame
  rw [Port.frame_eq_fpu hf] at hframe
  have hsplit := loadWords_add m'.mem (Port.frameBase .cortexM4 m) 8 16
  exact (List.append_inj (hsplit.symm.trans hframe) (length_loadWords ..)).2

/-- The first eight words of a frame are on the stack of the task. -/
theorem Interrupted.core_owner (h : Interrupted p M t m) :
    ∀ a ∈ addrs (p.frameBase m) 8, M.owner a = .stack t := by
  intro a ha
  refine h.frame a ?_
  rw [Port.frameAddrs, p.length_frame, Port.loadSize]
  split
  · rw [addrs_add _ 8 16]
    exact List.mem_append_left _ ha
  · exact ha

/-- So are the words of S16-S31. -/
theorem Interrupted.fpu_owner (h : Interrupted .cortexM4 M t m) (hf : m.usesFpu = true) :
    ∀ a ∈ addrs (Port.frameBase .cortexM4 m + 32) 16, M.owner a = .stack t := by
  intro a ha
  refine h.frame a ?_
  rw [Port.frameAddrs, Port.length_frame, Port.loadSize, if_pos ⟨rfl, hf⟩, addrs_add _ 8 16]
  exact List.mem_append_right _ ha

/-- The stack pointer is restored when the loaded frame is as large as the stored one. -/
theorem Port.psp_eq_iff (p : Port) (m₀ m₂ : Machine) :
    p.frameBase m₀ + BitVec.ofNat 32 (4 * p.loadSize m₂.usesFpu) = m₀.psp
      ↔ p.loadSize m₀.usesFpu = p.loadSize m₂.usesFpu := by
  have hsize : ∀ f, p.loadSize f = 8 ∨ p.loadSize f = 24 := by
    intro f
    unfold loadSize
    split
    · exact Or.inr rfl
    · exact Or.inl rfl
  rw [frameBase, p.length_frame]
  rcases hsize m₀.usesFpu with h₀ | h₀ <;> rcases hsize m₂.usesFpu with h₂ | h₂ <;> rw [h₀, h₂]
  all_goals
    constructor
    · intro h
      bv_omega
    · intro h
      bv_omega

/-- On the Cortex-M4 the size of a frame tells whether it has S16-S31. -/
theorem Port.loadSize_inj {f f' : Bool} (h : loadSize .cortexM4 f = loadSize .cortexM4 f') : f = f' := by
  cases f <;> cases f' <;> first | rfl | cases h

/-- What a task that was switched out finds in the registers. -/
theorem Interrupted.loaded (h : Interrupted p M t m₀) (hs : SwitchesIn p M t (p.pendSv out m₀) m₂ m₃) :
    r4r11.map m₃.reg = p.arrange (r4r11.map m₀.reg) ∧
      m₃.psp = p.frameBase m₀ + BitVec.ofNat 32 (4 * p.loadSize m₂.usesFpu) ∧
      (p = .cortexM4 → m₀.usesFpu = true → m₂.usesFpu = true →
        s16s31.map m₃.s = s16s31.map m₀.s) := by
  have hout := h.pendSv out
  obtain ⟨hregs, hpsp, hfpu⟩ := hs.loaded h.task hout.stored h.core_owner
  rw [hout.core] at hregs
  refine ⟨hregs, hpsp, ?_⟩
  rintro rfl hf₀ hf₂
  rw [hfpu rfl hf₂ (h.fpu_owner hf₀)]
  exact hout.fpuWords hf₀

/-- **One round trip.** -/
theorem Interrupted.roundTrip (h : Interrupted p M t m₀) (hs : SwitchesIn p M t (p.pendSv out m₀) m₂ m₃) :
    Restored p m₀ m₃ ↔ p.Mirrors m₀ m₂ := by
  obtain ⟨hregs, hpsp, hfpu⟩ := h.loaded hs
  rw [Restored, hregs, hpsp, p.psp_eq_iff]
  cases p with
  | cortexM3 =>
      refine iff_of_true ⟨rfl, rfl, ?_⟩ trivial
      intro hp
      cases hp
  | cortexM0 =>
      constructor
      · intro hr
        have hswap : [Reg.r8, .r9, .r10, .r11].map m₀.reg ++ r4r7.map m₀.reg
            = r4r7.map m₀.reg ++ [Reg.r8, .r9, .r10, .r11].map m₀.reg := hr.1
        exact (List.append_inj hswap rfl).2
      · intro heq
        refine ⟨?_, rfl, ?_⟩
        · exact (congrArg₂ (· ++ ·) heq.symm heq : _)
        · intro hp
          cases hp
  | cortexM4 =>
      constructor
      · intro hr
        exact (Port.loadSize_inj hr.2.1)
      · intro heq
        have heq : m₀.usesFpu = m₂.usesFpu := heq
        refine ⟨rfl, by rw [heq], fun hp hf => ?_⟩
        exact hfpu hp hf (heq.symm.trans hf)

/-! ## The first switch to a task -/

/-- R4-R11 of a new task: `os_port_stack_init` pushes them last, R11 first. All ports store the same
frame. -/
def initialRegs (func param : BitVec 32) : List (BitVec 32) := ((initialFrame func param).drop 8).reverse

/-- A word of the memory of the kernel model. -/
def wordAt (mem : Addr → BitVec 32) (a : BitVec 32) : BitVec 32 := mem a.toNat

/-- **Pushing is storing downwards.** -/
theorem pushWords_eq (mem : Addr → BitVec 32) (sp : Addr) (ws : List (BitVec 32))
    (h : 4 * ws.length ≤ 2 ^ 32) :
    BitVec.ofNat 32 (pushWords mem sp ws).1 = BitVec.ofNat 32 sp - BitVec.ofNat 32 (4 * ws.length) ∧
      wordAt (pushWords mem sp ws).2
        = storeWords (wordAt mem) (BitVec.ofNat 32 sp - BitVec.ofNat 32 (4 * ws.length)) ws.reverse := by
  induction ws generalizing mem sp with
  | nil =>
      constructor
      · simp [pushWords]
      · rfl
  | cons w ws ih =>
      rw [List.length_cons] at h
      obtain ⟨hsp, hmem⟩ := ih (Function.update mem ((sp + 2 ^ 32 - 4) % 2 ^ 32) w)
        ((sp + 2 ^ 32 - 4) % 2 ^ 32) (by omega)
      have hnext : BitVec.ofNat 32 ((sp + 2 ^ 32 - 4) % 2 ^ 32) = BitVec.ofNat 32 sp - 4 := by
        refine BitVec.eq_of_toNat_eq ?_
        rw [BitVec.toNat_ofNat, BitVec.toNat_sub, BitVec.toNat_ofNat]
        have harith : ∀ n : Nat,
            (n + 2 ^ 32 - 4) % 2 ^ 32 % 2 ^ 32 = (2 ^ 32 - 4 + n % 2 ^ 32) % 2 ^ 32 := by omega
        exact harith sp
      have hstep : BitVec.ofNat 32 (4 * (ws.length + 1)) = BitVec.ofNat 32 (4 * ws.length) + 4 := by
        rw [Nat.mul_succ, BitVec.ofNat_add]
        rfl
      have hbase : BitVec.ofNat 32 sp - 4 - BitVec.ofNat 32 (4 * ws.length)
          = BitVec.ofNat 32 sp - BitVec.ofNat 32 (4 * (ws.length + 1)) := by
        rw [hstep]
        generalize BitVec.ofNat 32 sp = b, BitVec.ofNat 32 (4 * ws.length) = c
        bv_omega
      rw [hnext, hbase] at hsp hmem
      refine ⟨hsp, hmem.trans ?_⟩
      -- the first word lies behind all the others
      have hword : wordAt (Function.update mem ((sp + 2 ^ 32 - 4) % 2 ^ 32) w)
          = storeWords (wordAt mem) (BitVec.ofNat 32 sp - BitVec.ofNat 32 (4 * (ws.length + 1))
            + BitVec.ofNat 32 (4 * ws.reverse.length)) [w] := by
        have haddr : BitVec.ofNat 32 sp - BitVec.ofNat 32 (4 * (ws.length + 1))
            + BitVec.ofNat 32 (4 * ws.reverse.length) = BitVec.ofNat 32 sp - 4 := by
          rw [hstep, List.length_reverse]
          generalize BitVec.ofNat 32 sp = b, BitVec.ofNat 32 (4 * ws.length) = c
          bv_omega
        rw [haddr, ← hnext]
        funext a
        simp only [wordAt, storeWords, Function.update_apply]
        congr 1
        refine propext ⟨fun ha => ?_, fun ha => ?_⟩
        · rw [← ha, BitVec.ofNat_toNat, BitVec.setWidth_eq]
        · rw [ha, BitVec.toNat_ofNat, Nat.mod_mod]
      rw [hword, List.reverse_cons, List.length_cons]
      refine storeWords_append_of_le _ _ _ _ ?_
      rw [List.length_reverse, List.length_singleton]
      exact h

/-- **A task was created**: its `stack_ptr` and the frame below the hardware's one are as
`os_port_stack_init` left them, for any function, parameter and stack. -/
structure Created (M : MemMap) (t : BitVec 32) (mem : Addr → BitVec 32) (func param : BitVec 32)
    (base : Addr) (size : Nat) (m : Machine) : Prop where
  /-- Its first word is `stack_ptr`. -/
  task : M.owner t = .stackPtr t
  /-- It holds what `os_port_stack_init` returned. -/
  stored : m.mem t = BitVec.ofNat 32 (osPortStackInit mem func param base size).1
  /-- The lower half of the frame lies on the stack of the task. -/
  owner : ∀ a ∈ addrs (m.mem t) 8, M.owner a = .stack t
  /-- It holds what `os_port_stack_init` has written. -/
  frame : ∀ a ∈ addrs (m.mem t) 8, m.mem a = wordAt (osPortStackInit mem func param base size).2 a

/-- The eight words at the stack pointer of a new task. -/
theorem Created.words {mem : Addr → BitVec 32} {func param : BitVec 32} {base : Addr} {size : Nat}
    (h : Created M t mem func param base size m) :
    loadWords m.mem (m.mem t) 8 = initialRegs func param := by
  obtain ⟨hsp, hmem⟩ := pushWords_eq mem ((base + size + 7) % 2 ^ 32 / 8 * 8) (initialFrame func param)
    (by simp [initialFrame])
  have hbase : m.mem t = _ := h.stored.trans hsp
  have hrev : (initialFrame func param).reverse
      = initialRegs func param ++ ((initialFrame func param).take 8).reverse := rfl
  have hall : loadWords (storeWords (wordAt mem) (m.mem t) (initialFrame func param).reverse)
      (m.mem t) (8 + 8) = (initialFrame func param).reverse :=
    loadWords_storeWords (by simp [initialFrame])
  have hsplit := loadWords_add (wordAt (osPortStackInit mem func param base size).2) (m.mem t) 8 8
  have hinit : wordAt (osPortStackInit mem func param base size).2
      = storeWords (wordAt mem) (m.mem t) (initialFrame func param).reverse := hbase ▸ hmem
  rw [loadWords_congr h.frame]
  rw [hinit] at hsplit ⊢
  exact (List.append_inj (hsplit.symm.trans (hall.trans hrev)) (length_loadWords ..)).1

/-- **One first switch.** -/
theorem Created.firstSwitch {mem : Addr → BitVec 32} {func param : BitVec 32} {base : Addr} {size : Nat}
    (h : Created M t mem func param base size m₁) (hs : SwitchesIn p M t m₁ m₂ m₃) :
    r4r11.map m₃.reg = initialRegs func param ↔ p ≠ .cortexM0 := by
  obtain ⟨hregs, -, -⟩ := hs.loaded h.task rfl h.owner
  rw [hregs, h.words]
  cases p with
  | cortexM3 => exact iff_of_true rfl (by decide)
  | cortexM4 => exact iff_of_true rfl (by decide)
  | cortexM0 =>
      refine iff_of_false ?_ fun hne => hne rfl
      -- R4 gets the word of R8
      intro heq
      cases (List.cons_eq_cons.mp heq).1

/-! ## Every port, every two tasks -/

/-- **Context switches.** For every port, every task, all registers and any use of the FPU: a task that is
switched out to another one, and switched in again after any further execution and any further switches,
has its R4-R11, its process stack pointer and its S16-S31 again exactly when the halves of the handler
mirror each other; and a new task gets the R4-R11 that `os_port_stack_init` stored for it exactly when the
port is not the Cortex-M0. -/
theorem pendSv_restores (p : Port) (M : MemMap) (t : BitVec 32) :
    (∀ (out : SelectNext M) (m₀ m₂ m₃ : Machine), Interrupted p M t m₀ →
      SwitchesIn p M t (p.pendSv out m₀) m₂ m₃ → (Restored p m₀ m₃ ↔ p.Mirrors m₀ m₂)) ∧
    ∀ (mem : Addr → BitVec 32) (func param : BitVec 32) (base : Addr) (size : Nat)
      (m₁ m₂ m₃ : Machine), Created M t mem func param base size m₁ → SwitchesIn p M t m₁ m₂ m₃ →
      (r4r11.map m₃.reg = initialRegs func param ↔ p ≠ .cortexM0) := by
  constructor
  · intro out m₀ m₂ m₃ h hs
    exact h.roundTrip hs
  · intro mem func param base size m₁ m₂ m₃ h hs
    exact h.firstSwitch hs

/-- Two tasks with control blocks `0x20000100` and `0x20000200`. -/
def twoTasksMap : MemMap where
  owner a :=
    if a = 0x20000000 then .currentTaskPtr
    else if a = 0x20000100 ∨ a = 0x20000200 then .stackPtr a
    else if 0x20001000 ≤ a ∧ a < 0x20001100 then .stack 0x20000100
    else if 0x20001100 ≤ a ∧ a < 0x20001200 then .stack 0x20000200
    else if 0x20002000 ≤ a ∧ a < 0x20002100 then .mainStack
    else .other
  currentTaskPtr := 0x20000000
  owner_currentTaskPtr := rfl

/-- A task that is interrupted with this EXC_RETURN and this process stack pointer. -/
def interruptedAt (lr psp : BitVec 32) (mem : BitVec 32 → BitVec 32) : Machine where
  reg
    | .r4 => 4 | .r5 => 5 | .r6 => 6 | .r7 => 7 | .r8 => 8 | .r9 => 9 | .r10 => 10 | .r11 => 11
    | .sp => 0x20002100
    | .lr => lr
    | _ => 0
  s i := BitVec.ofNat 32 i.val
  psp := psp
  z := false
  primask := false
  mem := mem

/-- The first task is interrupted. -/
def firstTask (lr : BitVec 32) : Machine :=
  interruptedAt lr 0x20001100 fun a => if a = 0x20000000 then 0x20000100 else 0

/-- The second task is interrupted after the first one was switched out to it. -/
def secondTask (p : Port) (lr lr' : BitVec 32) : Machine :=
  interruptedAt lr' 0x20001200 (p.pendSv (.pick twoTasksMap 0x20000200) (firstTask lr)).mem

/-- The second task is interrupted while the first one is new. -/
def newTask (func param : BitVec 32) : Machine :=
  let init := osPortStackInit (fun _ => 0) func param 0x20001000 0x100
  interruptedAt 0xFFFFFFFD 0x20001200 fun a =>
    if a = 0x20000000 then 0x20000200
    else if a = 0x20000100 then BitVec.ofNat 32 init.1
    else wordAt init.2 a

/-- The main stack. -/
theorem twoTasksMap_mainStack {a : BitVec 32} (h : 0x20002000 ≤ a.toNat) (h' : a.toNat < 0x20002100) :
    twoTasksMap.owner a = .mainStack := by
  unfold twoTasksMap
  dsimp only
  rw [if_neg (by bv_omega), if_neg (by bv_omega), if_neg (by bv_omega), if_neg (by bv_omega),
    if_pos (by bv_omega)]

/-- The stack of the first task. -/
theorem twoTasksMap_stack_first {a : BitVec 32} (h : 0x20001000 ≤ a.toNat)
    (h' : a.toNat < 0x20001100) : twoTasksMap.owner a = .stack 0x20000100 := by
  unfold twoTasksMap
  dsimp only
  rw [if_neg (by bv_omega), if_neg (by bv_omega), if_pos (by bv_omega)]

/-- The stack of the second task. -/
theorem twoTasksMap_stack_second {a : BitVec 32} (h : 0x20001100 ≤ a.toNat)
    (h' : a.toNat < 0x20001200) : twoTasksMap.owner a = .stack 0x20000200 := by
  unfold twoTasksMap
  dsimp only
  rw [if_neg (by bv_omega), if_neg (by bv_omega), if_neg (by bv_omega), if_pos (by bv_omega)]

/-- A handler that interrupts one of the two tasks finds room on its stack, whether it used the FPU or
not. -/
theorem interruptedAt_interrupted {t psp : BitVec 32} (p : Port) (lr : BitVec 32)
    (mem : BitVec 32 → BitVec 32) (hcur : mem 0x20000000 = t) (ht : twoTasksMap.owner t = .stackPtr t)
    (hpsp : 96 ≤ psp.toNat)
    (hstack : ∀ a : BitVec 32, psp.toNat ≤ a.toNat + 96 → a.toNat < psp.toNat →
      twoTasksMap.owner a = .stack t) :
    Interrupted p twoTasksMap t (interruptedAt lr psp mem) := by
  have hsp : (interruptedAt lr psp mem).reg .sp = 0x20002100 := rfl
  have hbound := psp.isLt
  refine ⟨hcur, ht, fun a ha => ?_, fun a ha => ?_, ?_⟩
  · have hsize : p.loadSize (interruptedAt lr psp mem).usesFpu ≤ 24 := by
      unfold Port.loadSize
      split <;> decide
    rw [Port.frameAddrs, Port.frameBase, p.length_frame] at ha
    generalize p.loadSize (interruptedAt lr psp mem).usesFpu = n at hsize ha
    have hbase : ((interruptedAt lr psp mem).psp - BitVec.ofNat 32 (4 * n)).toNat
        = psp.toNat - 4 * n := by
      show (psp - BitVec.ofNat 32 (4 * n)).toNat = _
      rw [BitVec.toNat_sub, BitVec.toNat_ofNat]
      omega
    obtain ⟨hlow, hhigh⟩ := toNat_of_mem_addrs (by rw [hbase]; omega) ha
    rw [hbase] at hlow hhigh
    exact hstack a (by omega) (by omega)
  · rw [hsp] at ha
    have hbase : (0x20002100 - 8 : BitVec 32).toNat = 0x200020F8 := by decide
    obtain ⟨hlow, hhigh⟩ := toNat_of_mem_addrs (by rw [hbase]; decide) ha
    rw [hbase] at hlow hhigh
    exact twoTasksMap_mainStack (by omega) (by omega)
  · rw [hsp]
    decide

/-- The first task can be switched out. -/
theorem firstTask_interrupted (p : Port) (lr : BitVec 32) :
    Interrupted p twoTasksMap 0x20000100 (firstTask lr) :=
  interruptedAt_interrupted p lr _ rfl rfl (by decide) fun a h h' =>
    twoTasksMap_stack_first (by bv_omega) (by bv_omega)

/-- Task `t` is switched in right away. -/
theorem switchesIn_pick (hu : u ≠ t) (h : Interrupted p M u m₂)
    (hmem : ∀ a, M.Holds t a → m₂.mem a = m₁.mem a) :
    SwitchesIn p M t m₁ m₂ (p.pendSv (.pick M t) m₂) where
  away := ⟨[.exec m₂], .cons hmem rfl (.nil _)⟩
  interrupted := ⟨u, hu, h⟩
  handler := ⟨_, rfl⟩
  current := p.pendSv_pick M t m₂

/-- The second task can be switched out, whatever its memory holds. -/
theorem secondTask_interrupted (p : Port) (lr : BitVec 32) (mem : BitVec 32 → BitVec 32)
    (hcur : mem 0x20000000 = 0x20000200) :
    Interrupted p twoTasksMap 0x20000200 (interruptedAt lr 0x20001200 mem) :=
  interruptedAt_interrupted p lr mem hcur rfl (by decide) fun a h h' =>
    twoTasksMap_stack_second (by bv_omega) (by bv_omega)

/-- The first task goes out and comes back. -/
theorem secondTask_switchesIn (p : Port) (lr lr' : BitVec 32) :
    SwitchesIn p twoTasksMap 0x20000100
      (p.pendSv (.pick twoTasksMap 0x20000200) (firstTask lr)) (secondTask p lr lr')
      (p.pendSv (.pick twoTasksMap 0x20000100) (secondTask p lr lr')) := by
  refine switchesIn_pick (u := 0x20000200) (by decide) ?_ fun _ _ => rfl
  exact secondTask_interrupted p lr' _ (p.pendSv_pick twoTasksMap 0x20000200 _)

/-- The first task is new and comes in. -/
theorem newTask_switchesIn (p : Port) (func param : BitVec 32) :
    SwitchesIn p twoTasksMap 0x20000100 (newTask func param) (newTask func param)
      (p.pendSv (.pick twoTasksMap 0x20000100) (newTask func param)) := by
  refine switchesIn_pick (u := 0x20000200) (by decide) ?_ fun _ _ => rfl
  exact secondTask_interrupted p _ _ rfl

/-- The new task is created. -/
theorem newTask_created (func param : BitVec 32) :
    Created twoTasksMap 0x20000100 (fun _ => 0) func param 0x20001000 0x100 (newTask func param) := by
  have hmem : ∀ a, (newTask func param).mem a
      = if a = 0x20000000 then 0x20000200
        else if a = 0x20000100 then
          BitVec.ofNat 32 (osPortStackInit (fun _ => 0) func param 0x20001000 0x100).1
        else wordAt (osPortStackInit (fun _ => 0) func param 0x20001000 0x100).2 a := fun _ => rfl
  have hstored := hmem 0x20000100
  rw [if_neg (by decide), if_pos rfl] at hstored
  have hsp : ((newTask func param).mem 0x20000100).toNat = 0x200010C0 := by
    have hlen : (initialFrame func param).length = 16 := rfl
    have hpush := (pushWords_eq (fun _ => 0) ((0x20001000 + 0x100 + 7) % 2 ^ 32 / 8 * 8)
      (initialFrame func param) (by rw [hlen]; decide)).1
    rw [hlen] at hpush
    rw [hstored]
    exact (congrArg BitVec.toNat hpush).trans (by decide)
  have hrange : ∀ a ∈ addrs ((newTask func param).mem 0x20000100) 8,
      0x200010C0 ≤ a.toNat ∧ a.toNat < 0x200010E0 := by
    intro a ha
    have hmem := toNat_of_mem_addrs (by rw [hsp]; decide) ha
    rwa [hsp] at hmem
  refine ⟨rfl, hstored, fun a ha => ?_, fun a ha => ?_⟩
  · obtain ⟨hlow, hhigh⟩ := hrange a ha
    exact twoTasksMap_stack_first (by omega) (by omega)
  · obtain ⟨hlow, hhigh⟩ := hrange a ha
    rw [hmem, if_neg (by bv_omega), if_neg (by bv_omega)]

/-- A task that uses the FPU comes back to its registers, and a new task gets its initial ones. -/
theorem pendSv_restores_twoTasks :
    Restored .cortexM4 (firstTask 0xFFFFFFED)
        (Port.pendSv .cortexM4 (.pick twoTasksMap 0x20000100)
          (secondTask .cortexM4 0xFFFFFFED 0xFFFFFFED)) ∧
      r4r11.map (Port.pendSv .cortexM3 (.pick twoTasksMap 0x20000100) (newTask 0x08000101 7)).reg
        = initialRegs 0x08000101 7 := by
  constructor
  · have hin := secondTask_switchesIn .cortexM4 0xFFFFFFED 0xFFFFFFED
    have hout := firstTask_interrupted .cortexM4 0xFFFFFFED
    exact ((pendSv_restores .cortexM4 twoTasksMap 0x20000100).1 _ _ _ _ hout hin).mpr rfl
  · have hin := newTask_switchesIn .cortexM3 0x08000101 7
    have hnew := newTask_created 0x08000101 7
    exact ((pendSv_restores .cortexM3 twoTasksMap 0x20000100).2 _ _ _ _ _ _ _ _ hnew hin).mpr
      (by decide)

/-- **Counterexample.** On the Cortex-M0 a task goes out with 4, .., 11 in R4-R11 and comes back with
8, .., 11, 4, .., 7, and a new task starts with the values of R8-R11 in R4-R7. On the Cortex-M4 a task that
used the FPU goes out and comes back from a task that did not: its process stack pointer is not
restored. -/
theorem pendSv_swaps_halves :
    (Interrupted .cortexM0 twoTasksMap 0x20000100 (firstTask 0xFFFFFFFD) ∧
      ∃ m₂ m₃, SwitchesIn .cortexM0 twoTasksMap 0x20000100
          (Port.pendSv .cortexM0 (.pick twoTasksMap 0x20000200) (firstTask 0xFFFFFFFD)) m₂ m₃ ∧
        r4r11.map (firstTask 0xFFFFFFFD).reg = [4, 5, 6, 7, 8, 9, 10, 11] ∧
        r4r11.map m₃.reg = [8, 9, 10, 11, 4, 5, 6, 7]) ∧
    (Created twoTasksMap 0x20000100 (fun _ => 0) 0x08000101 7 0x20001000 0x100 (newTask 0x08000101 7) ∧
      ∃ m₂ m₃, SwitchesIn .cortexM0 twoTasksMap 0x20000100 (newTask 0x08000101 7) m₂ m₃ ∧
        r4r11.map m₃.reg ≠ initialRegs 0x08000101 7) ∧
    (Interrupted .cortexM4 twoTasksMap 0x20000100 (firstTask 0xFFFFFFED) ∧
      ∃ m₂ m₃, SwitchesIn .cortexM4 twoTasksMap 0x20000100
          (Port.pendSv .cortexM4 (.pick twoTasksMap 0x20000200) (firstTask 0xFFFFFFED)) m₂ m₃ ∧
        m₃.psp ≠ (firstTask 0xFFFFFFED).psp) := by
  refine ⟨?_, ?_, ?_⟩
  · have hout := firstTask_interrupted .cortexM0 0xFFFFFFFD
    have hin := secondTask_switchesIn .cortexM0 0xFFFFFFFD 0xFFFFFFFD
    refine ⟨hout, _, _, hin, rfl, ?_⟩
    exact (hout.loaded hin).1
  · have hin := newTask_switchesIn .cortexM0 0x08000101 7
    have hnew := newTask_created 0x08000101 7
    exact ⟨hnew, _, _, hin, fun heq => (hnew.firstSwitch hin).mp heq rfl⟩
  · have hout := firstTask_interrupted .cortexM4 0xFFFFFFED
    have hin := secondTask_switchesIn .cortexM4 0xFFFFFFED 0xFFFFFFFD
    refine ⟨hout, _, _, hin, fun heq => ?_⟩
    have hsize := (Port.psp_eq_iff .cortexM4 _ _).mp ((hout.loaded hin).2.1.symm.trans heq)
    exact absurd hsize (by decide)

end MiniRTOS
