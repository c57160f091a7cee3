import MiniRTOS.Kernel.HeapAlignment
import MiniRTOS.Kernel.System

/-! # The initial frame of a task

`os_port_stack_init` rounds the end of the stack up to a multiple of 8 and pushes sixteen words below it.
A stack is an array of words, so its end need not be a multiple of 8; then the first word is pushed
behind the stack. On a 32-bit target every stack that `os_heap_alloc` returns is aligned to 4 bytes, and
the first one to no more than that.

* **`pushWords_eq_foldl`** — what a frame writes, and where.
* **`FrameInside`** — the frame of a new task lies inside its stack.
* **`initialFrame_inside_iff`** — which is the case when the stack ends at a multiple of 8. -/

namespace MiniRTOS

open Function Heap Runs Tiling

/-! ## The addresses of a frame -/

/-- The addresses that `pushWords` stores `n` words at, in push order. -/
def pushAddrs : Addr → Nat → List Addr
  | _, 0 => []
  | sp, n + 1 => (sp + 2 ^ 32 - 4) % 2 ^ 32 :: pushAddrs ((sp + 2 ^ 32 - 4) % 2 ^ 32) n

/-- **What is written**: `pushWords` stores each word at its address and nothing else. -/
theorem pushWords_eq_foldl (mem : Addr → BitVec 32) (sp : Addr) (ws : List (BitVec 32)) :
    (pushWords mem sp ws).2
      = ((pushAddrs sp ws.length).zip ws).foldl (fun m w => update m w.1 w.2) mem := by
  induction ws generalizing mem sp with
  | nil => rfl
  | cons w ws ih =>
      rw [pushWords, ih]
      rfl

/-- **Frame**: the words at other addresses stay. -/
theorem pushWords_of_notMem {mem : Addr → BitVec 32} {sp a : Addr} {ws : List (BitVec 32)}
    (h : a ∉ pushAddrs sp ws.length) : (pushWords mem sp ws).2 a = mem a := by
  induction ws generalizing mem sp with
  | nil => rfl
  | cons w ws ih =>
      rw [List.length_cons, pushAddrs, List.mem_cons, not_or] at h
      rw [pushWords, ih h.2]
      exact update_of_ne h.1 _ _

/-- The address four bytes lower, below a stack pointer that was taken down before. -/
theorem push_offset {sp : Nat} {i : Nat} (hi : 4 * (i + 1) ≤ 2 ^ 32) :
    ((sp + 2 ^ 32 - 4) % 2 ^ 32 + 2 ^ 32 - 4 * i) % 2 ^ 32 = (sp + 2 ^ 32 - 4 * (i + 1)) % 2 ^ 32 := by
  omega

/-- The addresses are those of the words below the stack pointer. -/
theorem mem_pushAddrs {sp a : Addr} {n : Nat} (h : 4 * n ≤ 2 ^ 32) :
    a ∈ pushAddrs sp n ↔ ∃ i : Nat, i < n ∧ a = (sp + 2 ^ 32 - 4 * (i + 1)) % 2 ^ 32 := by
  induction n generalizing sp with
  | zero => simp [pushAddrs]
  | succ n ih =>
      rw [pushAddrs, List.mem_cons, ih (by omega)]
      have hfirst : (sp + 2 ^ 32 - 4 * (0 + 1)) % 2 ^ 32 = (sp + 2 ^ 32 - 4) % 2 ^ 32 := by
        rw [Nat.zero_add, Nat.mul_one]
      constructor
      · rintro (ha | ⟨i, hi, ha⟩)
        · exact ⟨0, Nat.succ_pos n, ha.trans hfirst.symm⟩
        · exact ⟨i + 1, Nat.succ_lt_succ hi, ha.trans (push_offset (by omega))⟩
      · rintro ⟨i, hi, ha⟩
        cases i with
        | zero => exact Or.inl (ha.trans hfirst)
        | succ i => exact Or.inr ⟨i, Nat.lt_of_succ_lt_succ hi, ha.trans (push_offset (by omega)).symm⟩

/-- The stack pointer after the pushes. -/
theorem pushWords_fst (mem : Addr → BitVec 32) {sp : Addr} (hsp : sp < 2 ^ 32)
    {ws : List (BitVec 32)} (h : 4 * ws.length ≤ 2 ^ 32) :
    (pushWords mem sp ws).1 = (sp + 2 ^ 32 - 4 * ws.length) % 2 ^ 32 := by
  induction ws generalizing mem sp with
  | nil =>
      have hlt : ∀ n : Nat, n < 2 ^ 32 → n = (n + 2 ^ 32 - 4 * 0) % 2 ^ 32 := by omega
      exact hlt sp hsp
  | cons w ws ih =>
      rw [List.length_cons] at h ⊢
      rw [pushWords, ih _ (Nat.mod_lt _ (by decide)) (by omega)]
      exact push_offset h

/-! ## The stack of a new task -/

/-- The end of a stack, as `os_port_stack_init` rounds it. -/
def stackTop (base size : Nat) : Nat := (base + size + 7) % 2 ^ 32 / 8 * 8

/-- The addresses of the sixteen words of the initial frame. -/
def frameWords (base size : Nat) : List Addr := pushAddrs (stackTop base size) 16

/-- **The initial frame is inside the stack** of the new task `t`: every byte of the sixteen words lies in
`[stack_base, stack_base + stack_size)`, the canary word is as `prv_fill_stack` wrote it, and the stack
pointer is a multiple of 8 in that range. -/
structure FrameInside (k : Kernel) (t : TaskId) (base size : Nat) : Prop where
  /-- All words lie on the stack. -/
  words : ∀ a ∈ frameWords base size, base ≤ a ∧ a + 4 ≤ base + size
  /-- The canary is there. -/
  canary : k.stackMem base = stackCanaryValue
  /-- The stack pointer is aligned. -/
  aligned : 8 ∣ (k.tcb t).stackPtr
  /-- It points into the stack. -/
  sp : base ≤ (k.tcb t).stackPtr ∧ (k.tcb t).stackPtr < base + size

/-- An initial frame has 16 words. -/
theorem length_initialFrame (func param : BitVec 32) : (initialFrame func param).length = 16 := rfl

/-- `os_port_stack_init` writes the frame there. -/
theorem osPortStackInit_eq_foldl (mem : Addr → BitVec 32) (func param : BitVec 32) (base size : Nat) :
    (osPortStackInit mem func param base size).2
      = ((frameWords base size).zip (initialFrame func param)).foldl
          (fun m w => update m w.1 w.2) mem :=
  pushWords_eq_foldl ..

/-- The words that the loop of `prv_fill_stack` has written. -/
theorem foldl_fill (mem : Addr → BitVec 32) (base n i : Nat) :
    (List.range n).foldl (fun m i => Function.update m (base + 4 * i) stackFillValue) mem (base + 4 * i)
      = if i < n then stackFillValue else mem (base + 4 * i) := by
  induction n with
  | zero => rfl
  | succ n ih =>
      rw [List.range_succ, List.foldl_append, List.foldl_cons, List.foldl_nil, Function.update_apply, ih]
      by_cases hi : i = n
      · simp [hi]
      · have hne : base + 4 * i ≠ base + 4 * n := by omega
        have hiff : i < n ↔ i < n + 1 := by omega
        simp only [if_neg hne, hiff]

/-- The loop writes no other word. -/
theorem foldl_fill_of_ne {mem : Addr → BitVec 32} {base n a : Nat} (h : ∀ i < n, a ≠ base + 4 * i) :
    (List.range n).foldl (fun m i => Function.update m (base + 4 * i) stackFillValue) mem a = mem a := by
  induction n with
  | zero => rfl
  | succ n ih =>
      rw [List.range_succ, List.foldl_append, List.foldl_cons, List.foldl_nil,
        Function.update_of_ne (h n (Nat.lt_succ_self n)), ih fun i hi => h i (Nat.lt_succ_of_lt hi)]

/-- The lowest word of a filled stack holds the canary. -/
theorem prvFillStack_base (mem : Addr → BitVec 32) (base : Addr) (size : Nat) :
    prvFillStack mem base size base = stackCanaryValue := update_self ..

/-- The first two words of a frame are inside only when the stack ends at a multiple of 8. -/
theorem end_of_frame_inside {b s : Nat} (h4 : b % 4 = 0) (hb : b < 2 ^ 32) (hs : s < 2 ^ 32)
    (hlo : b ≤ (stackTop b s + 2 ^ 32 - 4) % 2 ^ 32)
    (hhi : (stackTop b s + 2 ^ 32 - 4) % 2 ^ 32 + 4 ≤ b + s)
    (hlo' : b ≤ (stackTop b s + 2 ^ 32 - 8) % 2 ^ 32) :
    (b + s) % 8 = 0 ∧ b + s ≤ 2 ^ 32 := by
  unfold stackTop at hlo hhi hlo'
  by_cases hw : b + s + 7 < 2 ^ 32
  · omega
  · by_cases hle : b + s ≤ 2 ^ 32
    · -- the rounded end is behind the last address
      have htop : (b + s + 7) % 2 ^ 32 / 8 * 8 = 0 := by omega
      omega
    · have htop : (b + s + 7) % 2 ^ 32 = b + s + 7 - 2 ^ 32 := by omega
      omega

/-- All words of a frame are inside a stack that ends at a multiple of 8. -/
theorem frame_inside_of_end {b s i : Nat} (h8 : (b + s) % 8 = 0) (hle : b + s ≤ 2 ^ 32)
    (hmin : 128 ≤ s) (hi : i < 16) :
    b + 64 ≤ (stackTop b s + 2 ^ 32 - 4 * (i + 1)) % 2 ^ 32 ∧
      (stackTop b s + 2 ^ 32 - 4 * (i + 1)) % 2 ^ 32 + 4 ≤ b + s := by
  unfold stackTop
  by_cases hw : b + s = 2 ^ 32
  · have htop : (b + s + 7) % 2 ^ 32 / 8 * 8 = 0 := by omega
    omega
  · have htop : (b + s + 7) % 2 ^ 32 / 8 * 8 = b + s := by omega
    omega

variable {k k' : Kernel} {t : TaskId} {base size : Nat}

/-- The addresses of its words lie below the top of the stack, four bytes apart. -/
theorem mem_frameWords {a : Addr} :
    a ∈ frameWords base size ↔ ∃ i : Nat, i < 16 ∧ a = (stackTop base size + 2 ^ 32 - 4 * (i + 1)) % 2 ^ 32 :=
  mem_pushAddrs (by decide)

/-- **The sixteen words are inside** when the stack ends at a multiple of 8. -/
theorem frameWords_inside_iff (h4 : base % 4 = 0) (hbase : base < 2 ^ 32) (hsize : size < 2 ^ 32)
    (hmin : 128 ≤ size) :
    (∀ a ∈ frameWords base size, base ≤ a ∧ a + 4 ≤ base + size)
      ↔ (base + size) % 8 = 0 ∧ base + size ≤ 2 ^ 32 := by
  constructor
  · intro h
    obtain ⟨hlo, hhi⟩ := h _ (mem_frameWords.mpr ⟨0, by decide, rfl⟩)
    obtain ⟨hlo', -⟩ := h _ (mem_frameWords.mpr ⟨1, by decide, rfl⟩)
    exact end_of_frame_inside h4 hbase hsize hlo hhi hlo'
  · rintro ⟨h8, hle⟩ a ha
    obtain ⟨i, hi, rfl⟩ := mem_frameWords.mp ha
    obtain ⟨hlo, hhi⟩ := frame_inside_of_end h8 hle hmin hi
    exact ⟨Nat.le_trans (Nat.le_add_right base 64) hlo, hhi⟩

/-! ## Creating a task -/

/-- The arguments of a call that succeeded. -/
theorem osTaskCreate_ok {a : CreateArgs} {handle : Option TaskId}
    (h : osTaskCreate k a = (.ok, handle, k')) :
    128 ≤ a.stackSize ∧ ∃ func prio stack t, a.func = some func ∧
      a.stackBuf.or a.stackBlock = some stack ∧ a.tcbBlock = some t ∧
      k' = initTask k func a.param prio stack a.stackSize t := by
  rcases osTaskCreate_cases k a with
    ⟨func, p, stack, t, hf, -, -, hsize, hstack, ht, hok⟩ | ⟨r, k₁, hr, -, -, hno⟩
  · obtain ⟨-, rfl⟩ := Prod.mk.inj (Prod.mk.inj (h.symm.trans hok)).2
    exact ⟨hsize, func, p, stack, t, hf, hstack, ht, rfl⟩
  · exact absurd (Prod.mk.inj (hno.symm.trans h)).1 hr

/-- The stack pointer of a new task. -/
theorem initTask_stackPtr (k : Kernel) (func param : BitVec 32) (prio : Prio) (stack : Addr)
    (size : Nat) (t : TaskId) :
    ((initTask k func param prio stack size t).tcb t).stackPtr
      = (osPortStackInit (prvFillStack k.stackMem stack size) func param stack size).1 := by
  simp [initTask, osTaskAddToReady, newTcb]

/-- **The stack of a call of `os_task_create`**: words that the caller supplies, or a block of a 32-bit
heap after any sequence of permitted calls and writes. -/
inductive SuppliesStack (a : CreateArgs) (stack : Addr) : Prop
  /-- The caller has supplied it. -/
  | caller (hbuf : a.stackBuf = some stack) (h4 : stack % 4 = 0) (hlt : stack < 2 ^ 32)
  /-- It comes from the heap. -/
  | heap {c : HeapConfig} {h h' : Heap} {s : HeapSys} {rs : List HeapRequest}
      (hptr : c.ptrBytes = 4)
      (hrun : Run (fun s r => HeapRequest.Allowed c s r) (requestStep c) (HeapSys.init c h) rs s)
      (halloc : osHeapAlloc c s.heap a.stackSize = some (h', some stack))
      (hbuf : a.stackBuf = none) (hblock : a.stackBlock = some stack)

/-- It is the stack that is used, and an array of words in the address space. -/
theorem SuppliesStack.spec {a : CreateArgs} {stack : Addr} (h : SuppliesStack a stack) :
    a.stackBuf.or a.stackBlock = some stack ∧ stack % 4 = 0 ∧ stack < 2 ^ 32 := by
  cases h with
  | caller hbuf h4 hlt => exact ⟨by rw [hbuf]; rfl, h4, hlt⟩
  | @heap c h h' s rs hptr hrun halloc hbuf hblock =>
      refine ⟨by rw [hbuf, hblock]; rfl, ?_⟩
      have hhdr : c.header = 12 := by rw [HeapConfig.header, hptr]
      have hdiv : 4 ∣ c.header := by
        rw [hhdr]
        decide
      have hgran : Granular 4 [(⟨c.start, heapSize - c.header, false⟩ : Block)] := by
        intro b hb
        rw [List.mem_singleton.mp hb, hhdr]
        show 4 ∣ heapSize - 12
        decide
      obtain ⟨bs, hI, hg⟩ := hrun.invariant (fun s => ∃ bs, HeapInv c s bs ∧ Granular 4 bs)
        (fun s r s' hinv hr hs =>
          hinv.elim fun _ h => h.1.request_granular (by decide) hdiv h.2 hr hs)
        ⟨_, HeapInv.init c h, hgran⟩
      -- the pointer is live after the call
      have hs : requestStep c s (.call (.alloc a.stackSize)) = some ⟨h', stack :: s.live⟩ := by
        rw [requestStep, heapStep, halloc]
        rfl
      obtain ⟨bs', hI', hg'⟩ := hI.request_granular (r := .call (.alloc a.stackSize))
        (by decide) hdiv hg trivial hs
      have hlive : stack ∈ stack :: s.live := List.mem_cons_self
      refine ⟨Nat.mod_eq_zero_of_dvd (hI'.dvd_of_granular (by decide) hdiv hg' hlive), ?_⟩
      obtain ⟨b, hb, -, rfl⟩ := (hI'.live stack).mp hlive
      have hfinish := (hI'.tiled.tiles.bounds hb).2
      have hfits := c.start_fits
      rw [hptr] at hfits
      exact Nat.lt_of_le_of_lt (Nat.le_trans (Nat.le_add_right _ b.size) hfinish) hfits

/-- **Initial frame.** Whatever stack a successful `os_task_create` uses: its frame is inside if and only
if the stack ends at a multiple of 8 that is not behind the address space. -/
theorem initialFrame_inside_iff {a : CreateArgs} {handle : Option TaskId} {stack : Addr}
    (hc : osTaskCreate k a = (.ok, handle, k')) (ht : a.tcbBlock = some t)
    (hs : SuppliesStack a stack) (hsize : a.stackSize < 2 ^ 32) :
    FrameInside k' t stack a.stackSize
      ↔ (stack + a.stackSize) % 8 = 0 ∧ stack + a.stackSize ≤ 2 ^ 32 := by
  obtain ⟨hstack, h4, hbase⟩ := hs.spec
  obtain ⟨hmin, func, prio, stack', t', -, hstack', ht', rfl⟩ := osTaskCreate_ok hc
  obtain rfl := Option.some.inj (hstack.symm.trans hstack')
  obtain rfl := Option.some.inj (ht.symm.trans ht')
  have hwords := frameWords_inside_iff h4 hbase hsize hmin
  constructor
  · intro h
    exact hwords.mp h.words
  · intro h
    have hlow : ∀ i, i < 16 → _ := fun i hi => frame_inside_of_end h.1 h.2 hmin hi
    have hsp : ((initTask k func a.param prio stack a.stackSize t).tcb t).stackPtr
        = (stackTop stack a.stackSize + 2 ^ 32 - 4 * (15 + 1)) % 2 ^ 32 := by
      rw [initTask_stackPtr, osPortStackInit]
      rw [pushWords_fst _ ?_ (by rw [length_initialFrame]; decide)]
      · rfl
      exact Nat.lt_of_le_of_lt (Nat.div_mul_le_self ..) (Nat.mod_lt _ (by decide))
    refine ⟨hwords.mpr h, ?_, ?_, ?_⟩
    · -- no word of the frame is the canary word
      show (osPortStackInit (prvFillStack k.stackMem stack a.stackSize) func a.param stack
        a.stackSize).2 stack = _
      rw [osPortStackInit, pushWords_of_notMem, prvFillStack_base]
      intro hmem
      obtain ⟨i, hi, heq⟩ := mem_frameWords.mp hmem
      have hlt := (hlow i hi).1
      rw [← heq] at hlt
      exact absurd hlt (Nat.not_le_of_lt (Nat.lt_add_of_pos_right (by decide)))
    · rw [hsp]
      unfold stackTop
      omega
    · rw [hsp]
      obtain ⟨hlo, hhi⟩ := hlow 15 (by decide)
      exact ⟨Nat.le_trans (Nat.le_add_right stack 64) hlo,
        Nat.lt_of_lt_of_le (Nat.lt_add_of_pos_right (by decide)) hhi⟩

/-- A task with a stack of its caller's. -/
def ownStack (stack size : Nat) : CreateArgs :=
  { func := some 0x08001001, param := 0, priority := 3, stackBuf := some stack, stackSize := size,
    wantHandle := true, stackBlock := none, tcbBlock := some 0x100 }

/-- A stack of 128 bytes that ends at a multiple of 8. -/
theorem initialFrame_inside_aligned :
    ∃ handle k', osTaskCreate Sys.boot.kernel (ownStack 0x20001000 128) = (.ok, handle, k') ∧
      FrameInside k' 0x100 0x20001000 128 := by
  have hc : osTaskCreate Sys.boot.kernel (ownStack 0x20001000 128)
      = (.ok, some 0x100, (osTaskCreate Sys.boot.kernel (ownStack 0x20001000 128)).2.2) := rfl
  exact ⟨_, _, hc, (initialFrame_inside_iff hc rfl (.caller rfl (by decide) (by decide))
    (by decide)).mpr (by decide)⟩

/-- **A stack of 128 bytes that ends 4 bytes behind a multiple of 8**: the first word is pushed behind
it. The first stack that a 32-bit heap hands out is of this kind. -/
theorem initialFrame_outside :
    (∃ handle k', osTaskCreate Sys.boot.kernel (ownStack 0x20001004 128) = (.ok, handle, k') ∧
      ¬ FrameInside k' 0x100 0x20001004 128) ∧
    ∃ handle k' h', osHeapAlloc HeapConfig.cortexM
        (HeapSys.init HeapConfig.cortexM Heap.unset).heap 128 = some (h', some 0x2000040C) ∧
      osTaskCreate Sys.boot.kernel
          { ownStack 0 128 with stackBuf := none, stackBlock := some 0x2000040C }
        = (.ok, handle, k') ∧
      ¬ FrameInside k' 0x100 0x2000040C 128 := by
  have hout : ∀ (k' : Kernel) (base : Nat), base % 4 = 0 → base < 2 ^ 32 → (base + 128) % 8 ≠ 0 →
      ¬ FrameInside k' 0x100 base 128 := by
    intro k' base h4 hlt h8 h
    exact h8 ((frameWords_inside_iff h4 hlt (by decide) (by decide)).mp h.words).1
  constructor
  · exact ⟨_, _, rfl, hout _ _ (by decide) (by decide) (by decide)⟩
  · have halloc : (osHeapAlloc HeapConfig.cortexM
        (HeapSys.init HeapConfig.cortexM Heap.unset).heap 128).map Prod.snd
          = some (some 0x2000040C) := by decide +kernel
    obtain ⟨⟨h', q⟩, heq, hq⟩ := Option.map_eq_some_iff.mp halloc
    obtain rfl : q = some 0x2000040C := hq
    exact ⟨_, _, h', heq, rfl, hout _ _ (by decide) (by decide) (by decide)⟩

end MiniRTOS
