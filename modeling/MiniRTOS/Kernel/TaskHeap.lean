import Mathlib.Data.List.TakeWhile
import MiniRTOS.Kernel.SchedCalls
import MiniRTOS.Kernel.StackImage

/-! # What a deletion frees

`os_task_create` takes the control block of a task from the heap, and the stack as well unless its
caller supplies one. The control block does not say where the stack came from: a deletion passes
every stack but the one of the idle task to `os_heap_free`, which looks at the word below it. When
that word has its top bit set, the supplied stack goes into the list of blocks.

* **`Heap.Tiled.osHeapFree_stray`** — freeing memory that is no block of the heap, and that looks
  like one, always damages the list of blocks.
* **`deletion_framed_iff`** — a deletion frees what the creation allocated and nothing else, exactly
  when the word below a supplied stack does not have that bit. -/

namespace MiniRTOS

open ByteMemory PtrList Runs Tiling Heap

variable {c : HeapConfig} {h h' : Heap} {bs l r : List Block} {a : Nat}

/-! ## Freeing what is not a block -/

/-- Merging with the next block leaves `px_block_list` alone and writes one header. -/
theorem coalesceNext_frame (c : HeapConfig) (h : Heap) (a : Nat) :
    (coalesceNext c h a).pxBlockList = h.pxBlockList ∧ Touched c [a] h.mem (coalesceNext c h a).mem := by
  unfold coalesceNext
  split
  · exact ⟨rfl, Touched.refl _ _⟩
  · split
    · exact ⟨rfl, Touched.trans (touched_setSizeWord c _ a _) (touched_setNext c _ a _)⟩
    · exact ⟨rfl, Touched.refl _ _⟩

/-- The range at `a` is apart from every header of the list. -/
def Heap.Stray (c : HeapConfig) (bs : List Block) (a : Nat) : Prop :=
  ∀ x ∈ bs, x.addr + c.header ≤ a ∨ a + c.header ≤ x.addr

/-- No block starts at a stray address. -/
theorem Heap.Stray.not_mem (hs : Stray c bs a) : a ∉ bs.map Block.addr := by
  intro hmem
  obtain ⟨x, hx, rfl⟩ := List.mem_map.mp hmem
  have := hs x hx
  have := c.header_ge
  omega

/-- A size word that is the sum of a size and a header does not show that size as free. -/
theorem sum_ne_size {n k w : Nat} (hw : w = n + c.header + k) (hlt : w < 2 ^ 32)
    (hsize : w &&& blockSizeMask = n) : (w &&& blockAllocatedBit != 0) = true := by
  have hge := c.header_ge
  rw [and_blockSizeMask] at hsize
  rw [and_blockAllocatedBit, Nat.testBit_eq_decide_div_mod_eq]
  have hbit : w / 2 ^ 31 % 2 = 1 := by omega
  rw [hbit]
  rfl

/-- The insertion behind `p` when `p` does not take in the new block: `p` leads to it. -/
theorem blocks_ne_of_next {p : Block} (hs : Stray c (l ++ p :: r) a)
    (hnext : next c h.mem p.addr = some a) : h.blocks c ≠ some (l ++ p :: r) := by
  intro hblocks
  obtain ⟨-, hpath, -⟩ := Tiled.of_readBlocks hblocks
  rw [List.map_append, List.map_cons] at hpath
  have hsome := hpath.next_of_append
  rw [Option.or_none, hnext] at hsome
  have hmem : a ∈ r.map Block.addr := List.mem_of_mem_head? hsome.symm
  apply hs.not_mem
  rw [List.map_append, List.map_cons]
  exact List.mem_append_right _ (List.mem_cons_of_mem _ hmem)

/-- The insertion behind a free block that takes in the new one: its size changes. -/
theorem blocks_ne_of_absorb {p : Block} {n : Nat} (hp : p ∈ bs) (hfree : p.used = false)
    (hsize : p.size ≤ heapSize) (hn : n < 2 ^ 31)
    (hword : sizeWord c h.mem p.addr = p.size + c.header + n) : h.blocks c ≠ some bs := by
  intro hblocks
  obtain ⟨-, -, hhdr⟩ := Tiled.of_readBlocks hblocks
  obtain ⟨hget, hused⟩ := hhdr p hp
  have hle := c.header_le
  have hlt : p.size + c.header + n < 2 ^ 32 := by
    simp only [heapSize] at hsize
    omega
  rw [prvBlockGetSize, hword] at hget
  rw [prvBlockIsAllocated, hword, sum_ne_size rfl hlt hget, hfree] at hused
  cases hused

/-- Linking a stray block behind `p`. -/
theorem Heap.Tiled.link_stray {p : Block} {q : Option Nat} (ht : Tiled c h (l ++ p :: r))
    (hs : Stray c (l ++ p :: r) a) (ha : a < 256 ^ c.ptrBytes) (hpos : 0 < a)
    (hh' : h' = link c { h with mem := setNext c h.mem a q } (some p.addr) (some a)) :
    next c h'.mem p.addr = some a ∧ sizeWord c h'.mem p.addr = wordOf p ∧
      next c h'.mem a = next c (setNext c h.mem a q) a := by
  have hp : p ∈ l ++ p :: r := by simp
  have happart := hs p hp
  subst hh'
  refine ⟨next_setNext fun x hx => ?_, ?_, ?_⟩
  · obtain rfl := Option.some.inj hx
    exact ⟨hpos, ha⟩
  · refine sizeWord_setNext.trans ?_
    rw [(touched_setNext c h.mem a q).sizeWord_eq, ht.word p hp]
    intro x hx
    rw [List.mem_singleton.mp hx]
    exact happart.symm
  · refine (touched_setNext c _ p.addr (some a)).next_eq fun x hx => ?_
    rw [List.mem_singleton.mp hx]
    exact happart

/-- A block that takes in the last one becomes the last one. -/
theorem absorb_end {p : Nat} (happart : p + c.header ≤ a ∨ a + c.header ≤ p)
    (hnext : next c h.mem a = none) :
    next c (absorb c h p a).mem p = none ∧
      (prvBlockGetSize c h.mem p + c.header + prvBlockGetSize c h.mem a < 256 ^ 4 →
        sizeWord c (absorb c h p a).mem p
          = prvBlockGetSize c h.mem p + c.header + prvBlockGetSize c h.mem a) := by
  have hkeep : ∀ w, next c (setSizeWord c h.mem p w) a = none := by
    intro w
    rw [(touched_setSizeWord c h.mem p w).next_eq, hnext]
    intro x hx
    rw [List.mem_singleton.mp hx]
    exact happart
  constructor
  · rw [absorb, hkeep]
    exact next_setNext fun x hx => by cases hx
  · intro hlt
    rw [absorb, hkeep]
    refine sizeWord_setNext.trans ?_
    exact sizeWord_setSizeWord hlt

/-- The merges that follow the linking of a stray block behind `p`. -/
theorem Heap.Tiled.merge_stray {p : Block} (ht : Tiled c h (l ++ p :: r))
    (hs : Stray c (l ++ p :: r) a) (ha : a < 256 ^ c.ptrBytes) (hpa : p.addr < a)
    (hr : ∀ x ∈ r.head?, a < x.addr)
    (hh' : h' = link c { h with mem := setNext c h.mem a (r.map Block.addr).head? } (some p.addr)
      (some a)) :
    (MiniRTOS.coalesceNext c (MiniRTOS.coalescePrev c h' (some p.addr) a).1
      (MiniRTOS.coalescePrev c h' (some p.addr) a).2).blocks c ≠ some (l ++ p :: r) := by
  have hp : p ∈ l ++ p :: r := by simp
  obtain ⟨hnext, hword, hnext'⟩ := ht.link_stray hs ha (by omega) hh'
  have hget : prvBlockGetSize c h'.mem p.addr = p.size := by
    rw [prvBlockGetSize, hword, wordOf_and_mask (ht.size_lt hp)]
  have hused : prvBlockIsAllocated c h'.mem p.addr = p.used := by
    rw [prvBlockIsAllocated, hword, wordOf_and_bit (ht.size_lt hp)]
  have hprev : MiniRTOS.coalescePrev c h' (some p.addr) a
      = if p.addr + c.header + p.size = a ∧ p.used = false then
          (MiniRTOS.absorb c h' p.addr a, p.addr)
        else (h', a) := by
    rw [MiniRTOS.coalescePrev, hget, hused]
  rw [hprev]
  split
  · next hjoin =>
      obtain ⟨hend, hfree⟩ := hjoin
      -- `p` is the last block, for a block behind it would start where the stray one does.
      obtain rfl : r = [] := by
        cases r with
        | nil => rfl
        | cons x r =>
            have hx := (tiles_mid.mp ht.tiles).2.1
            exact absurd (hx.trans hend) (Nat.ne_of_gt (hr x rfl))
      rw [next_setNext (fun x hx => by cases hx)] at hnext'
      obtain ⟨hlast, hsum⟩ := absorb_end (hs p hp) hnext'
      have hn : prvBlockGetSize c h'.mem a < 2 ^ 31 := by
        rw [prvBlockGetSize, and_blockSizeMask]
        exact Nat.mod_lt _ (by decide)
      have hsize := ht.size_le hp
      have hle := c.header_le
      have hlt : p.size + c.header + prvBlockGetSize c h'.mem a < 256 ^ 4 := by
        simp only [heapSize] at hsize
        omega
      rw [hget] at hsum
      rw [MiniRTOS.coalesceNext, hlast]
      exact blocks_ne_of_absorb hp hfree hsize hn (hsum hlt)
  · apply blocks_ne_of_next hs
    rw [(coalesceNext_frame c h' a).2.next_eq, hnext]
    intro x hx
    rw [List.mem_singleton.mp hx]
    exact (hs p hp).symm

/-- **Inserting a stray block** never gives back the same list of blocks. -/
theorem Heap.Tiled.prvInsertBlock_stray (ht : Tiled c h (l ++ r)) (hs : Stray c (l ++ r) a)
    (ha : a < 256 ^ c.ptrBytes) (hl : ∀ x ∈ l, x.addr < a) (hr : ∀ x ∈ r.head?, a < x.addr)
    (hins : prvInsertBlock c h a = some h') : h'.blocks c ≠ some (l ++ r) := by
  have hpath := ht.leads.2
  have hpx := ht.leads.1
  rw [Option.or_none] at hpx
  rw [List.map_append] at hpath hpx
  have hfind : findPosition c h.mem a heapSize none h.pxBlockList
      = some ((l.map Block.addr).getLast?, (r.map Block.addr).head?) := by
    rw [hpx, findPosition_eq none hpath, Option.or_none]
    · intro x hx
      obtain ⟨b, hb, rfl⟩ := List.mem_map.mp hx
      have := hl b hb
      omega
    · intro x hx
      rw [List.head?_map] at hx
      obtain ⟨b, hb, rfl⟩ := Option.map_eq_some_iff.mp hx
      exact hr b hb
    · have := ht.length_le
      simpa using this
  rw [prvInsertBlock, hfind] at hins
  obtain rfl := Option.some.inj hins
  rcases List.eq_nil_or_concat' l with rfl | ⟨l, p, rfl⟩
  · -- Below the first block, the list starts with the stray one.
    intro hblocks
    obtain ⟨hhead, -, -⟩ := Tiled.of_readBlocks hblocks
    apply hs.not_mem
    apply List.mem_of_mem_head?
    rw [← hhead]
    exact (coalesceNext_frame c _ a).1
  · rw [List.append_assoc, List.singleton_append] at ht hs ⊢
    rw [List.map_append, List.map_singleton, List.getLast?_concat]
    exact ht.merge_stray hs ha (hl p (by simp)) hr rfl

/-- **Freeing what is not a block**, but has the allocated bit below it, changes the list of blocks. -/
theorem Heap.Tiled.osHeapFree_stray (ht : Tiled c h bs) (hi : h.heapInitialized = true)
    (hs : Stray c bs a) (ha : a < 256 ^ c.ptrBytes) (hbit : prvBlockIsAllocated c h.mem a = true)
    (hfree : MiniRTOS.osHeapFree c h (some (a + c.header)) = some h') : h'.blocks c ≠ some bs := by
  set h₀ : Heap := { h with
    freeBytesRemaining := h.freeBytesRemaining + BitVec.ofNat 32 (prvBlockGetSize c h.mem a)
    mem := prvBlockSetFree c h.mem a } with hh₀
  have htouch : Touched c [a] h.mem h₀.mem := prvBlockSetFree_spec.2.2
  have ht₀ : Tiled c h₀ bs := by
    refine ht.congr rfl fun b hb x hx hx' => htouch x fun y hy => ?_
    have := hs b hb
    rw [List.mem_singleton.mp hy]
    omega
  have hremove : removeBlock c h₀ a heapSize none h₀.pxBlockList = some h₀ := by
    have hpx := ht₀.leads.1
    rw [Option.or_none] at hpx
    rw [hpx]
    exact removeBlock_of_not_mem none ht₀.leads.2 hs.not_mem (by simpa using ht₀.length_le)
  have hguard : ¬ (h.heapInitialized = false ∨ prvBlockIsAllocated c h.mem a = false) := by
    simp [hi, hbit]
  simp only [MiniRTOS.osHeapFree, Nat.add_sub_cancel, if_neg hguard] at hfree
  rw [← hh₀, hremove, Option.bind_some] at hfree
  -- The insertion stops between the blocks below the stray one and those above it.
  have hsplit : bs.takeWhile (fun x => decide (x.addr < a))
      ++ bs.dropWhile (fun x => decide (x.addr < a)) = bs := List.takeWhile_append_dropWhile
  rw [← hsplit] at ht₀ hs ⊢
  refine ht₀.prvInsertBlock_stray hs ha (fun x hx => ?_) (fun x hx => ?_) hfree
  · simpa using List.mem_takeWhile_imp hx
  · have hmem := List.mem_of_mem_head? hx
    have hnot : ¬ x.addr < a := by
      have := List.head?_dropWhile_not (fun x : Block => decide (x.addr < a)) bs
      rw [hx] at this
      simpa using this
    have := hs x (List.mem_append_right _ hmem)
    have := c.header_ge
    omega

/-! ## Tasks and their memory -/

/-- The memory of a task that `os_task_create` has made. -/
structure TaskBlocks where
  /-- The control block. -/
  tcb : Addr
  /-- `stack_base`. -/
  stackBase : Addr
  /-- The argument `stack_buf`. -/
  stackBuf : Option Addr
  deriving DecidableEq

/-- The heap blocks that `os_task_create` has allocated for the task. -/
def TaskBlocks.allocated (τ : TaskBlocks) : List Addr :=
  if τ.stackBuf = none then [τ.stackBase, τ.tcb] else [τ.tcb]

/-- The pointers that a deletion passes to `os_heap_free`, in order. -/
def TaskBlocks.frees (τ : TaskBlocks) : List Addr :=
  if τ.stackBase ≠ idleTaskStack then [τ.stackBase, τ.tcb] else [τ.tcb]

/-- **A heap with tasks.** -/
structure TaskHeap where
  /-- The heap. -/
  heap : HeapSys
  /-- The tasks that were created and not deleted. -/
  tasks : List TaskBlocks

/-- What happens to the memory of tasks. -/
inductive TaskHeapOp
  /-- `os_task_create` with valid parameters. -/
  | create (func param : BitVec 32) (stackBuf : Option Addr) (stackSize : Nat)
  /-- The deletion of a task. -/
  | delete (τ : TaskBlocks)
  /-- Another use of the heap. -/
  | heap (op : HeapOp)
  /-- A write to memory that is not the heap's. -/
  | poke (a : Addr) (bytes : List UInt8)

/-- Call `os_heap_free` on each pointer. -/
def freeAll (c : HeapConfig) (s : HeapSys) : List Addr → Option HeapSys
  | [] => some s
  | p :: ps => (heapStep c s (.free (some p))).bind fun s => freeAll c s ps

/-- The heap calls of `os_task_create`: a stack unless the caller has one, a control block of
`sizeof(os_tcb_t)` bytes, and back with the stack when there is no room for the control block. -/
def createAllocs (c : HeapConfig) (tcbBytes : Nat) (s : HeapSys) (stackBuf : Option Addr)
    (stackSize : Nat) : Option (HeapSys × Option (Addr × Addr)) :=
  let withStack (s : HeapSys) (stack : Addr) : Option (HeapSys × Option (Addr × Addr)) :=
    (osHeapAlloc c s.heap tcbBytes).bind fun (h, tcb) =>
      match tcb with
      | none =>
          if stackBuf = none then (heapStep c ⟨h, s.live⟩ (.free (some stack))).map (⟨·, none⟩)
          else some (⟨h, s.live⟩, none)
      | some t => some (⟨h, t :: s.live⟩, some (stack, t))
  match stackBuf with
  | some buf => withStack s buf
  | none =>
      (osHeapAlloc c s.heap stackSize).bind fun (h, stack) =>
        match stack with
        | none => some (⟨h, s.live⟩, none)
        | some stack => withStack ⟨h, stack :: s.live⟩ stack

/-- A new stack is written. -/
def HeapSys.writeStack (c : HeapConfig) (s : HeapSys) (func param : BitVec 32) (stack : Addr)
    (stackSize : Nat) : HeapSys :=
  { s with heap := { s.heap with mem := stackImage c s.heap.mem func param stack stackSize } }

/-- `os_task_create` on the heap: the two allocations, and then the pattern and the frame of the stack. The
fields of the control block lie inside its own block, where anybody may write (`HeapOp.write`). -/
def createBlocks (c : HeapConfig) (tcbBytes : Nat) (σ : TaskHeap) (func param : BitVec 32)
    (stackBuf : Option Addr) (stackSize : Nat) : Option TaskHeap :=
  (createAllocs c tcbBytes σ.heap stackBuf stackSize).map fun (s, made) =>
    match made with
    | none => ⟨s, σ.tasks⟩
    | some (stack, t) => ⟨s.writeStack c func param stack stackSize, ⟨t, stack, stackBuf⟩ :: σ.tasks⟩

/-- **One step.** -/
def taskHeapStep (c : HeapConfig) (tcbBytes : Nat) (σ : TaskHeap) : TaskHeapOp → Option TaskHeap
  | .create func param buf size => createBlocks c tcbBytes σ func param buf size
  | .delete τ => (freeAll c σ.heap τ.frees).map fun s => ⟨s, σ.tasks.erase τ⟩
  | .heap op => (heapStep c σ.heap op).map fun s => ⟨s, σ.tasks⟩
  | .poke a bytes =>
      some ⟨⟨{ σ.heap.heap with mem := writeBytes σ.heap.heap.mem a bytes }, σ.heap.live⟩, σ.tasks⟩

/-- The pointer that a heap call gives back. -/
def HeapOp.releases : HeapOp → Option Addr
  | .free ptr => ptr
  | .realloc ptr _ => ptr
  | _ => none

/-- **No allocated bit below a supplied stack**, as `os_heap_free` looks for it. The stack of the idle
task is never freed. -/
def TaskBlocks.Unmarked (c : HeapConfig) (h : Heap) (τ : TaskBlocks) : Prop :=
  ∀ buf ∈ τ.stackBuf, buf = idleTaskStack ∨ prvBlockIsAllocated c h.mem (buf - c.header) = false

/-- **What the environment may do**: it deletes tasks that exist, gives back its own allocations only, and
writes outside the heap what it likes. -/
def TaskHeapOp.Legal (c : HeapConfig) (σ : TaskHeap) : TaskHeapOp → Prop
  | .create .. => True
  | .delete τ => τ ∈ σ.tasks
  | .heap op => op.Allowed c σ.heap ∧ ∀ p ∈ op.releases, ∀ τ ∈ σ.tasks, p ∉ τ.allocated
  | .poke a bytes => a + bytes.length ≤ c.start ∨ c.start + heapSize ≤ a

/-- **The steps that keep the list of blocks**: a creation writes its stack off the headers, and no allocated
bit stands below a supplied stack when its task is deleted. -/
def TaskHeapOp.KeepsList (c : HeapConfig) (tcbBytes : Nat) (σ : TaskHeap) : TaskHeapOp → Prop
  | .create _ _ buf size => ∀ r ∈ createAllocs c tcbBytes σ.heap buf size, ∀ made ∈ r.2,
      ∀ bs ∈ r.1.heap.blocks c, OffHeaders c bs made.1 size
  | .delete τ => τ.Unmarked c σ.heap.heap
  | _ => True

/-- The steps of the runs below. -/
def TaskHeapOp.Permitted (c : HeapConfig) (tcbBytes : Nat) (σ : TaskHeap) (op : TaskHeapOp) : Prop :=
  op.Legal c σ ∧ op.KeepsList c tcbBytes σ

/-- Whether no supplied stack has an allocated bit below it can be decided. -/
instance TaskBlocks.decidableUnmarked (c : HeapConfig) (h : Heap) (τ : TaskBlocks) :
    Decidable (τ.Unmarked c h) :=
  inferInstanceAs (Decidable (∀ buf ∈ τ.stackBuf, _ ∨ _))

/-- Whether a step is legal can be decided. -/
instance TaskHeapOp.decidableLegal (c : HeapConfig) (σ : TaskHeap) :
    (op : TaskHeapOp) → Decidable (op.Legal c σ)
  | .create .. => inferInstanceAs (Decidable True)
  | .delete _ => inferInstanceAs (Decidable (_ ∈ _))
  | .heap op => inferInstanceAs (Decidable (op.Allowed c σ.heap ∧ ∀ p ∈ op.releases, _))
  | .poke .. => inferInstanceAs (Decidable (_ ∨ _))

/-- Whether a creation keeps the list of the heap can be decided. -/
instance TaskHeapOp.decidableKeepsList (c : HeapConfig) (tcbBytes : Nat) (σ : TaskHeap) :
    (op : TaskHeapOp) → Decidable (op.KeepsList c tcbBytes σ)
  | .create _ _ buf size => inferInstanceAs (Decidable (∀ r ∈ createAllocs c tcbBytes σ.heap buf size,
      ∀ made ∈ r.2, ∀ bs ∈ r.1.heap.blocks c, OffHeaders c bs made.1 size))
  | .delete τ => inferInstanceAs (Decidable (τ.Unmarked c σ.heap.heap))
  | .heap _ => inferInstanceAs (Decidable True)
  | .poke .. => inferInstanceAs (Decidable True)

/-- Whether a step is permitted can be decided. -/
instance TaskHeapOp.decidablePermitted (c : HeapConfig) (tcbBytes : Nat) (σ : TaskHeap) (op : TaskHeapOp) :
    Decidable (op.Permitted c tcbBytes σ) :=
  inferInstanceAs (Decidable (_ ∧ _))

/-! ## The invariant -/

/-- The blocks that were allocated for the tasks. -/
def TaskHeap.owned (σ : TaskHeap) : List Addr := σ.tasks.flatMap TaskBlocks.allocated

/-- **The memory of the tasks is theirs**: the heap is in order, and the blocks allocated for the
tasks are live and belong to one task each. -/
structure TaskHeapInv (c : HeapConfig) (σ : TaskHeap) (bs : List Block) : Prop where
  /-- The heap. -/
  heap : HeapInv c σ.heap bs
  /-- No block belongs to two tasks. -/
  nodup : σ.owned.Nodup
  /-- The blocks of tasks are live. -/
  live : ∀ p ∈ σ.owned, p ∈ σ.heap.live
  /-- A supplied stack is the stack. -/
  base : ∀ τ ∈ σ.tasks, ∀ buf ∈ τ.stackBuf, τ.stackBase = buf

variable {σ σ' : TaskHeap} {τ : TaskBlocks} {tcbBytes : Nat} {s : HeapSys}

/-- A call leaves the live allocations that it is not about. -/
theorem HeapInv.live_of_keeps {s' : HeapSys} {bs' : List Block} {q : Option Nat} {p : Addr}
    (hI : HeapInv c s bs) (hI' : HeapInv c s' bs') (hkeep : KeepsData c q s.heap bs s'.heap bs')
    (hp : p ∈ s.live) (hne : some p ≠ q) : p ∈ s'.live := by
  obtain ⟨b, hb, hu, rfl⟩ := (hI.live p).mp hp
  exact (hI'.live _).mpr ⟨b, (hkeep b hb hu hne).1, hu, rfl⟩

/-- A live allocation lies in the heap, behind a header with the allocated bit. -/
theorem HeapInv.of_live {p : Nat} (hI : HeapInv c s bs) (hp : p ∈ s.live) :
    c.start ≤ p ∧ p ≤ c.start + heapSize ∧ prvBlockIsAllocated c s.heap.mem (p - c.header) = true := by
  obtain ⟨b, hb, hu, rfl⟩ := (hI.live p).mp hp
  have hbounds := hI.tiled.tiles.bounds hb
  have hblock : b.data c.header - c.header = b.addr := Nat.add_sub_cancel ..
  rw [hblock, hI.tiled.isAllocated hb]
  rw [Block.finish] at hbounds
  have hdata : b.data c.header = b.addr + c.header := rfl
  exact ⟨by omega, by omega, hu⟩

/-! ## Deletions -/

/-- The block at `p` is given back, and nothing else happens to the list. -/
def Released (c : HeapConfig) (p : Addr) (bs bs' : List Block) : Prop :=
  ∃ l b r, bs = l ++ b :: r ∧ b.data c.header = p ∧ b.used = true ∧ bs' = release c.header l b r

/-- **Calls of `os_heap_free` that free these blocks only**: each call returns; it releases the block
it is called on when that is one of `blocks`, and leaves the list of blocks alone otherwise. -/
def FreesOnly (c : HeapConfig) (blocks : List Addr) : Heap → List Addr → Prop
  | _, [] => True
  | h, p :: ps => ∃ bs h' bs', h.blocks c = some bs ∧ osHeapFree c h (some p) = some h' ∧
      h'.blocks c = some bs' ∧ (if p ∈ blocks then Released c p bs bs' else bs' = bs) ∧
      FreesOnly c blocks h' ps

/-- **The frees of a deletion are framed**: the blocks that were allocated for the task are freed, and
the list of blocks does not change otherwise. -/
def TaskBlocks.Framed (c : HeapConfig) (h : Heap) (τ : TaskBlocks) (frees : List Addr) : Prop :=
  FreesOnly c τ.allocated h frees ∧ ∀ p ∈ τ.allocated, p ∈ frees

/-- Freeing one live block. -/
theorem HeapInv.freesOnly_cons {p : Addr} (ps blocks : List Addr) (hI : HeapInv c s bs)
    (hp : p ∈ s.live) (hmem : p ∈ blocks) :
    ∃ s' bs', heapStep c s (.free (some p)) = some s' ∧ HeapInv c s' bs' ∧ s'.live = s.live.erase p ∧
      (FreesOnly c blocks s'.heap ps → FreesOnly c blocks s.heap (p :: ps)) := by
  obtain ⟨h', bs', heq, hI', -, l, b, r, hbs, hb, hu, hbs', -, -⟩ := hI.free hp
  refine ⟨⟨h', s.live.erase p⟩, bs', ?_, hI', rfl, fun hps => ?_⟩
  · rw [heapStep, heq]
    rfl
  · refine ⟨bs, h', bs', hI.tiled.blocks_eq, heq, hI'.tiled.blocks_eq, ?_, hps⟩
    rw [if_pos hmem]
    exact ⟨l, b, r, hbs, hb, hu, hbs'⟩

/-- Freeing a pointer without an allocated bit below it. -/
theorem HeapInv.freesOnly_unmarked {p : Addr} (ps : List Addr) {blocks : List Addr} (hI : HeapInv c s bs)
    (hbit : prvBlockIsAllocated c s.heap.mem (p - c.header) = false) (hmem : p ∉ blocks) :
    heapStep c s (.free (some p)) = some s ∧
      (FreesOnly c blocks s.heap ps → FreesOnly c blocks s.heap (p :: ps)) := by
  have heq : osHeapFree c s.heap (some p) = some s.heap := by
    rw [osHeapFree]
    exact if_pos (Or.inr hbit)
  have hdead : p ∉ s.live := fun hp => by
    have := (hI.of_live hp).2.2
    rw [hbit] at this
    cases this
  constructor
  · rw [heapStep, heq]
    show some (HeapSys.mk s.heap (s.live.erase p)) = some s
    rw [List.erase_of_not_mem hdead]
  · intro hps
    refine ⟨bs, s.heap, bs, hI.tiled.blocks_eq, heq, hI.tiled.blocks_eq, ?_, hps⟩
    rw [if_neg hmem]

/-- A deletion frees the control block last. -/
theorem TaskBlocks.tcb_mem_frees (τ : TaskBlocks) : τ.tcb ∈ τ.frees := by
  rw [TaskBlocks.frees]
  split <;> simp

/-- **The frees of a task whose stack was supplied.** -/
theorem HeapInv.delete_supplied {buf : Addr} (hI : HeapInv c s bs) (hbuf : τ.stackBuf = some buf)
    (hbase : τ.stackBase = buf) (htcb : τ.tcb ∈ s.live) (hun : τ.Unmarked c s.heap) :
    ∃ s' bs', freeAll c s τ.frees = some s' ∧ HeapInv c s' bs' ∧
      (∀ p ∈ s.live, p ∉ τ.allocated → p ∈ s'.live) ∧ τ.Framed c s.heap τ.frees := by
  have hall : τ.allocated = [τ.tcb] := by rw [TaskBlocks.allocated, hbuf, if_neg (by simp)]
  obtain ⟨s', bs', hs', hI', hlive, hframe⟩ :=
    hI.freesOnly_cons [] [τ.tcb] htcb (List.mem_singleton_self τ.tcb)
  have htail : freeAll c s [τ.tcb] = some s' := by rw [freeAll, hs', Option.bind_some, freeAll]
  have hfrees : freeAll c s τ.frees = some s' ∧ FreesOnly c [τ.tcb] s.heap τ.frees := by
    by_cases hidle : τ.stackBase ≠ idleTaskStack
    · have hbit := (hun buf hbuf).resolve_left (hbase ▸ hidle)
      have hne : buf ∉ [τ.tcb] := fun hm => by
        have := (hI.of_live htcb).2.2
        rw [← List.mem_singleton.mp hm, hbit] at this
        cases this
      obtain ⟨hstep, hskip⟩ := hI.freesOnly_unmarked [τ.tcb] hbit hne
      rw [TaskBlocks.frees, if_pos hidle, hbase, freeAll, hstep, Option.bind_some]
      exact ⟨htail, hskip (hframe trivial)⟩
    · rw [TaskBlocks.frees, if_neg hidle]
      exact ⟨htail, hframe trivial⟩
  refine ⟨s', bs', hfrees.1, hI', fun p hp hne => ?_, ?_, fun p hp => ?_⟩
  · rw [hlive, hI.nodup.mem_erase_iff]
    exact ⟨fun hpt => hne (by simp [hall, hpt]), hp⟩
  · rw [hall]
    exact hfrees.2
  · rw [hall] at hp
    exact List.mem_singleton.mp hp ▸ τ.tcb_mem_frees

/-- **The frees of a task whose stack was allocated.** -/
theorem HeapInv.delete_allocated (hI : HeapInv c s bs) (hbuf : τ.stackBuf = none)
    (hidle : τ.stackBase ≠ idleTaskStack) (hne : τ.stackBase ≠ τ.tcb)
    (hstack : τ.stackBase ∈ s.live) (htcb : τ.tcb ∈ s.live) :
    ∃ s' bs', freeAll c s τ.frees = some s' ∧ HeapInv c s' bs' ∧
      (∀ p ∈ s.live, p ∉ τ.allocated → p ∈ s'.live) ∧ τ.Framed c s.heap τ.frees := by
  have hall : τ.allocated = [τ.stackBase, τ.tcb] := by rw [TaskBlocks.allocated, if_pos hbuf]
  have hfrees : τ.frees = [τ.stackBase, τ.tcb] := by rw [TaskBlocks.frees, if_pos hidle]
  obtain ⟨s₁, bs₁, hs₁, hI₁, hlive₁, hframe₁⟩ :=
    hI.freesOnly_cons [τ.tcb] [τ.stackBase, τ.tcb] hstack (by simp)
  have htcb₁ : τ.tcb ∈ s₁.live := by
    rw [hlive₁, hI.nodup.mem_erase_iff]
    exact ⟨hne.symm, htcb⟩
  obtain ⟨s₂, bs₂, hs₂, hI₂, hlive₂, hframe₂⟩ :=
    hI₁.freesOnly_cons [] [τ.stackBase, τ.tcb] htcb₁ (by simp)
  refine ⟨s₂, bs₂, ?_, hI₂, fun p hp hnot => ?_, ?_, fun p hp => ?_⟩
  · rw [hfrees, freeAll, hs₁, Option.bind_some, freeAll, hs₂, Option.bind_some, freeAll]
  · rw [hall, List.mem_cons, List.mem_singleton, not_or] at hnot
    rw [hlive₂, hI₁.nodup.mem_erase_iff, hlive₁, hI.nodup.mem_erase_iff]
    exact ⟨hnot.2, hnot.1, hp⟩
  · rw [hall, hfrees]
    exact hframe₁ (hframe₂ trivial)
  · rwa [hfrees, ← hall]

/-! ## Creations -/

section Allocs

variable {tcbBytes n : Nat} {h₁ h₂ h₃ : Heap} {stack t : Addr}

/-- The stack is there already, and the control block is found or not. -/
theorem createAllocs_supplied {tcb : Option Addr} (stack : Addr)
    (htcb : osHeapAlloc c s.heap tcbBytes = some (h₁, tcb)) :
    createAllocs c tcbBytes s (some stack) n
      = some (⟨h₁, tcb.toList ++ s.live⟩, tcb.map fun t => (stack, t)) := by
  cases tcb <;> simp [createAllocs, htcb]

/-- There is no room for the stack. -/
theorem createAllocs_noStack (hstack : osHeapAlloc c s.heap n = some (h₁, none)) :
    createAllocs c tcbBytes s none n = some (⟨h₁, s.live⟩, none) := by
  simp only [createAllocs, hstack, Option.bind_some]

/-- There is room for the stack but not for the control block, and the stack goes back. -/
theorem createAllocs_rolledBack (hstack : osHeapAlloc c s.heap n = some (h₁, some stack))
    (htcb : osHeapAlloc c h₁ tcbBytes = some (h₂, none))
    (hfree : osHeapFree c h₂ (some stack) = some h₃) :
    createAllocs c tcbBytes s none n = some (⟨h₃, s.live⟩, none) := by
  simp [createAllocs, hstack, htcb, heapStep, hfree]

/-- There is room for both. -/
theorem createAllocs_both (hstack : osHeapAlloc c s.heap n = some (h₁, some stack))
    (htcb : osHeapAlloc c h₁ tcbBytes = some (h₂, some t)) :
    createAllocs c tcbBytes s none n = some (⟨h₂, t :: stack :: s.live⟩, some (stack, t)) := by
  simp only [createAllocs, hstack, htcb, Option.bind_some]

end Allocs

/-- A stack written off the headers leaves the heap in order. -/
theorem HeapInv.writeStack {stack : Addr} {stackSize : Nat} (hI : HeapInv c s bs)
    (hoff : OffHeaders c bs stack stackSize) (func param : BitVec 32) :
    HeapInv c (s.writeStack c func param stack stackSize) bs :=
  ⟨hI.initialized, hI.tiled.stackImage hoff func param, hI.coalesced, hI.nodup, hI.live⟩

/-- What the allocations of a creation have to give, for the stack and the control block. -/
def FreshFor (s s' : HeapSys) (τ : TaskBlocks) : Prop :=
  (∀ p ∈ τ.allocated, p ∈ s'.live ∧ p ∉ s.live) ∧ τ.allocated.Nodup ∧
    ∀ buf ∈ τ.stackBuf, τ.stackBase = buf

/-- **The allocations of a creation** return and leave the heap in order; what they hand out is new. -/
theorem HeapInv.createAllocs (hI : HeapInv c s bs) (tcbBytes : Nat) (stackBuf : Option Addr)
    (stackSize : Nat) :
    ∃ s' made bs', MiniRTOS.createAllocs c tcbBytes s stackBuf stackSize = some (s', made) ∧
      HeapInv c s' bs' ∧ (∀ p ∈ s.live, p ∈ s'.live) ∧
      ∀ stack t, made = some (stack, t) → FreshFor s s' ⟨t, stack, stackBuf⟩ := by
  cases stackBuf with
  | some buf =>
      obtain ⟨h', tcb, bs', heq, hI', -, -, -, -, hnew⟩ := hI.alloc tcbBytes
      refine ⟨_, _, bs', createAllocs_supplied buf heq, hI', fun p hp => List.mem_append_right _ hp,
        fun stack t hmade => ?_⟩
      obtain ⟨t', rfl, hpair⟩ := Option.map_eq_some_iff.mp hmade
      obtain ⟨rfl, rfl⟩ := Prod.mk.inj hpair
      refine ⟨fun p hp => ?_, List.nodup_singleton _, fun b hb => Option.some.inj hb⟩
      obtain rfl := List.mem_singleton.mp hp
      exact ⟨List.mem_cons_self, (hnew p rfl).1⟩
  | none =>
      obtain ⟨h₁, st, bs₁, heq₁, hI₁, -, -, -, -, hnew₁⟩ := hI.alloc stackSize
      cases st with
      | none =>
          exact ⟨_, _, bs₁, createAllocs_noStack heq₁, hI₁, fun p hp => hp, fun _ _ h => by cases h⟩
      | some st =>
          have hst := (hnew₁ st rfl).1
          obtain ⟨h₂, t, bs₂, heq₂, hI₂, -, -, -, -, hnew₂⟩ := hI₁.alloc tcbBytes
          simp only [Option.toList_some, List.singleton_append] at heq₂ hI₂ hnew₂
          cases t with
          | none =>
              -- no room for the control block: the stack goes back
              obtain ⟨h₃, bs₃, heq₃, hI₃, -, -⟩ := hI₂.free (p := st) List.mem_cons_self
              have hlive : (none.toList ++ st :: s.live).erase st = s.live := List.erase_cons_head ..
              rw [hlive] at hI₃
              exact ⟨_, _, bs₃, createAllocs_rolledBack heq₁ heq₂ heq₃, hI₃, fun p hp => hp,
                fun _ _ h => by cases h⟩
          | some t =>
              have ht := (hnew₂ t rfl).1
              rw [List.mem_cons, not_or] at ht
              refine ⟨_, _, bs₂, createAllocs_both heq₁ heq₂, hI₂, fun p hp => by simp [hp],
                fun stack t' hmade => ?_⟩
              obtain ⟨rfl, rfl⟩ := Prod.mk.inj (Option.some.inj hmade)
              refine ⟨fun p hp => ?_, ?_, fun b hb => ?_⟩
              · rcases List.mem_cons.mp hp with rfl | hp
                · exact ⟨by simp, hst⟩
                · obtain rfl := List.mem_singleton.mp hp
                  exact ⟨by simp, ht.2⟩
              · simpa [TaskBlocks.allocated] using Ne.symm ht.1
              · cases hb

namespace TaskHeapInv

/-- The blocks of a task are live. -/
theorem live_allocated (hI : TaskHeapInv c σ bs) (hτ : τ ∈ σ.tasks) {p : Addr} (hp : p ∈ τ.allocated) :
    p ∈ σ.heap.live := hI.live p (List.mem_flatMap_of_mem hτ hp)

/-- **A deletion under the condition** is framed and keeps the invariant. -/
theorem delete (hI : TaskHeapInv c σ bs)
    (hidle : idleTaskStack < c.start ∨ c.start + heapSize < idleTaskStack) (hτ : τ ∈ σ.tasks)
    (hun : τ.Unmarked c σ.heap.heap) :
    ∃ s' bs', freeAll c σ.heap τ.frees = some s' ∧ TaskHeapInv c ⟨s', σ.tasks.erase τ⟩ bs' ∧
      τ.Framed c σ.heap.heap τ.frees := by
  have hperm : σ.owned.Perm (τ.allocated ++ (TaskHeap.mk σ.heap (σ.tasks.erase τ)).owned) :=
    (List.perm_cons_erase hτ).flatMap_right _
  have hnodup := hperm.nodup_iff.mp hI.nodup
  obtain ⟨s', bs', hs', hI', hlive, hframe⟩ : ∃ s' bs', freeAll c σ.heap τ.frees = some s' ∧
      HeapInv c s' bs' ∧ (∀ p ∈ σ.heap.live, p ∉ τ.allocated → p ∈ s'.live) ∧
      τ.Framed c σ.heap.heap τ.frees := by
    have hlive : ∀ p ∈ τ.allocated, p ∈ σ.heap.live := fun p hp => hI.live_allocated hτ hp
    cases hbuf : τ.stackBuf with
    | none =>
        have hall : τ.allocated = [τ.stackBase, τ.tcb] := by rw [TaskBlocks.allocated, if_pos hbuf]
        rw [hall] at hlive hnodup
        have hstack := hlive τ.stackBase (by simp)
        have hbounds := hI.heap.of_live hstack
        apply hI.heap.delete_allocated hbuf _ _ hstack (hlive τ.tcb (by simp))
        · intro heq
          rw [heq] at hbounds
          rcases hidle with hlt | hlt
          · exact Nat.not_le_of_lt hlt hbounds.1
          · exact Nat.not_le_of_lt hlt hbounds.2.1
        · exact fun heq => by simp [heq] at hnodup
    | some buf =>
        have hall : τ.allocated = [τ.tcb] := by rw [TaskBlocks.allocated, hbuf, if_neg (by simp)]
        exact hI.heap.delete_supplied hbuf (hI.base τ hτ buf hbuf) (hlive τ.tcb (by simp [hall])) hun
  refine ⟨s', bs', hs', ⟨hI', (List.nodup_append.mp hnodup).2.1, fun p hp => ?_, fun τ' hτ' => ?_⟩,
    hframe⟩
  · refine hlive p (hI.live p (hperm.mem_iff.mpr (List.mem_append_right _ hp))) fun hmem => ?_
    exact (List.nodup_append.mp hnodup).2.2 p hmem p hp rfl
  · exact hI.base τ' (List.mem_of_mem_erase hτ')

/-- A step that leaves the tasks and their blocks. -/
theorem keep {s' : HeapSys} {bs' : List Block} (hI : TaskHeapInv c σ bs) (hI' : HeapInv c s' bs')
    (hlive : ∀ p ∈ σ.owned, p ∈ s'.live) : TaskHeapInv c ⟨s', σ.tasks⟩ bs' :=
  ⟨hI', hI.nodup, hlive, hI.base⟩

/-- A new task with fresh blocks. -/
theorem born {s' : HeapSys} {bs' : List Block} (hI : TaskHeapInv c σ bs) (hI' : HeapInv c s' bs')
    (hlive : ∀ p ∈ σ.heap.live, p ∈ s'.live) (hnew : ∀ p ∈ τ.allocated, p ∈ s'.live ∧ p ∉ σ.heap.live)
    (hnodup : τ.allocated.Nodup) (hbase : ∀ buf ∈ τ.stackBuf, τ.stackBase = buf) :
    TaskHeapInv c ⟨s', τ :: σ.tasks⟩ bs' := by
  have howned : (TaskHeap.mk s' (τ :: σ.tasks)).owned = τ.allocated ++ σ.owned := List.flatMap_cons ..
  refine ⟨hI', ?_, fun p hp => ?_, fun τ' hτ' => ?_⟩
  · rw [howned, List.nodup_append]
    refine ⟨hnodup, hI.nodup, fun p hp q hq hpq => (hnew p hp).2 ?_⟩
    exact hpq ▸ hI.live q hq
  · rw [howned, List.mem_append] at hp
    rcases hp with hp | hp
    · exact (hnew p hp).1
    · exact hlive p (hI.live p hp)
  · rcases List.mem_cons.mp hτ' with rfl | hτ'
    · exact hbase
    · exact hI.base τ' hτ'

/-- **A creation** off the headers returns and keeps the invariant. -/
theorem create (hI : TaskHeapInv c σ bs) (tcbBytes : Nat) (func param : BitVec 32)
    (stackBuf : Option Addr) (stackSize : Nat)
    (hoff : (TaskHeapOp.create func param stackBuf stackSize).KeepsList c tcbBytes σ) :
    ∃ σ' bs', createBlocks c tcbBytes σ func param stackBuf stackSize = some σ' ∧
      TaskHeapInv c σ' bs' := by
  obtain ⟨s', made, bs', heq, hI', hlive, hmade⟩ := hI.heap.createAllocs tcbBytes stackBuf stackSize
  cases made with
  | none =>
      refine ⟨⟨s', σ.tasks⟩, bs', ?_, hI.keep hI' fun p hp => hlive p (hI.live p hp)⟩
      rw [createBlocks, heq]
      rfl
  | some made =>
      obtain ⟨stack, t⟩ := made
      obtain ⟨hnew, hnodup, hbase⟩ := hmade stack t rfl
      have hmiss : OffHeaders c bs' stack stackSize := hoff _ heq _ rfl bs' hI'.tiled.blocks_eq
      refine ⟨⟨s'.writeStack c func param stack stackSize, ⟨t, stack, stackBuf⟩ :: σ.tasks⟩, bs', ?_, ?_⟩
      · rw [createBlocks, heq]
        rfl
      · exact hI.born (hI'.writeStack hmiss func param) hlive hnew hnodup hbase

/-- A write outside the heap. -/
theorem poke {bytes : List UInt8} (hI : TaskHeapInv c σ bs)
    (hout : a + bytes.length ≤ c.start ∨ c.start + heapSize ≤ a) :
    TaskHeapInv c
      ⟨⟨{ σ.heap.heap with mem := writeBytes σ.heap.heap.mem a bytes }, σ.heap.live⟩, σ.tasks⟩ bs := by
  have htiled : Tiled c { σ.heap.heap with mem := writeBytes σ.heap.heap.mem a bytes } bs := by
    refine hI.heap.tiled.congr rfl fun b hb x hx hx' => writeBytes_of_not_mem _ ?_
    have hbounds := hI.heap.tiled.tiles.bounds hb
    rw [Block.finish] at hbounds
    omega
  exact hI.keep ⟨hI.heap.initialized, htiled, hI.heap.coalesced, hI.heap.nodup, hI.heap.live⟩ hI.live

/-- Another use of the heap. -/
theorem heapOp {op : HeapOp} (hI : TaskHeapInv c σ bs) (hop : op.Allowed c σ.heap)
    (hrel : ∀ p ∈ op.releases, ∀ τ ∈ σ.tasks, p ∉ τ.allocated) :
    ∃ s' bs', heapStep c σ.heap op = some s' ∧ TaskHeapInv c ⟨s', σ.tasks⟩ bs' := by
  obtain ⟨s', bs', hs', hI', hkeep, -⟩ := hI.heap.step hop
  refine ⟨s', bs', hs', hI.keep hI' fun p hp => ?_⟩
  have hlive := hI.live p hp
  cases op with
  | write q off bytes =>
      obtain rfl := Option.some.inj hs'
      exact hlive
  | alloc n => exact hI.heap.live_of_keeps hI' hkeep hlive (by simp [HeapOp.target])
  | free ptr | realloc ptr n =>
      refine hI.heap.live_of_keeps hI' hkeep hlive fun heq => ?_
      obtain ⟨τ, hτ, hpτ⟩ := List.mem_flatMap.mp hp
      exact hrel p heq.symm τ hτ hpτ

/-- **Every permitted step** returns and keeps the invariant. -/
theorem step {op : TaskHeapOp} (hI : TaskHeapInv c σ bs)
    (hidle : idleTaskStack < c.start ∨ c.start + heapSize < idleTaskStack)
    (hop : op.Permitted c tcbBytes σ) :
    ∃ σ' bs', taskHeapStep c tcbBytes σ op = some σ' ∧ TaskHeapInv c σ' bs' := by
  obtain ⟨hlegal, hkeep⟩ := hop
  cases op with
  | create func param buf size => exact hI.create tcbBytes func param buf size hkeep
  | delete τ =>
      obtain ⟨s', bs', hs', hI', -⟩ := hI.delete hidle hlegal hkeep
      refine ⟨_, bs', ?_, hI'⟩
      rw [taskHeapStep, hs', Option.map_some]
  | heap op =>
      obtain ⟨s', bs', hs', hI'⟩ := hI.heapOp hlegal.1 hlegal.2
      refine ⟨_, bs', ?_, hI'⟩
      rw [taskHeapStep, hs', Option.map_some]
  | poke a bytes => exact ⟨_, bs, rfl, hI.poke hlegal⟩

end TaskHeapInv

/-- The heap after `os_heap_init`, with no tasks. -/
def TaskHeap.init (c : HeapConfig) (h : Heap) : TaskHeap := ⟨HeapSys.init c h, []⟩

/-- The invariant holds along every run. -/
theorem taskHeapInv_of_run {ops : List TaskHeapOp}
    (hidle : idleTaskStack < c.start ∨ c.start + heapSize < idleTaskStack)
    (hr : Run (fun σ op => op.Permitted c tcbBytes σ) (taskHeapStep c tcbBytes) (.init c h) ops σ) :
    ∃ bs, TaskHeapInv c σ bs := by
  refine hr.invariant (fun σ => ∃ bs, TaskHeapInv c σ bs) ?_ ⟨_, HeapInv.init c h, ?_, ?_, ?_⟩
  · rintro σ op σ' ⟨bs, hI⟩ hop hs
    obtain ⟨σ₁, bs₁, heq, hI₁⟩ := hI.step hidle hop
    obtain rfl := Option.some.inj (heq.symm.trans hs)
    exact ⟨bs₁, hI₁⟩
  · exact List.nodup_nil
  · exact fun p hp => by cases hp
  · exact fun τ hτ => by cases hτ

/-! ## The two ways to delete a task -/

variable {k k' : Kernel} {L : Layout} {t : TaskId} {frees : List Addr}

/-- **The heap calls of a deletion**: of another task, or of the current task by a null handle or its
own, followed by `os_task_process_deferred_delete`, which frees the tasks that were pending as well. -/
inductive Deletion (k : Kernel) (t : TaskId) (frees : List Addr) : Prop
  /-- A task deletes another one. -/
  | other (k' : Kernel) (hcur : k.current ≠ some t) (hdel : osTaskDelete k (some t) = some (.ok, k'))
      (hfrees : k'.freed = k.freed ++ frees)
  /-- A task deletes itself, and a tick frees it. -/
  | self (L : Layout) (k₁ k' : Kernel) (handle : Option TaskId) (hhandle : handle = none ∨ handle = some t)
      (hlists : TaskListInv k L) (hcur : k.current = some t) (hlive : t ∈ k.liveTcbs)
      (hstate : (k.tcb t).state = .ready ∨ (k.tcb t).state = .running)
      (hdel : osTaskDelete k handle = some (.ok, k₁)) (hproc : osTaskProcessDeferredDelete k₁ = some k')
      (hfrees : k'.freed = k.freed ++ (frees ++ deferredFrees k (L .deferred)))

/-- A write to a control block that keeps `stack_base`. -/
theorem stackBase_setTcb {v : Tcb} (hv : v.stackBase = (k.tcb t).stackBase) (x : TaskId) :
    ((k.setTcb t v).tcb x).stackBase = (k.tcb x).stackBase := by
  show (Function.update k.tcb t v x).stackBase = _
  by_cases hx : x = t
  · rw [hx, Function.update_self, hv]
  · rw [Function.update_of_ne hx]

/-- The frees of `os_task_delete` for another task. -/
theorem freed_osTaskDeleteOther (k : Kernel) (t : TaskId) :
    (osTaskDeleteOther k t).freed = k.freed ++ deferredFrees k [t] := by
  have hsingle : deferredFrees k [t]
      = if (k.tcb t).stackBase ≠ idleTaskStack then [(k.tcb t).stackBase, t] else [t] :=
    List.flatMap_singleton ..
  have hfree : ∀ k₃ : Kernel, k₃.freed = k.freed → (k₃.tcb t).stackBase = (k.tcb t).stackBase →
      (freeTcb (if (k₃.tcb t).stackBase ≠ idleTaskStack then freeStack k₃ (k₃.tcb t).stackBase else k₃)
        t).freed = k.freed ++ deferredFrees k [t] := by
    intro k₃ hf hb
    rw [hsingle, hb]
    split <;> simp [freeTcb, freeStack, hf]
  apply hfree
  · split <;> rfl
  · refine (stackBase_setTcb ?_ t).trans ?_
    · rfl
    · split <;> rfl

/-- The frees of a self-deletion and the processing of the deferred list. -/
theorem freed_osTaskDeleteSelf {k₁ : Kernel} (h : TaskListInv k L) (hcur : k.current = some t)
    (hlive : t ∈ k.liveTcbs) (hstate : (k.tcb t).state = .ready ∨ (k.tcb t).state = .running)
    (hdel : osTaskDeleteSelf k = some k₁) (hproc : osTaskProcessDeferredDelete k₁ = some k') :
    k'.freed = k.freed ++ (deferredFrees k [t] ++ deferredFrees k (L .deferred)) := by
  obtain ⟨k₂, hk₂, h₂, hdata⟩ := h.deleteSelf hcur hlive hstate
  obtain rfl := Option.some.inj (hk₂.symm.trans hdel)
  rw [h₂.osTaskProcessDeferredDelete_eq] at hproc
  obtain rfl := Option.some.inj hproc
  have hfreed : k₂.freed = k.freed := (congrArg Kernel.freed hdata : _)
  have htcb := tcb_of_data hdata
  have hbase : ∀ x, (k₂.tcb x).stackBase = (k.tcb x).stackBase := by
    intro x
    rw [htcb]
    apply stackBase_setTcb
    rfl
  have hsame : ∀ l, deferredFrees k₂ l = deferredFrees k l := by
    intro l
    simp only [deferredFrees, hbase]
  show k₂.freed ++ deferredFrees k₂ _ = _
  rw [hfreed, Layout.set_self, hsame, ← List.singleton_append, deferredFrees, List.flatMap_append]
  rfl

/-- **Both ways make the same heap calls.** -/
theorem Deletion.frees_eq (hdel : Deletion k τ.tcb frees)
    (hbase : (k.tcb τ.tcb).stackBase = τ.stackBase) : frees = τ.frees := by
  have hsingle : deferredFrees k [τ.tcb] = τ.frees := by
    rw [TaskBlocks.frees, ← hbase]
    exact List.flatMap_singleton ..
  rw [← hsingle]
  cases hdel with
  | other k' hcur hdel hfrees =>
      rw [osTaskDelete, if_neg hcur] at hdel
      obtain rfl := (Prod.mk.inj (Option.some.inj hdel)).2
      rw [freed_osTaskDeleteOther] at hfrees
      exact (List.append_cancel_left hfrees).symm
  | self L k₁ k' handle hhandle hlists hcur hlive hstate hdel hproc hfrees =>
      have hself : osTaskDeleteSelf k = some k₁ := by
        rcases hhandle with rfl | rfl
        · rw [osTaskDelete, if_neg (by simp [hcur])] at hdel
          obtain ⟨k₂, hk₂, heq⟩ := Option.map_eq_some_iff.mp hdel
          rwa [(Prod.mk.inj heq).2] at hk₂
        · rw [osTaskDelete, if_pos hcur] at hdel
          obtain ⟨k₂, hk₂, heq⟩ := Option.map_eq_some_iff.mp hdel
          rwa [(Prod.mk.inj heq).2] at hk₂
      rw [freed_osTaskDeleteSelf hlists hcur hlive hstate hself hproc] at hfrees
      exact (List.append_cancel_right (List.append_cancel_left hfrees)).symm

/-! ## Exactly when deletions are framed -/

/-- **A supplied stack that the caller may use**: outside the array of the heap, the first byte of a
live allocation, or so far inside one that the bytes a header would take lie inside it too. -/
structure CallerStack (c : HeapConfig) (s : HeapSys) (buf : Nat) : Prop where
  /-- There is memory below the stack. -/
  low : c.header ≤ buf
  /-- The stack is in the address space. -/
  high : buf < 256 ^ c.ptrBytes
  /-- The stack is not in the way of the heap. -/
  place : buf ≤ c.ucHeap ∨ c.ucHeap + (heapAlignment + heapSize + heapAlignment) ≤ buf ∨
    buf ∈ s.live ∨ ∃ p ∈ s.live, p + c.header ≤ buf ∧ buf ≤ p + prvBlockGetSize c s.heap.mem (p - c.header)

/-- Below such a stack there is no header, unless it starts a live allocation. -/
theorem HeapInv.stray_of_callerStack {buf : Nat} (hI : HeapInv c s bs) (hbuf : CallerStack c s buf)
    (hlive : buf ∉ s.live) : Stray c bs (buf - c.header) := by
  intro x hx
  have hlow := hbuf.low
  have hle := c.header_le
  have hbounds := hI.tiled.tiles.bounds hx
  rw [Block.finish] at hbounds
  rcases hbuf.place with hplace | hplace | hplace | ⟨p, hp, hplace, hend⟩
  · rw [← c.start_eq] at hplace
    omega
  · rw [← c.start_eq] at hplace
    simp only [heapAlignment] at hplace
    omega
  · exact absurd hplace hlive
  · obtain ⟨b, hb, hu, rfl⟩ := (hI.live p).mp hp
    have hblock : b.data c.header - c.header = b.addr := Nat.add_sub_cancel ..
    rw [hblock, hI.tiled.getSize hb] at hend
    have hplace' : b.addr + c.header + c.header ≤ buf := hplace
    have hend' : buf ≤ b.addr + c.header + b.size := hend
    by_cases hbx : b = x
    · subst hbx
      omega
    · have happart := hI.tiled.tiles.apart hb hx hbx
      simp only [Block.finish] at happart
      omega

/-- A marked stack that its caller may use is not freed without changing the list of blocks. -/
theorem HeapInv.marked_changes {buf : Nat} (hI : HeapInv c s bs) (hbuf : CallerStack c s buf)
    (hbit : prvBlockIsAllocated c s.heap.mem (buf - c.header) = true)
    (hfree : osHeapFree c s.heap (some buf) = some h') : h'.blocks c ≠ some bs := by
  have hlow := hbuf.low
  have hhigh := hbuf.high
  by_cases hlive : buf ∈ s.live
  · -- a live allocation is released, and its block is not used any more
    obtain ⟨h₁, bs₁, heq, hI₁, -⟩ := hI.free hlive
    obtain rfl := Option.some.inj (heq.symm.trans hfree)
    rw [hI₁.tiled.blocks_eq]
    intro hsame
    rw [Option.some.inj hsame] at hI₁
    have hmem := (hI₁.live buf).mpr ((hI.live buf).mp hlive)
    exact (hI.nodup.mem_erase_iff.mp hmem).1 rfl
  · have hstray := hI.stray_of_callerStack hbuf hlive
    have hsum : buf - c.header + c.header = buf := Nat.sub_add_cancel hlow
    rw [← hsum] at hfree
    exact hI.tiled.osHeapFree_stray hI.initialized hstray (by omega) hbit hfree

/-- **A deletion frees what the creation allocated and nothing else, exactly when no allocated bit
stands below a supplied stack.** In every state of every run whose deletions meet the condition, and
whatever the memory below the stack holds; for the converse the stack is memory that its caller may
use. `sizeof(os_tcb_t)` and the arguments of the creations are arbitrary, and `idle_task_stack` is not
part of the heap. -/
theorem deletion_framed_iff {ops : List TaskHeapOp}
    (hidle : idleTaskStack < c.start ∨ c.start + heapSize < idleTaskStack)
    (hr : Run (fun σ op => op.Permitted c tcbBytes σ) (taskHeapStep c tcbBytes) (.init c h) ops σ)
    (hτ : τ ∈ σ.tasks) (hbase : (k.tcb τ.tcb).stackBase = τ.stackBase)
    (hdel : Deletion k τ.tcb frees) :
    (τ.Unmarked c σ.heap.heap → τ.Framed c σ.heap.heap frees) ∧
      ((∀ buf ∈ τ.stackBuf, CallerStack c σ.heap buf ∧ buf ≠ τ.tcb) →
        τ.Framed c σ.heap.heap frees → τ.Unmarked c σ.heap.heap) := by
  obtain ⟨bs, hI⟩ := taskHeapInv_of_run hidle hr
  obtain rfl := hdel.frees_eq hbase
  constructor
  · intro hun
    obtain ⟨s', bs', -, -, hframed⟩ := hI.delete hidle hτ hun
    exact hframed
  · rintro hbuf ⟨hframed, -⟩ buf hsome
    obtain ⟨hstack, hne⟩ := hbuf buf hsome
    have hbufBase := hI.base τ hτ buf hsome
    by_cases hidle' : buf = idleTaskStack
    · exact Or.inl hidle'
    · right
      by_contra hbit
      rw [Bool.not_eq_false] at hbit
      have hall : τ.allocated = [τ.tcb] := by rw [TaskBlocks.allocated, hsome, if_neg (by simp)]
      rw [TaskBlocks.frees, hbufBase, if_pos hidle', hall] at hframed
      obtain ⟨bs₁, h', bs', hblocks, hfree, hblocks', hsame, -⟩ := hframed
      rw [if_neg (by simpa using hne)] at hsame
      obtain rfl := Option.some.inj (hI.heap.tiled.blocks_eq.symm.trans hblocks)
      exact hI.heap.marked_changes hstack hbit hfree (hsame ▸ hblocks')

/-- A task at the first block of the heap, on a stack that its creator supplied. -/
def suppliedTask : TaskBlocks := ⟨0x2000040C, 0x20008000, some 0x20008000⟩

/-- The kernel after the creation of that task. -/
def suppliedKernel : Kernel :=
  (osTaskCreate Sys.boot.kernel
    ⟨some 0x08000101, 0, 3, some 0x20008000, 256, true, none, some 0x2000040C⟩).2.2

/-- The deletion of that task by the start-up code. -/
theorem suppliedKernel_deletion :
    Deletion suppliedKernel suppliedTask.tcb [0x20008000, 0x2000040C] :=
  .other (osTaskDeleteOther suppliedKernel 0x2000040C) (by decide) rfl rfl

/-- The task is created with zeroes below its stack, next to one with a stack of the heap. -/
def unmarkedTrace : List TaskHeapOp :=
  [.poke 0x20007FF0 (List.replicate 16 0), .create 0x08000101 0 (some 0x20008000) 256,
    .create 0x08000201 0 none 512,
    .heap (.alloc 40)]

/-- The task with zeroes below its stack is deleted without a trace in the rest of the heap. -/
theorem deletion_framed_iff_unmarkedTrace : ∃ σ,
    Run (fun σ op => op.Permitted HeapConfig.cortexM 100 σ) (taskHeapStep HeapConfig.cortexM 100)
      (.init HeapConfig.cortexM Heap.unset) unmarkedTrace σ ∧ suppliedTask ∈ σ.tasks ∧
    suppliedTask.Framed HeapConfig.cortexM σ.heap.heap [0x20008000, 0x2000040C] := by
  obtain ⟨σ, hr, hmem, hun⟩ := exists_run_of_exec
    (fun σ op => op.Permitted HeapConfig.cortexM 100 σ) (taskHeapStep HeapConfig.cortexM 100)
    (.init HeapConfig.cortexM Heap.unset) unmarkedTrace
    (fun σ => suppliedTask ∈ σ.tasks ∧ suppliedTask.Unmarked HeapConfig.cortexM σ.heap.heap)
    (by decide +kernel)
  have hidle : idleTaskStack < HeapConfig.cortexM.start ∨
      HeapConfig.cortexM.start + heapSize < idleTaskStack := by decide
  exact ⟨σ, hr, hmem, (deletion_framed_iff hidle hr hmem rfl suppliedKernel_deletion).1 hun⟩

/-- **A supplied stack goes into the list of blocks** when the memory below it is filled with the
pattern of `prv_fill_stack`. -/
theorem deletion_inserts_stack : ∃ σ,
    Run (fun σ op => op.Permitted HeapConfig.cortexM 100 σ) (taskHeapStep HeapConfig.cortexM 100)
      (.init HeapConfig.cortexM Heap.unset) [.create 0x08000101 0 (some 0x20008000) 256] σ ∧
    suppliedTask ∈ σ.tasks ∧ Deletion suppliedKernel suppliedTask.tcb [0x20008000, 0x2000040C] ∧
    ((freeAll HeapConfig.cortexM σ.heap [0x20008000, 0x2000040C]).bind
      fun s => (s.heap.blocks HeapConfig.cortexM).map fun bs => bs.map Block.addr)
        = some [0x20000400, 0x20007FF4] ∧
    ¬ suppliedTask.Framed HeapConfig.cortexM σ.heap.heap [0x20008000, 0x2000040C] := by
  obtain ⟨σ, hr, hmem, hlist, hchange⟩ := exists_run_of_exec
    (fun σ op => op.Permitted HeapConfig.cortexM 100 σ) (taskHeapStep HeapConfig.cortexM 100)
    (.init HeapConfig.cortexM Heap.unset) [.create 0x08000101 0 (some 0x20008000) 256]
    (fun σ => suppliedTask ∈ σ.tasks ∧
      ((freeAll HeapConfig.cortexM σ.heap [0x20008000, 0x2000040C]).bind
        fun s => (s.heap.blocks HeapConfig.cortexM).map fun bs => bs.map Block.addr)
          = some [0x20000400, 0x20007FF4] ∧
      (osHeapFree HeapConfig.cortexM σ.heap.heap (some 0x20008000)).bind (Heap.blocks HeapConfig.cortexM)
        ≠ σ.heap.heap.blocks HeapConfig.cortexM) (by decide +kernel)
  refine ⟨σ, hr, hmem, suppliedKernel_deletion, hlist, ?_⟩
  rintro ⟨⟨bs, h', bs', hblocks, hfree, hblocks', hsame, -⟩, -⟩
  rw [if_neg (by decide)] at hsame
  apply hchange
  rw [hfree, Option.bind_some, hblocks', hblocks, hsame]

end MiniRTOS
