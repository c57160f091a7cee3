import MiniRTOS.Kernel.State
import MiniRTOS.Lib.LittleEndian
import MiniRTOS.Lib.Runs
import MiniRTOS.Lib.Tiling

/-! # The heap of `heap4.c`

A first-fit allocator over one byte memory, in which the block headers lie between the data of the
allocations. A header is `os_block_header_t`: the pointer `next`, the 32-bit word `size` whose top
bit tells that the block is allocated, the byte `allocated` (written and never read) and three bytes
of padding. `px_block_list` lists all blocks, free and allocated, by address.

The heap works for both widths of a pointer, so a `HeapConfig` says which one it is and where the
array `uc_heap` lies. List walks take fuel and give `none` when it runs out, which happens only on a
list that does not end. Pointers are natural numbers; pointer arithmetic does not wrap, as the
language promises nothing when it does. -/

namespace MiniRTOS

open ByteMemory Runs Tiling

/-! ## Configuration -/

/-- `OS_CONFIG_HEAP_SIZE`. -/
def heapSize : Nat := 10 * 1024

/-- `OS_CONFIG_HEAP_ALIGNMENT`. -/
def heapAlignment : Nat := 8

/-- `BLOCK_ALLOCATED_BIT`. -/
def blockAllocatedBit : Nat := 0x80000000

/-- `BLOCK_SIZE_MASK`. -/
def blockSizeMask : Nat := 0x7FFFFFFF

/-- **The target**: the width of a pointer and the place of the array `uc_heap`. -/
structure HeapConfig where
  /-- `sizeof(void *)`. -/
  ptrBytes : Nat
  /-- The address of `uc_heap`. -/
  ucHeap : Nat
  /-- A 32-bit microcontroller or a 64-bit host. -/
  ptrBytes_eq : ptrBytes = 4 ∨ ptrBytes = 8
  /-- `uc_heap` is no null pointer. -/
  ucHeap_pos : 0 < ucHeap
  /-- `uc_heap` has the attribute `aligned(OS_CONFIG_HEAP_ALIGNMENT)`. -/
  aligned : heapAlignment ∣ ucHeap
  /-- `uc_heap` lies in the address space. -/
  fits : ucHeap + (heapAlignment + heapSize + heapAlignment) ≤ 256 ^ ptrBytes

/-- `sizeof(os_block_header_t)`. -/
def HeapConfig.header (c : HeapConfig) : Nat := c.ptrBytes + 8

/-- `ALIGN_UP` of an unsigned integer of the given number of bytes. -/
def alignUp (width n : Nat) : Nat :=
  (n + heapAlignment - 1) % 256 ^ width / heapAlignment * heapAlignment

/-- `aligned_heap`, the first byte that `os_heap_init` uses. -/
def HeapConfig.start (c : HeapConfig) : Nat := alignUp c.ptrBytes c.ucHeap

/-! ## Headers -/

variable (c : HeapConfig)

/-- A pointer read from memory, with `none` for `NULL`. -/
def Heap.loadPtr (m : Mem) (a : Addr) : Option Addr :=
  match load m a c.ptrBytes with
  | 0 => none
  | p => some p

/-- Write a pointer. -/
def Heap.storePtr (m : Mem) (a : Addr) (p : Option Addr) : Mem := store m a c.ptrBytes (p.getD 0)

/-- `block->next`. -/
def Heap.next (m : Mem) (block : Addr) : Option Addr := Heap.loadPtr c m block

/-- `block->size`. -/
def Heap.sizeWord (m : Mem) (block : Addr) : Nat := load m (block + c.ptrBytes) 4

/-- `block->next = p`. -/
def Heap.setNext (m : Mem) (block : Addr) (p : Option Addr) : Mem := Heap.storePtr c m block p

/-- `block->size = n`. -/
def Heap.setSizeWord (m : Mem) (block : Addr) (n : Nat) : Mem := store m (block + c.ptrBytes) 4 n

/-- `block->allocated = n`. -/
def Heap.setAllocatedByte (m : Mem) (block : Addr) (n : Nat) : Mem :=
  store m (block + c.ptrBytes + 4) 1 n

/-- `prv_block_get_size`. -/
def prvBlockGetSize (m : Mem) (block : Addr) : Nat := Heap.sizeWord c m block &&& blockSizeMask

/-- `prv_block_is_allocated`. -/
def prvBlockIsAllocated (m : Mem) (block : Addr) : Bool :=
  Heap.sizeWord c m block &&& blockAllocatedBit != 0

/-- `prv_block_set_allocated`. -/
def prvBlockSetAllocated (m : Mem) (block : Addr) : Mem :=
  Heap.setAllocatedByte c
    (Heap.setSizeWord c m block (Heap.sizeWord c m block ||| blockAllocatedBit)) block 1

/-- `prv_block_set_free`. -/
def prvBlockSetFree (m : Mem) (block : Addr) : Mem :=
  Heap.setAllocatedByte c
    (Heap.setSizeWord c m block (Heap.sizeWord c m block &&& blockSizeMask)) block 0

/-! ## State -/

/-- The memory and the file-scope variables of `heap4.c`. -/
structure Heap where
  /-- All of the memory. -/
  mem : Mem
  /-- `px_block_list`. -/
  pxBlockList : Option Addr
  /-- `free_bytes_remaining`. -/
  freeBytesRemaining : BitVec 32
  /-- `min_free_bytes_ever`. -/
  minFreeBytesEver : BitVec 32
  /-- `heap_initialized`. -/
  heapInitialized : Bool
  /-- Whether `malloc_failed_hook` is set. -/
  mallocFailedHook : Bool
  /-- The sizes the hook was called with. -/
  hookCalls : List Nat

/-- `os_heap_init`. -/
def osHeapInit (h : Heap) : Heap :=
  let first := c.start
  let m := Heap.setNext c h.mem first none
  let m := Heap.setSizeWord c m first (heapSize - c.header)
  let m := Heap.setAllocatedByte c m first 0
  { h with
    mem := m
    pxBlockList := some first
    freeBytesRemaining := BitVec.ofNat 32 (Heap.sizeWord c m first)
    minFreeBytesEver := BitVec.ofNat 32 (Heap.sizeWord c m first)
    heapInitialized := true }

/-- The blocks on `px_block_list`, as the walks over it see them. -/
def Heap.readBlocks (m : Mem) : Nat → Option Addr → Option (List Block)
  | _, none => some []
  | 0, some _ => none
  | fuel + 1, some a =>
      (Heap.readBlocks m fuel (Heap.next c m a)).map fun bs =>
        ⟨a, prvBlockGetSize c m a, prvBlockIsAllocated c m a⟩ :: bs

/-- The blocks of the heap. -/
def Heap.blocks (h : Heap) : Option (List Block) := Heap.readBlocks c h.mem heapSize h.pxBlockList

/-! ## Allocation -/

/-- The first-fit walk of `os_heap_alloc`. -/
def firstFit (m : Mem) (size : Nat) : Nat → Option Addr → Option (Option Addr)
  | _, none => some none
  | 0, some _ => none
  | fuel + 1, some block =>
      if prvBlockIsAllocated c m block = false ∧ size ≤ prvBlockGetSize c m block then
        some (some block)
      else
        firstFit m size fuel (Heap.next c m block)

/-- The split of `os_heap_alloc`: a new free block behind the first `size` bytes of `block`. -/
def splitBlock (h : Heap) (block : Addr) (size : Nat) : Heap :=
  let newBlock := block + c.header + size
  let m := Heap.setSizeWord c h.mem newBlock (prvBlockGetSize c h.mem block - size - c.header)
  let m := Heap.setAllocatedByte c m newBlock 0
  let m := Heap.setNext c m newBlock (Heap.next c m block)
  -- both size words are written with the top bit clear
  let m := Heap.setSizeWord c m block size
  { h with
    mem := Heap.setNext c m block (some newBlock)
    -- the header of the new block is paid for here
    freeBytesRemaining := h.freeBytesRemaining - BitVec.ofNat 32 (size + c.header) }

/-- The part of `os_heap_alloc` after a block was found. -/
def takeBlock (h : Heap) (block : Addr) (size : Nat) : Heap :=
  let blockSize := prvBlockGetSize c h.mem block
  let h :=
    if size + c.header + heapAlignment ≤ blockSize then splitBlock c h block size
    else { h with freeBytesRemaining := h.freeBytesRemaining - BitVec.ofNat 32 blockSize }
  let h := { h with mem := prvBlockSetAllocated c h.mem block }
  -- low-water mark, after the charge
  if h.freeBytesRemaining < h.minFreeBytesEver then
    { h with minFreeBytesEver := h.freeBytesRemaining }
  else h

/-- The call of `malloc_failed_hook`, which does not use the heap. -/
def mallocFailed (h : Heap) (size : Nat) : Heap :=
  if h.mallocFailedHook then { h with hookCalls := h.hookCalls ++ [size] } else h

/-- `os_heap_alloc`. -/
def osHeapAlloc (h : Heap) (size : Nat) : Option (Heap × Option Addr) :=
  if size = 0 ∨ h.heapInitialized = false then
    some (h, none)
  else
    let size := alignUp 4 size
    (firstFit c h.mem size heapSize h.pxBlockList).map fun found =>
      match found with
      | none => (mallocFailed h size, none)
      | some block => (takeBlock c h block size, some (block + c.header))

/-- `os_heap_calloc`. -/
def osHeapCalloc (h : Heap) (count size : Nat) : Option (Heap × Option Addr) :=
  -- the product of two 32-bit integers, without its high bits
  let total := count * size % 2 ^ 32
  (osHeapAlloc c h total).map fun (h, ptr) =>
    match ptr with
    | none => (h, none)
    | some p => ({ h with mem := writeBytes h.mem p (List.replicate total 0) }, some p)

/-! ## Freeing -/

/-- Make `p` follow `prev`, or head the list when there is no `prev`. -/
def Heap.link (h : Heap) (prev p : Option Addr) : Heap :=
  match prev with
  | some a => { h with mem := Heap.setNext c h.mem a p }
  | none => { h with pxBlockList := p }

/-- The walk of `prv_insert_block`: the last block not above `block` and the one behind it. -/
def findPosition (m : Mem) (block : Addr) :
    Nat → Option Addr → Option Addr → Option (Option Addr × Option Addr)
  | _, prev, none => some (prev, none)
  | 0, _, some _ => none
  | fuel + 1, prev, some iter =>
      if block < iter then some (prev, some iter)
      else findPosition m block fuel (some iter) (Heap.next c m iter)

/-- The merge of `prv_insert_block`: block `a` takes in the block `b` behind it. -/
def absorb (h : Heap) (a b : Addr) : Heap :=
  let m := Heap.setSizeWord c h.mem a
    -- no counter is touched: the header that disappears is not given back
    ((Heap.sizeWord c h.mem a &&& blockSizeMask) + c.header + prvBlockGetSize c h.mem b)
  { h with mem := Heap.setNext c m a (Heap.next c m b) }

/-- The first merge of `prv_insert_block`, with the previous block. -/
def coalescePrev (h : Heap) (prev : Option Addr) (block : Addr) : Heap × Addr :=
  match prev with
  | none => (h, block)
  | some p =>
      if p + c.header + prvBlockGetSize c h.mem p = block ∧ prvBlockIsAllocated c h.mem p = false then
        (absorb c h p block, p)
      else
        (h, block)

/-- The second merge of `prv_insert_block`, with the next block. -/
def coalesceNext (h : Heap) (block : Addr) : Heap :=
  match Heap.next c h.mem block with
  | none => h
  | some n =>
      if block + c.header + prvBlockGetSize c h.mem block = n
          ∧ prvBlockIsAllocated c h.mem n = false then
        absorb c h block n
      else
        h

/-- `prv_insert_block`. -/
def prvInsertBlock (h : Heap) (block : Addr) : Option Heap :=
  (findPosition c h.mem block heapSize none h.pxBlockList).map fun (prev, iter) =>
    -- the list is complete again before anything is merged
    let h := { h with mem := Heap.setNext c h.mem block iter }
    let h := Heap.link c h prev (some block)
    let (h, block) := coalescePrev c h prev block
    coalesceNext c h block

/-- The loop of `os_heap_free` that takes the block out of the list. -/
def removeBlock (h : Heap) (block : Addr) : Nat → Option Addr → Option Addr → Option Heap
  | _, _, none => some h
  | 0, _, some _ => none
  | fuel + 1, prev, some iter =>
      if iter = block then some (Heap.link c h prev (Heap.next c h.mem block))
      else removeBlock h block fuel (some iter) (Heap.next c h.mem iter)

/-- `os_heap_free`. -/
def osHeapFree (h : Heap) (ptr : Option Addr) : Option Heap :=
  match ptr with
  | none => some h
  | some p =>
      let block := p - c.header
      -- a second free is noticed by the bit in the size word, as long as the header is intact
      if h.heapInitialized = false ∨ prvBlockIsAllocated c h.mem block = false then
        some h
      else
        let h := { h with
          freeBytesRemaining :=
            h.freeBytesRemaining + BitVec.ofNat 32 (prvBlockGetSize c h.mem block)
          mem := prvBlockSetFree c h.mem block }
        (removeBlock c h block heapSize none h.pxBlockList).bind fun h => prvInsertBlock c h block

/-- `memcpy(dst, src, n)`. -/
def Heap.memcpy (h : Heap) (dst src n : Nat) : Heap :=
  { h with mem := writeBytes h.mem dst (readBytes h.mem src n) }

/-- `os_heap_realloc`. -/
def osHeapRealloc (h : Heap) (ptr : Option Addr) (newSize : Nat) : Option (Heap × Option Addr) :=
  match ptr with
  | none => osHeapAlloc c h newSize
  | some p =>
      if newSize = 0 then
        (osHeapFree c h (some p)).map fun h => (h, none)
      else
        let oldSize := prvBlockGetSize c h.mem (p - c.header)
        let newSize := alignUp 4 newSize
        -- a block that is shrunk keeps its size
        if newSize ≤ oldSize then
          some (h, some p)
        else
          (osHeapAlloc c h newSize).bind fun (h, newPtr) =>
            match newPtr with
            -- on failure the old block stays as it is
            | none => some (h, none)
            | some q => (osHeapFree c (h.memcpy q p oldSize) (some p)).map fun h => (h, some q)

/-! ## Statistics -/

/-- The walk of `os_heap_get_largest_free_block`. -/
def largestFree (m : Mem) : Nat → Option Addr → Nat → Option Nat
  | _, none, largest => some largest
  | 0, some _, _ => none
  | fuel + 1, some block, largest =>
      largestFree m fuel (Heap.next c m block)
        (if prvBlockIsAllocated c m block = false ∧ largest < prvBlockGetSize c m block then
          prvBlockGetSize c m block
        else largest)

/-- `os_heap_get_largest_free_block`. -/
def osHeapGetLargestFreeBlock (h : Heap) : Option Nat :=
  largestFree c h.mem heapSize h.pxBlockList 0

/-- `os_heap_get_free_size`. -/
def osHeapGetFreeSize (h : Heap) : Nat := h.freeBytesRemaining.toNat

/-- `os_heap_get_min_free_size`. -/
def osHeapGetMinFreeSize (h : Heap) : Nat := h.minFreeBytesEver.toNat

/-! ## The heap in use -/

/-- **A heap in use**: the allocator and the pointers its callers hold. -/
structure HeapSys where
  /-- The allocator. -/
  heap : Heap
  /-- The live allocations, by the address of their first data byte. -/
  live : List Addr

/-- What callers do with the heap. -/
inductive HeapOp
  /-- `os_heap_alloc(size)`. -/
  | alloc (size : Nat)
  /-- `os_heap_free(ptr)`. -/
  | free (ptr : Option Addr)
  /-- `os_heap_realloc(ptr, new_size)`. -/
  | realloc (ptr : Option Addr) (newSize : Nat)
  /-- The caller writes bytes at an offset from a pointer it holds. -/
  | write (ptr : Addr) (offset : Nat) (bytes : List UInt8)
  deriving DecidableEq

/-- The live allocations after `os_heap_realloc(ptr, new_size)` returned `result`. -/
def liveAfterRealloc (live : List Addr) (ptr : Option Addr) (newSize : Nat) (result : Option Addr) :
    List Addr :=
  match ptr, result with
  | none, q => q.toList ++ live
  | some p, none => if newSize = 0 then live.erase p else live
  | some p, some q => q :: live.erase p

/-- One call, or one write. -/
def heapStep (s : HeapSys) : HeapOp → Option HeapSys
  | .alloc size => (osHeapAlloc c s.heap size).map fun (h, p) => ⟨h, p.toList ++ s.live⟩
  | .free ptr =>
      (osHeapFree c s.heap ptr).map fun h => ⟨h, (ptr.map s.live.erase).getD s.live⟩
  | .realloc ptr newSize =>
      (osHeapRealloc c s.heap ptr newSize).map fun (h, q) =>
        ⟨h, liveAfterRealloc s.live ptr newSize q⟩
  | .write ptr offset bytes =>
      some { s with heap := { s.heap with mem := writeBytes s.heap.mem (ptr + offset) bytes } }

/-- What a caller may do: free and reallocate `NULL` or a live allocation, and write into the data
area of one. -/
def HeapOp.Allowed (s : HeapSys) : HeapOp → Prop
  | .alloc _ => True
  | .free ptr => ∀ p ∈ ptr, p ∈ s.live
  | .realloc ptr _ => ∀ p ∈ ptr, p ∈ s.live
  | .write ptr offset bytes =>
      ptr ∈ s.live ∧ offset + bytes.length ≤ prvBlockGetSize c s.heap.mem (ptr - c.header)

/-- Whether a request is allowed can be decided. -/
instance HeapOp.decidableAllowed (s : HeapSys) (op : HeapOp) : Decidable (op.Allowed c s) := by
  cases op <;> unfold HeapOp.Allowed <;> infer_instance

/-- The heap after `os_heap_init`, with no allocation. -/
def HeapSys.init (h : Heap) : HeapSys := ⟨osHeapInit c h, []⟩

end MiniRTOS
