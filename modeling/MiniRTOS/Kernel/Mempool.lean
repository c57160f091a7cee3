import MiniRTOS.Kernel.State
import MiniRTOS.Lib.FreeList
import MiniRTOS.Lib.Runs

/-! # The memory pools of `mempool.c`

A pool cuts a buffer of the caller into blocks of one size. The free blocks form a list whose
pointers lie in their own first bytes, so the list lives in the memory that the users of the
allocated blocks write to.

* **`osMempoolCreate`**, **`osMempoolAlloc`**, **`osMempoolFree`** — the calls, over one byte memory.
* **`PoolSys`** — a pool in use: the calls and the writes of the users, in any order.
* **`PoolExact`** — what a pool is for: the free list holds exactly the blocks that are not handed
  out.

The pool works for both widths of a pointer. Unsigned arithmetic wraps as the types of the source
say, and addresses wrap at the end of the address space. -/

namespace MiniRTOS

open ByteMemory FreeList Runs

/-! ## The calls -/

/-- **The target**: `sizeof(void *)` on a 32-bit microcontroller or on a 64-bit host. -/
structure PtrWidth where
  /-- `sizeof(void *)`. -/
  bytes : Nat
  /-- The two widths. -/
  bytes_eq : bytes = 4 ∨ bytes = 8

variable (w : PtrWidth)

/-- The size of the address space. -/
def PtrWidth.space : Nat := 256 ^ w.bytes

/-- `POOL_ALIGN_SIZE` of an unsigned integer as wide as a pointer. -/
def poolAlignSize (s : Nat) : Nat := (s + w.bytes - 1) % w.space &&& (w.space - w.bytes)

/-- `prv_calc_stride`: the distance of two blocks. -/
def prvCalcStride (blockSize : Nat) : Nat :=
  let stride := poolAlignSize w blockSize % 2 ^ 32
  if stride < w.bytes then w.bytes else stride

/-- `os_mempool_t`. -/
structure Mempool where
  /-- Start address of the pool memory. -/
  poolStart : Nat
  /-- End address, one past the last byte. -/
  poolEnd : Nat
  /-- Usable block size in bytes. -/
  blockSize : Nat
  /-- Number of blocks. -/
  totalBlocks : Nat
  /-- Number of free blocks. -/
  freeCount : Nat
  /-- Smallest number of free blocks ever. -/
  minFreeCount : Nat
  /-- Head of the free list. -/
  freeList : Option Addr
  deriving DecidableEq

/-- The loop of `os_mempool_create` that builds the free list: `n` rounds from index `i` on. -/
def buildFreeList (alignedBuf stride : Nat) : Nat → Nat → Mem → Option Addr → Mem × Option Addr
  | 0, _, m, freeList => (m, freeList)
  | n + 1, i, m, freeList =>
      let block := (alignedBuf + i * stride % 2 ^ 32) % w.space
      buildFreeList alignedBuf stride n (i + 1) (storePtr w.bytes m block freeList) (some block)

/-- `aligned_buf`: the first aligned address from `buf` on. -/
def alignedBuf (buf : Nat) : Nat :=
  let aligned := poolAlignSize w buf
  if aligned < buf then (aligned + w.bytes) % w.space else aligned

/-- The alignment padding, `(uint32_t)(aligned_buf - buf)`. -/
def poolPadding (buf : Nat) : Nat := (alignedBuf w buf + w.space - buf) % w.space % 2 ^ 32

/-- `os_mempool_create`, with `none` for a null pointer. -/
def osMempoolCreate (m : Mem) (pool : Option Mempool) (buf : Option Addr)
    (bufSize blockSize : Nat) : Mem × Option Mempool × Status :=
  match pool, buf with
  | some _, some buf =>
      if bufSize = 0 ∨ blockSize = 0 then (m, pool, .errParam)
      else
        let aligned := alignedBuf w buf
        let usable := (bufSize + 2 ^ 32 - poolPadding w buf) % 2 ^ 32
        if usable < w.bytes then (m, pool, .errNoMem)
        else
          let stride := prvCalcStride w blockSize
          let numBlocks := usable / stride
          if numBlocks = 0 then (m, pool, .errNoMem)
          else
            let built := buildFreeList w aligned stride numBlocks 0 m none
            (built.1, some {
              poolStart := aligned
              poolEnd := (aligned + numBlocks * stride % 2 ^ 32) % w.space
              blockSize := blockSize
              totalBlocks := numBlocks
              freeCount := numBlocks
              minFreeCount := numBlocks
              freeList := built.2 }, .ok)
  | _, _ => (m, pool, .errParam)

/-- `os_mempool_alloc`, with `none` for a null pointer. The call itself gives `none` when it
dereferences a null pointer. -/
def osMempoolAlloc (m : Mem) : Option Mempool → Option (Option Mempool × Option Addr)
  | none => some (none, none)
  | some pool =>
      if pool.freeCount = 0 then some (some pool, none)
      else
        match pool.freeList with
        | none => none
        | some block =>
            let freeCount := (pool.freeCount + (2 ^ 32 - 1)) % 2 ^ 32
            some (some { pool with
              freeList := loadPtr w.bytes m block
              freeCount := freeCount
              minFreeCount :=
                if freeCount < pool.minFreeCount then freeCount else pool.minFreeCount },
              some block)

/-- `os_mempool_free`. -/
def osMempoolFree (m : Mem) (pool : Option Mempool) (ptr : Option Addr) :
    Mem × Option Mempool × Status :=
  match pool, ptr with
  | some po, some ptr =>
      if ptr < po.poolStart ∨ po.poolEnd ≤ ptr then (m, pool, .errParam)
      else
        let offset := (ptr - po.poolStart) % 2 ^ 32
        if offset % prvCalcStride w po.blockSize ≠ 0 then (m, pool, .errParam)
        else
          (storePtr w.bytes m ptr po.freeList,
            some { po with freeList := some ptr, freeCount := (po.freeCount + 1) % 2 ^ 32 }, .ok)
  | _, _ => (m, pool, .errParam)

/-! ## A pool in use -/

/-- A pool in use. `allocated` and `counts` are kept by the observer: the blocks that were handed
out and not given back, and the value of `free_count` after the creation and after each call. -/
structure PoolSys where
  /-- The memory. -/
  mem : Mem
  /-- The control block of the pool. -/
  pool : Mempool
  /-- The blocks that are handed out. -/
  allocated : List Addr
  /-- The values of `free_count` so far, the latest one first. -/
  counts : List Nat

/-- What happens to a pool in use. -/
inductive PoolOp
  /-- `os_mempool_alloc`. -/
  | alloc
  /-- `os_mempool_free`. -/
  | free (ptr : Addr)
  /-- A user writes bytes from an address on. -/
  | write (a : Addr) (bs : List UInt8)
  deriving DecidableEq

/-- Only blocks that are handed out are given back, and a user writes to the first `block_size`
bytes of such a block. -/
def PoolOp.Allowed (s : PoolSys) : PoolOp → Prop
  | .alloc => True
  | .free ptr => ptr ∈ s.allocated
  | .write a bs => ∃ b ∈ s.allocated, b ≤ a ∧ a + bs.length ≤ b + s.pool.blockSize

/-- Whether a call is allowed can be decided. -/
instance PoolOp.decidableAllowed (s : PoolSys) (op : PoolOp) : Decidable (op.Allowed s) :=
  match op with
  | .alloc => inferInstanceAs (Decidable True)
  | .free ptr => inferInstanceAs (Decidable (ptr ∈ s.allocated))
  | .write a bs =>
      inferInstanceAs (Decidable (∃ b ∈ s.allocated, b ≤ a ∧ a + bs.length ≤ b + s.pool.blockSize))

/-- One step; `none` when the call dereferences a null pointer. -/
def poolStep (s : PoolSys) : PoolOp → Option PoolSys
  | .alloc =>
      (osMempoolAlloc w s.mem (some s.pool)).bind fun r =>
        r.1.map fun pool =>
          { s with
            pool := pool
            allocated := r.2.toList ++ s.allocated
            counts := pool.freeCount :: s.counts }
  | .free ptr =>
      let r := osMempoolFree w s.mem (some s.pool) (some ptr)
      r.2.1.map fun pool =>
        { mem := r.1
          pool := pool
          allocated := if r.2.2 = .ok then s.allocated.erase ptr else s.allocated
          counts := pool.freeCount :: s.counts }
  | .write a bs => some { s with mem := writeBytes s.mem a bs }

/-- The pool right after its creation. -/
def PoolSys.created (m : Mem) (pool : Mempool) : PoolSys :=
  { mem := m, pool := pool, allocated := [], counts := [pool.freeCount] }

/-- The addresses of the blocks of a pool. -/
def Mempool.blocks (pool : Mempool) : List Addr :=
  Grid pool.poolStart (prvCalcStride w pool.blockSize) pool.totalBlocks

/-! ## Alignment -/

variable {w : PtrWidth}

/-- Pointers have four bytes or eight. -/
theorem PtrWidth.cases (w : PtrWidth) :
    w.bytes = 4 ∧ w.space = 2 ^ 32 ∨ w.bytes = 8 ∧ w.space = 2 ^ 64 := by
  rcases w.bytes_eq with h | h
  · exact .inl ⟨h, by rw [PtrWidth.space, h]; rfl⟩
  · exact .inr ⟨h, by rw [PtrWidth.space, h]; rfl⟩

/-- `POOL_ALIGN_SIZE` rounds the wrapped sum down to a multiple of the width. -/
theorem poolAlignSize_eq (s : Nat) :
    poolAlignSize w s = (s + w.bytes - 1) % w.space / w.bytes * w.bytes := by
  rw [poolAlignSize]
  rcases w.cases with ⟨hb, hs⟩ | ⟨hb, hs⟩
  · rw [hb, hs]
    exact and_two_pow_sub (k := 2) (Nat.mod_lt _ (by decide)) (by decide)
  · rw [hb, hs]
    exact and_two_pow_sub (k := 3) (Nat.mod_lt _ (by decide)) (by decide)

/-- **`POOL_ALIGN_SIZE` rounds up**, unless the sum wraps. -/
theorem poolAlignSize_spec {s : Nat} (h : s + w.bytes ≤ w.space) :
    w.bytes ∣ poolAlignSize w s ∧ s ≤ poolAlignSize w s ∧ poolAlignSize w s < s + w.bytes := by
  have heq := poolAlignSize_eq (w := w) s
  refine ⟨heq ▸ Nat.dvd_mul_left _ _, ?_⟩
  rcases w.cases with ⟨hb, hs⟩ | ⟨hb, hs⟩
  · rw [hb, hs] at h
    rw [hb, hs] at heq
    omega
  · rw [hb, hs] at h
    rw [hb, hs] at heq
    omega

/-- `POOL_ALIGN_SIZE` gives null when the sum wraps. -/
theorem poolAlignSize_of_wrap {s : Nat} (h : w.space < s + w.bytes) (hs : s < w.space) :
    poolAlignSize w s = 0 := by
  have heq := poolAlignSize_eq (w := w) s
  rcases w.cases with ⟨hb, hsp⟩ | ⟨hb, hsp⟩
  · rw [hb, hsp] at h heq
    rw [hsp] at hs
    omega
  · rw [hb, hsp] at h heq
    rw [hsp] at hs
    omega

/-- **The stride** holds a block and a pointer and keeps the alignment. -/
theorem prvCalcStride_spec {blockSize : Nat} (h : blockSize + w.bytes ≤ 2 ^ 32) :
    w.bytes ∣ prvCalcStride w blockSize ∧ blockSize ≤ prvCalcStride w blockSize ∧
      w.bytes ≤ prvCalcStride w blockSize := by
  have hspace : 2 ^ 32 ≤ w.space := by
    rcases w.cases with ⟨-, hs⟩ | ⟨-, hs⟩ <;> omega
  obtain ⟨hdvd, hle, hlt⟩ := poolAlignSize_spec (w := w) (h.trans hspace)
  have hmod : poolAlignSize w blockSize % 2 ^ 32 = poolAlignSize w blockSize :=
    Nat.mod_eq_of_lt (by omega)
  rw [prvCalcStride, hmod]
  split
  · exact ⟨Nat.dvd_refl _, by omega, Nat.le_refl _⟩
  · exact ⟨hdvd, hle, by omega⟩

/-- No stride is shorter than a pointer. -/
theorem bytes_le_prvCalcStride (blockSize : Nat) : w.bytes ≤ prvCalcStride w blockSize := by
  rw [prvCalcStride]
  split
  · exact Nat.le_refl _
  · next h => exact Nat.le_of_not_lt h

/-- **Where `aligned_buf` lies**: less than a pointer behind the buffer's start, or, for the last few
addresses, at the first aligned address after null. -/
theorem alignedBuf_cases {buf : Nat} (hbuf : buf < w.space) :
    (buf + w.bytes ≤ w.space ∧ alignedBuf w buf = buf + poolPadding w buf ∧
        poolPadding w buf < w.bytes ∧ w.bytes ∣ alignedBuf w buf) ∨
      w.space < buf + w.bytes ∧ alignedBuf w buf = w.bytes ∧
        poolPadding w buf = w.bytes + (w.space - buf) := by
  have hp : 0 < w.bytes ∧ 2 * w.bytes < 2 ^ 32 ∧ 2 ^ 32 ≤ w.space := by
    rcases w.cases with ⟨hb, hs⟩ | ⟨hb, hs⟩ <;> omega
  by_cases hwrap : buf + w.bytes ≤ w.space
  · obtain ⟨hdvd, hle, hlt⟩ := poolAlignSize_spec hwrap
    have ha : alignedBuf w buf = poolAlignSize w buf := if_neg (Nat.not_lt.mpr hle)
    -- the 32-bit subtraction of the source is exact: the padding is less than a pointer
    have hsub : alignedBuf w buf + w.space - buf = (alignedBuf w buf - buf) + w.space := by omega
    have hpad : poolPadding w buf = alignedBuf w buf - buf := by
      rw [poolPadding, hsub, Nat.add_mod_right,
        Nat.mod_eq_of_lt (by omega : alignedBuf w buf - buf < w.space),
        Nat.mod_eq_of_lt (by omega : alignedBuf w buf - buf < 2 ^ 32)]
    rw [hpad, ha]
    exact .inl ⟨hwrap, by omega, by omega, hdvd⟩
  · -- the sum wraps to null, and the branch of the source for that adds a pointer
    have hnull := poolAlignSize_of_wrap (w := w) (Nat.lt_of_not_le hwrap) (by omega)
    have ha : alignedBuf w buf = w.bytes := by
      rw [alignedBuf, hnull, if_pos (by omega), Nat.zero_add, Nat.mod_eq_of_lt (by omega)]
    refine .inr ⟨Nat.lt_of_not_le hwrap, ha, ?_⟩
    rw [poolPadding, ha, Nat.mod_eq_of_lt (by omega : w.bytes + w.space - buf < w.space),
      Nat.mod_eq_of_lt (by omega)]
    omega

/-- **The aligned start** of a buffer that lies in the address space and holds its padding. -/
theorem alignedBuf_spec {buf bufSize : Nat} (hfits : buf + bufSize < w.space)
    (hpad : poolPadding w buf ≤ bufSize) :
    w.bytes ∣ alignedBuf w buf ∧ alignedBuf w buf = buf + poolPadding w buf := by
  rcases alignedBuf_cases (w := w) (by omega : buf < w.space) with
    ⟨-, haligned, -, hdvd⟩ | ⟨hwrap, -, hpad'⟩
  · exact ⟨hdvd, haligned⟩
  · -- the padding reaches past the end of the address space, and so does the buffer
    omega

/-- The usable size of a buffer that holds its padding. -/
theorem usable_of_padding_le {buf bufSize : Nat} (hsize : bufSize < 2 ^ 32)
    (hpad : poolPadding w buf ≤ bufSize) :
    (bufSize + 2 ^ 32 - poolPadding w buf) % 2 ^ 32 = bufSize - poolPadding w buf := by
  have hsub : bufSize + 2 ^ 32 - poolPadding w buf = (bufSize - poolPadding w buf) + 2 ^ 32 := by
    omega
  rw [hsub, Nat.add_mod_right, Nat.mod_eq_of_lt (by omega)]

/-! ## The pool keeps its blocks -/

/-- **A well-formed pool**: aligned blocks that lie in a row in the address space, each with room for
the data and for a pointer. -/
structure Mempool.WellFormed (w : PtrWidth) (pool : Mempool) : Prop where
  /-- The first block is no null pointer. -/
  start_pos : 0 < pool.poolStart
  /-- The first block is aligned. -/
  start_dvd : w.bytes ∣ pool.poolStart
  /-- The stride keeps the alignment. -/
  stride_dvd : w.bytes ∣ prvCalcStride w pool.blockSize
  /-- A block has room for the data. -/
  blockSize_le : pool.blockSize ≤ prvCalcStride w pool.blockSize
  /-- A block has room for a pointer. -/
  bytes_le : w.bytes ≤ prvCalcStride w pool.blockSize
  /-- `pool_end` is the end of the last block. -/
  end_eq : pool.poolEnd
    = pool.poolStart + pool.totalBlocks * prvCalcStride w pool.blockSize
  /-- The end is an address. -/
  end_lt : pool.poolEnd < w.space
  /-- Offsets are 32 bits wide. -/
  size_lt : pool.totalBlocks * prvCalcStride w pool.blockSize < 2 ^ 32

/-- A pointer has at least one byte. -/
theorem PtrWidth.bytes_pos (w : PtrWidth) : 0 < w.bytes := by
  rcases w.bytes_eq with h | h <;> omega

/-- The loop of `os_mempool_create` threads the blocks, the last one first. -/
theorem threaded_buildFreeList {start stride n i : Nat} {m : Mem} {head : Option Addr}
    (h : Threaded w.bytes m head (Grid start stride i).reverse) (hpos : 0 < start)
    (hp : w.bytes ≤ stride) (hsize : (i + n) * stride < 2 ^ 32)
    (hend : start + (i + n) * stride < w.space) :
    Threaded w.bytes (buildFreeList w start stride n i m head).1
      (buildFreeList w start stride n i m head).2 (Grid start stride (i + n)).reverse := by
  -- Each round of the loop pushes block `i` on the list of the blocks before it, so the list built so
  -- far is the grid of `i` blocks, last one first.
  induction n generalizing i m head with
  | zero => exact h
  | succ n ih =>
      have hle : (i + 1) * stride ≤ (i + (n + 1)) * stride := Nat.mul_le_mul_right _ (by omega)
      have hsucc : (i + 1) * stride = i * stride + stride := Nat.succ_mul i stride
      -- the byte offset is computed in 32 bits and added to the start in the pointer width
      have hblock : (start + i * stride % 2 ^ 32) % w.space = start + i * stride := by
        have := w.bytes_pos
        rw [Nat.mod_eq_of_lt (by omega : i * stride < 2 ^ 32), Nat.mod_eq_of_lt (by omega)]
      have hpush : Threaded w.bytes (storePtr w.bytes m (start + i * stride) head)
          (some (start + i * stride)) (Grid start stride (i + 1)).reverse := by
        rw [grid_succ, List.reverse_append]
        refine h.push (fun a ha => ?_) (fun a ha => ?_)
        · have := grid_bounds (List.mem_reverse.mp ha)
          exact ⟨by omega, by show a < w.space; omega⟩
        · have := grid_bounds (List.mem_reverse.mp ha)
          omega
      have hi : i + 1 + n = i + (n + 1) := by omega
      have hnext := ih hpush (by rw [hi]; exact hsize) (by rw [hi]; exact hend)
      rw [hi] at hnext
      rw [buildFreeList, hblock]
      exact hnext

/-- The pool of `n` blocks that `os_mempool_create` lays out. -/
def Mempool.laidOut (w : PtrWidth) (aligned blockSize n : Nat) (freeList : Option Addr) : Mempool :=
  { poolStart := aligned
    poolEnd := (aligned + n * prvCalcStride w blockSize % 2 ^ 32) % w.space
    blockSize := blockSize
    totalBlocks := n
    freeCount := n
    minFreeCount := n
    freeList := freeList }

/-- **When `os_mempool_create` succeeds**: the usable part of the buffer holds a block, and the pool
has as many as fit. -/
theorem osMempoolCreate_inv {m₀ m : Mem} {pool₀ pool : Mempool} {buf bufSize blockSize : Nat}
    (h : osMempoolCreate w m₀ (some pool₀) (some buf) bufSize blockSize = (m, some pool, .ok)) :
    ∃ n, n = (bufSize + 2 ^ 32 - poolPadding w buf) % 2 ^ 32 / prvCalcStride w blockSize ∧ n ≠ 0 ∧
      m = (buildFreeList w (alignedBuf w buf) (prvCalcStride w blockSize) n 0 m₀ none).1 ∧
      pool = Mempool.laidOut w (alignedBuf w buf) blockSize n
        (buildFreeList w (alignedBuf w buf) (prvCalcStride w blockSize) n 0 m₀ none).2 := by
  rw [osMempoolCreate] at h
  dsimp only at h
  split at h
  · cases h
  · split at h
    · cases h
    · split at h
      · cases h
      · next hn =>
          simp only [Prod.mk.injEq, Option.some.injEq, and_true] at h
          exact ⟨_, rfl, hn, h.1.symm, h.2.symm⟩

/-- **What `os_mempool_create` builds** from a buffer that lies in the address space and holds its
padding. -/
theorem osMempoolCreate_ok {m₀ m : Mem} {pool₀ pool : Mempool} {buf bufSize blockSize : Nat}
    (h : osMempoolCreate w m₀ (some pool₀) (some buf) bufSize blockSize = (m, some pool, .ok))
    (hbuf : 0 < buf) (hfits : buf + bufSize < w.space) (hsize : bufSize < 2 ^ 32)
    (hpad : poolPadding w buf ≤ bufSize) (hblock : blockSize + w.bytes ≤ 2 ^ 32) :
    pool.WellFormed w ∧ Threaded w.bytes m pool.freeList (pool.blocks w).reverse ∧
      pool.freeCount = pool.totalBlocks ∧ pool.minFreeCount = pool.totalBlocks := by
  obtain ⟨hdvd, haligned⟩ := alignedBuf_spec hfits hpad
  obtain ⟨hsdvd, hble, hple⟩ := prvCalcStride_spec hblock
  obtain ⟨n, hn, -, rfl, rfl⟩ := osMempoolCreate_inv h
  -- `hpad` keeps the usable size from wrapping below zero
  have husable := usable_of_padding_le hsize hpad
  -- the blocks fit in what is left of the buffer, so nothing below wraps
  have hmul : n * prvCalcStride w blockSize ≤ bufSize - poolPadding w buf := by
    rw [hn, husable]
    exact Nat.div_mul_le_self _ _
  have hend : (alignedBuf w buf + n * prvCalcStride w blockSize % 2 ^ 32) % w.space
      = alignedBuf w buf + n * prvCalcStride w blockSize := by
    rw [Nat.mod_eq_of_lt (by omega : n * prvCalcStride w blockSize < 2 ^ 32),
      Nat.mod_eq_of_lt (by omega)]
  refine ⟨⟨?_, hdvd, hsdvd, hble, hple, hend, ?_, ?_⟩, ?_, rfl, rfl⟩
  · show 0 < alignedBuf w buf
    omega
  · exact lt_of_eq_of_lt hend (by omega)
  · exact lt_of_le_of_lt hmul (by omega)
  · have hbuilt := threaded_buildFreeList (w := w) (m := m₀) (i := 0) (n := n) Threaded.nil
      (by omega : 0 < alignedBuf w buf) hple (by rw [Nat.zero_add]; omega)
      (by rw [Nat.zero_add]; omega)
    rwa [Nat.zero_add] at hbuilt

/-- **The invariant of a pool in use**: `free` is the free list, and it and the blocks that are
handed out make up the pool. -/
structure PoolInv (w : PtrWidth) (s : PoolSys) (free : List Addr) : Prop where
  /-- The blocks lie in a row. -/
  wf : s.pool.WellFormed w
  /-- The free list in memory. -/
  threaded : Threaded w.bytes s.mem s.pool.freeList free
  /-- Every block is either free or handed out. -/
  split : (free ++ s.allocated).Perm (s.pool.blocks w)
  /-- `free_count` counts the free list. -/
  count : s.pool.freeCount = free.length
  /-- The latest count is on record. -/
  latest : s.pool.freeCount ∈ s.counts
  /-- `min_free_count` was reached. -/
  min_mem : s.pool.minFreeCount ∈ s.counts
  /-- No count was smaller. -/
  min_le : ∀ c ∈ s.counts, s.pool.minFreeCount ≤ c

namespace PoolInv

variable {s : PoolSys} {free : List Addr}

/-- No block is free twice, allocated twice, or both. -/
theorem nodup (h : PoolInv w s free) : (free ++ s.allocated).Nodup :=
  h.split.nodup_iff.mpr (nodup_grid (lt_of_lt_of_le w.bytes_pos h.wf.bytes_le))

/-- A block is free or allocated. -/
theorem mem_blocks (h : PoolInv w s free) {b : Addr} :
    b ∈ s.pool.blocks w ↔ b ∈ free ∨ b ∈ s.allocated := by
  rw [← h.split.mem_iff, List.mem_append]

/-- A block is an address, and it ends in the pool. -/
theorem bounds (h : PoolInv w s free) {b : Nat} (hb : b ∈ s.pool.blocks w) :
    s.pool.poolStart ≤ b ∧ b + prvCalcStride w s.pool.blockSize ≤ s.pool.poolEnd := by
  have := grid_bounds hb
  rw [h.wf.end_eq]
  exact this

/-- A block lies in the address space, and not at null. -/
theorem address (h : PoolInv w s free) {b : Nat} (hb : b ∈ s.pool.blocks w) :
    0 < b ∧ b < w.space := by
  obtain ⟨hstart, hlast⟩ := h.bounds hb
  have hpos := h.wf.start_pos
  have hend := h.wf.end_lt
  omega

/-- The counter does not wrap. -/
theorem count_lt (h : PoolInv w s free) : free.length + s.allocated.length < 2 ^ 32 := by
  have hlen : (free ++ s.allocated).length = s.pool.totalBlocks := by
    rw [h.split.length_eq, Mempool.blocks, length_grid]
  have hpos : 0 < prvCalcStride w s.pool.blockSize := lt_of_lt_of_le w.bytes_pos h.wf.bytes_le
  have hle : s.pool.totalBlocks ≤ s.pool.totalBlocks * prvCalcStride w s.pool.blockSize :=
    Nat.le_mul_of_pos_right _ hpos
  have hlt := h.wf.size_lt
  rw [List.length_append] at hlen
  omega

/-- `os_mempool_alloc` with no free block. -/
theorem alloc_empty (h : PoolInv w s []) :
    osMempoolAlloc w s.mem (some s.pool) = some (some s.pool, none) := by
  have hcount : s.pool.freeCount = 0 := h.count
  rw [osMempoolAlloc, if_pos hcount]

/-- **`os_mempool_alloc` pops the free list.** -/
theorem alloc_pop {b : Addr} (h : PoolInv w s (b :: free)) :
    osMempoolAlloc w s.mem (some s.pool) = some (some { s.pool with
      freeList := loadPtr w.bytes s.mem b
      freeCount := free.length
      minFreeCount :=
        if free.length < s.pool.minFreeCount then free.length else s.pool.minFreeCount },
      some b) := by
  have hlt := h.count_lt
  have hcount : s.pool.freeCount = free.length + 1 := h.count
  have hdec : (s.pool.freeCount + (2 ^ 32 - 1)) % 2 ^ 32 = free.length := by
    rw [List.length_cons] at hlt
    omega
  rw [osMempoolAlloc, if_neg (by omega), h.threaded.pop.1]
  dsimp only
  rw [hdec]

/-- **`os_mempool_free` pushes a block that was handed out.** -/
theorem free_push (h : PoolInv w s free) {b : Nat} (hb : b ∈ s.allocated) :
    osMempoolFree w s.mem (some s.pool) (some b)
      = (storePtr w.bytes s.mem b s.pool.freeList,
          some { s.pool with freeList := some b, freeCount := free.length + 1 }, .ok) := by
  have hblock := h.mem_blocks.mpr (.inr hb)
  have hbounds := h.bounds hblock
  have hp := w.bytes_pos
  have hple := h.wf.bytes_le
  have hend := h.wf.end_eq
  have hlt := h.wf.size_lt
  -- the two checks of the source: the block is in the pool's range, and on a block boundary
  have hoffset : (b - s.pool.poolStart) % 2 ^ 32 % prvCalcStride w s.pool.blockSize = 0 := by
    obtain ⟨i, -, hi⟩ := mem_grid.mp hblock
    rw [Nat.mod_eq_of_lt (by omega : b - s.pool.poolStart < 2 ^ 32), hi, Nat.add_sub_cancel_left,
      Nat.mul_mod_left]
  have hcount : (s.pool.freeCount + 1) % 2 ^ 32 = free.length + 1 := by
    have hlt := h.count_lt
    have hpos := List.length_pos_of_mem hb
    rw [h.count, Nat.mod_eq_of_lt (by omega)]
  have hin : ¬ (b < s.pool.poolStart ∨ s.pool.poolEnd ≤ b) := by omega
  rw [osMempoolFree]
  dsimp only
  rw [if_neg hin, hoffset, if_neg (by simp), hcount]

/-- A refused request only adds to the record. -/
theorem refused (h : PoolInv w s []) :
    poolStep w s .alloc = some { s with counts := s.pool.freeCount :: s.counts } ∧
      PoolInv w { s with counts := s.pool.freeCount :: s.counts } [] := by
  refine ⟨by rw [poolStep, h.alloc_empty]; rfl, ?_⟩
  exact ⟨h.wf, h.threaded, h.split, h.count, List.mem_cons_self, List.mem_cons_of_mem _ h.min_mem,
    List.forall_mem_cons.mpr ⟨h.min_le _ h.latest, h.min_le⟩⟩

/-- The pool after a block was taken from the front of the free list. -/
def popped (w : PtrWidth) (s : PoolSys) (b : Addr) (free : List Addr) : PoolSys :=
  { s with
    pool := { s.pool with
      freeList := loadPtr w.bytes s.mem b
      freeCount := free.length
      minFreeCount :=
        if free.length < s.pool.minFreeCount then free.length else s.pool.minFreeCount }
    allocated := b :: s.allocated
    counts := free.length :: s.counts }

/-- **Taking a block** moves it from the free list to those that are handed out. -/
theorem taken {b : Addr} (h : PoolInv w s (b :: free)) :
    poolStep w s .alloc = some (popped w s b free) ∧ PoolInv w (popped w s b free) free := by
  refine ⟨by rw [poolStep, h.alloc_pop]; rfl, ?_⟩
  refine ⟨?_, h.threaded.pop.2, List.perm_middle.trans h.split, rfl, List.mem_cons_self, ?_, ?_⟩
  · exact ⟨h.wf.start_pos, h.wf.start_dvd, h.wf.stride_dvd, h.wf.blockSize_le, h.wf.bytes_le,
      h.wf.end_eq, h.wf.end_lt, h.wf.size_lt⟩
  · rw [popped]
    dsimp only
    split
    · exact List.mem_cons_self
    · exact List.mem_cons_of_mem _ h.min_mem
  · refine List.forall_mem_cons.mpr ⟨?_, fun c hc => ?_⟩
    · rw [popped]
      dsimp only
      split <;> omega
    · have := h.min_le c hc
      rw [popped]
      dsimp only
      split <;> omega

/-- The pool after a block was put at the front of the free list. -/
def pushed (w : PtrWidth) (s : PoolSys) (b : Addr) (free : List Addr) : PoolSys :=
  { mem := storePtr w.bytes s.mem b s.pool.freeList
    pool := { s.pool with freeList := some b, freeCount := free.length + 1 }
    allocated := s.allocated.erase b
    counts := (free.length + 1) :: s.counts }

/-- **Giving a block back** moves it to the free list. -/
theorem returned (h : PoolInv w s free) {b : Nat} (hb : b ∈ s.allocated) :
    poolStep w s (.free b) = some (pushed w s b free) ∧
      PoolInv w (pushed w s b free) (b :: free) := by
  have hblock := h.mem_blocks.mpr (.inr hb)
  refine ⟨by rw [poolStep, h.free_push hb]; rfl, ?_⟩
  refine ⟨?_, ?_, ?_, rfl, List.mem_cons_self, List.mem_cons_of_mem _ h.min_mem, ?_⟩
  · exact ⟨h.wf.start_pos, h.wf.start_dvd, h.wf.stride_dvd, h.wf.blockSize_le, h.wf.bytes_le,
      h.wf.end_eq, h.wf.end_lt, h.wf.size_lt⟩
  · refine h.threaded.push (fun a ha => ?_) (fun a ha => ?_)
    · exact h.address (h.mem_blocks.mpr (.inl ha))
    · have hab : a ≠ b := fun hab => List.disjoint_of_nodup_append h.nodup ha (hab ▸ hb)
      have hapart := grid_apart (h.mem_blocks.mpr (.inl ha)) hblock hab
      exact hapart.imp (le_trans (Nat.add_le_add_left h.wf.bytes_le _))
        (le_trans (Nat.add_le_add_left h.wf.bytes_le _))
  · refine List.Perm.trans ?_ h.split
    exact List.perm_middle.symm.trans ((List.perm_cons_erase hb).symm.append_left free)
  · refine List.forall_mem_cons.mpr ⟨?_, h.min_le⟩
    have hle := h.min_le _ h.latest
    rw [h.count] at hle
    exact hle.trans (Nat.le_succ _)

/-- **A write of a user** does not touch the free list: the bytes written belong to a block that is
handed out, the pointers to free ones. -/
theorem written (h : PoolInv w s free) {a : Nat} {bs : List UInt8}
    (hop : (PoolOp.write a bs).Allowed s) :
    PoolInv w { s with mem := writeBytes s.mem a bs } free := by
  obtain ⟨b, hb, hba, hend⟩ := hop
  refine ⟨h.wf, h.threaded.congr fun c hc x hx hx' => writeBytes_of_not_mem _ ?_, h.split, h.count,
    h.latest, h.min_mem, h.min_le⟩
  have hcb : c ≠ b := fun hcb => List.disjoint_of_nodup_append h.nodup hc (hcb ▸ hb)
  have hapart := grid_apart (h.mem_blocks.mpr (.inl hc)) (h.mem_blocks.mpr (.inr hb)) hcb
  have hdata := Nat.add_le_add_left h.wf.blockSize_le b
  have hptr := Nat.add_le_add_left h.wf.bytes_le c
  rcases hapart with hlt | hlt
  · exact .inl (lt_of_lt_of_le hx' (hptr.trans (hlt.trans hba)))
  · exact .inr (hend.trans (hdata.trans (hlt.trans hx)))

/-- **One step** of a pool in use: it does not fault, and the pool stays in order. -/
theorem step (h : PoolInv w s free) {op : PoolOp} (hop : op.Allowed s) :
    ∃ s' free', poolStep w s op = some s' ∧ PoolInv w s' free' ∧
      s'.pool.blocks w = s.pool.blocks w ∧ s'.pool.blockSize = s.pool.blockSize := by
  cases op with
  | alloc =>
      cases free with
      | nil => exact ⟨_, [], h.refused.1, h.refused.2, rfl, rfl⟩
      | cons b l => exact ⟨_, l, h.taken.1, h.taken.2, rfl, rfl⟩
  | free b => exact ⟨_, b :: free, (h.returned hop).1, (h.returned hop).2, rfl, rfl⟩
  | write a bs => exact ⟨_, free, rfl, h.written hop, rfl, rfl⟩

end PoolInv

/-! ## What a pool is for -/

/-- **A pool in order**: the free list holds exactly the blocks that are not handed out, a request is
refused only when all are, and the blocks do not overlap. -/
structure PoolExact (w : PtrWidth) (s : PoolSys) : Prop where
  /-- From `free_list` the pointers in memory lead through `free_count` different blocks to null,
  namely those that are not handed out. -/
  free_list : ∃ free, Threaded w.bytes s.mem s.pool.freeList free ∧ free.Nodup ∧
    free.length = s.pool.freeCount ∧ ∀ b, b ∈ free ↔ b ∈ s.pool.blocks w ∧ b ∉ s.allocated
  /-- Each block is handed out at most once. -/
  allocated : s.allocated.Nodup ∧ ∀ b ∈ s.allocated, b ∈ s.pool.blocks w
  /-- There are `total_blocks` blocks. -/
  blocks : (s.pool.blocks w).Nodup ∧ (s.pool.blocks w).length = s.pool.totalBlocks
  /-- `os_mempool_alloc` returns `NULL` exactly when all blocks are handed out. -/
  alloc_null : (osMempoolAlloc w s.mem (some s.pool)).map Prod.snd = some none ↔
    s.allocated.length = s.pool.totalBlocks
  /-- Otherwise it returns a block that was not handed out. -/
  alloc_fresh : s.allocated.length ≠ s.pool.totalBlocks → ∃ pool b,
    osMempoolAlloc w s.mem (some s.pool) = some (some pool, some b) ∧
      b ∈ s.pool.blocks w ∧ b ∉ s.allocated
  /-- A block that is handed out can be given back. -/
  free_ok : ∀ b ∈ s.allocated, (osMempoolFree w s.mem (some s.pool) (some b)).2.2 = .ok
  /-- Blocks are aligned for pointers. -/
  aligned : ∀ b ∈ s.pool.blocks w, w.bytes ∣ b
  /-- Blocks are at least `block_size` bytes apart. -/
  apart : ∀ a ∈ s.pool.blocks w, ∀ b ∈ s.pool.blocks w, a ≠ b →
    a + s.pool.blockSize ≤ b ∨ b + s.pool.blockSize ≤ a
  /-- `min_free_count` is the smallest `free_count` so far. -/
  minimum : s.pool.minFreeCount ∈ s.counts ∧ ∀ c ∈ s.counts, s.pool.minFreeCount ≤ c
  /-- The current `free_count` is on record. -/
  latest : s.pool.freeCount ∈ s.counts

/-- The invariant says that the pool is in order. -/
theorem PoolInv.exact {s : PoolSys} {free : List Addr} (h : PoolInv w s free) : PoolExact w s := by
  have hstride : 0 < prvCalcStride w s.pool.blockSize := lt_of_lt_of_le w.bytes_pos h.wf.bytes_le
  -- the two lists together are the grid, so their lengths add up to the pool's
  have hlen : free.length + s.allocated.length = s.pool.totalBlocks := by
    rw [← List.length_append, h.split.length_eq, Mempool.blocks, length_grid]
  refine
    { free_list := ⟨free, h.threaded, h.nodup.of_append_left, h.count.symm, fun b => ?_⟩
      allocated := ⟨h.nodup.of_append_right, fun b hb => h.mem_blocks.mpr (.inr hb)⟩
      blocks := ⟨nodup_grid hstride, length_grid⟩
      alloc_null := ?_
      alloc_fresh := ?_
      free_ok := fun b hb => by rw [h.free_push hb]
      aligned := fun b hb => dvd_of_mem_grid h.wf.start_dvd h.wf.stride_dvd hb
      apart := fun a ha b hb hab => ?_
      minimum := ⟨h.min_mem, h.min_le⟩
      latest := h.latest }
  · rw [h.mem_blocks]
    constructor
    · exact fun hb => ⟨.inl hb, List.disjoint_of_nodup_append h.nodup hb⟩
    · exact fun hb => hb.1.resolve_right hb.2
  · cases free with
    | nil => simpa [h.alloc_empty] using hlen
    | cons b l =>
        rw [List.length_cons] at hlen
        rw [h.alloc_pop]
        constructor
        · intro hnull
          cases hnull
        · omega
  · intro hne
    cases free with
    | nil => exact absurd (by simpa using hlen) hne
    | cons b l =>
        exact ⟨_, b, h.alloc_pop, h.mem_blocks.mpr (.inl List.mem_cons_self),
          List.disjoint_of_nodup_append h.nodup List.mem_cons_self⟩
  · exact (grid_apart ha hb hab).imp (le_trans (Nat.add_le_add_left h.wf.blockSize_le _))
      (le_trans (Nat.add_le_add_left h.wf.blockSize_le _))

/-- A new pool meets the invariant. -/
theorem poolInv_created {m : Mem} {pool : Mempool} (hwf : pool.WellFormed w)
    (hfree : Threaded w.bytes m pool.freeList (pool.blocks w).reverse)
    (hcount : pool.freeCount = pool.totalBlocks) (hmin : pool.minFreeCount = pool.totalBlocks) :
    PoolInv w (PoolSys.created m pool) (pool.blocks w).reverse := by
  have hmin' : pool.minFreeCount = pool.freeCount := hmin.trans hcount.symm
  refine ⟨hwf, hfree, ?_, ?_, List.mem_cons_self, List.mem_singleton.mpr hmin', fun c hc => ?_⟩
  · show ((pool.blocks w).reverse ++ []).Perm (pool.blocks w)
    rw [List.append_nil]
    exact List.reverse_perm _
  · show pool.freeCount = _
    rw [List.length_reverse, Mempool.blocks, length_grid, hcount]
  · rw [List.mem_singleton.mp hc]
    exact hmin'.le

/-- **A memory pool hands each block to one user at a time.** Create a pool in a buffer that lies in
the address space and holds its own alignment padding, with a block size that can be rounded up.
After any calls of `os_mempool_alloc` and `os_mempool_free`, the latter with blocks that are handed
out, and any writes of users to the first `block_size` bytes of their blocks, the pool is in order
and has the blocks it was created with; no call faults. -/
theorem mempool_exact (w : PtrWidth) {m₀ m : Mem} {pool₀ pool : Mempool}
    {buf bufSize blockSize : Nat} {ops : List PoolOp} {s : PoolSys}
    (hbuf : 0 < buf) (hfits : buf + bufSize < w.space) (hsize : bufSize < 2 ^ 32)
    (hcreate : osMempoolCreate w m₀ (some pool₀) (some buf) bufSize blockSize = (m, some pool, .ok))
    (hpad : poolPadding w buf ≤ bufSize) (hblock : blockSize ≤ 2 ^ 32 - w.bytes)
    (hr : Run (fun s op => op.Allowed s) (poolStep w) (PoolSys.created m pool) ops s) :
    PoolExact w s ∧ s.pool.blocks w = pool.blocks w ∧ s.pool.blockSize = blockSize ∧
      ∀ op : PoolOp, op.Allowed s → (poolStep w s op).isSome := by
  have hbytes : w.bytes ≤ 2 ^ 32 := by rcases w.bytes_eq with h | h <;> omega
  obtain ⟨hwf, hfree, hcount, hmin⟩ :=
    osMempoolCreate_ok hcreate hbuf hfits hsize hpad (by omega)
  -- The free list and the ledger divide the same grid at every step of the run.
  have hinv : (∃ free, PoolInv w s free) ∧ s.pool.blocks w = pool.blocks w ∧
      s.pool.blockSize = pool.blockSize := by
    refine hr.invariant (fun s => (∃ free, PoolInv w s free) ∧ s.pool.blocks w = pool.blocks w ∧
      s.pool.blockSize = pool.blockSize) ?_ ⟨⟨_, poolInv_created hwf hfree hcount hmin⟩, rfl, rfl⟩
    rintro s op s' ⟨⟨free, h⟩, hblocks, hsize⟩ hop hs
    obtain ⟨s₁, free', hs₁, h', hblocks', hsize'⟩ := h.step hop
    obtain rfl : s₁ = s' := Option.some.inj (hs₁.symm.trans hs)
    exact ⟨⟨free', h'⟩, hblocks'.trans hblocks, hsize'.trans hsize⟩
  obtain ⟨⟨free, h⟩, hblocks, hbs⟩ := hinv
  refine ⟨h.exact, hblocks, hbs.trans ?_, fun op hop => ?_⟩
  · obtain ⟨n, -, -, -, rfl⟩ := osMempoolCreate_inv hcreate
    rfl
  · obtain ⟨s', -, hs', -⟩ := h.step hop
    rw [hs']
    rfl

/-- A pool of two blocks on a 32-bit target, in a buffer that starts between two words: both blocks
are taken, one is written and given back, and a user overwrites the other one with ones. -/
def poolTrace : List PoolOp :=
  [.alloc, .write 1012 [1, 2, 3], .alloc, .alloc, .free 1012, .write 1004 [255, 255, 255, 255, 255]]

/-- The theorem at that run. -/
theorem mempool_exact_poolTrace : ∃ s,
    Run (fun s op => PoolOp.Allowed s op) (poolStep ⟨4, .inl rfl⟩)
      (PoolSys.created
        (osMempoolCreate ⟨4, .inl rfl⟩ (fun _ => 0) (some ⟨0, 0, 0, 0, 0, 0, none⟩) (some 1001) 20 5).1
        ⟨1004, 1020, 5, 2, 2, 2, some 1012⟩) poolTrace s ∧
      PoolExact ⟨4, .inl rfl⟩ s ∧ s.allocated = [1004] ∧ s.pool.freeList = some 1012 := by
  obtain ⟨s, hr, hs⟩ := exists_run_of_exec (fun s op => PoolOp.Allowed s op)
    (poolStep ⟨4, .inl rfl⟩)
    (PoolSys.created
      (osMempoolCreate ⟨4, .inl rfl⟩ (fun _ => 0) (some ⟨0, 0, 0, 0, 0, 0, none⟩) (some 1001) 20 5).1
      ⟨1004, 1020, 5, 2, 2, 2, some 1012⟩) poolTrace
    (fun s => s.allocated = [1004] ∧ s.pool.freeList = some 1012) (by decide +kernel)
  refine ⟨s, hr, ?_, hs⟩
  exact (mempool_exact ⟨4, .inl rfl⟩ (by decide) (by decide) (by decide) (Prod.ext rfl
    (by decide +kernel)) (by decide +kernel) (by decide) hr).1

end MiniRTOS
