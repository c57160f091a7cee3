import MiniRTOS.Kernel.Mempool

/-! # Where a memory pool lies

`os_mempool_create` subtracts the alignment padding from `buf_size` and rounds `block_size` up, both in
32 bits and without a check. A buffer that ends before its first aligned address leaves almost 4 GB to
cut into blocks, and a block size next to 2^32 is rounded up to nothing.

* **`freeListWrites`** — the bytes that the building of the free list writes.
* **`Mempool.InBuffer`** — the blocks of a pool, and those bytes, lie in the buffer.
* **`osMempoolCreate_inBuffer_iff`** — the buffers and block sizes for which every pool does. -/

namespace MiniRTOS

open ByteMemory FreeList

variable {w : PtrWidth} {m₀ m : Mem} {pool₀ pool : Mempool} {buf bufSize blockSize start stride : Nat}

/-- The byte addresses that `buildFreeList` writes in `n` rounds from index `i` on. -/
def freeListWrites (w : PtrWidth) (alignedBuf stride : Nat) : Nat → Nat → List Addr
  | 0, _ => []
  | n + 1, i =>
      let block := (alignedBuf + i * stride % 2 ^ 32) % w.space
      (List.range w.bytes).map (block + ·) ++ freeListWrites w alignedBuf stride n (i + 1)

/-- **Nothing else is written.** -/
theorem buildFreeList_of_not_mem {n i a : Nat} {head : Option Addr}
    (ha : a ∉ freeListWrites w start stride n i) :
    (buildFreeList w start stride n i m head).1 a = m a := by
  induction n generalizing i m head with
  | zero => rfl
  | succ n ih =>
      rw [freeListWrites, List.mem_append, not_or] at ha
      obtain ⟨hblock, hrest⟩ := ha
      rw [buildFreeList]
      refine (ih hrest).trans (store_of_not_mem m ?_)
      by_contra hin
      refine hblock (List.mem_map.mpr
        ⟨a - (start + i * stride % 2 ^ 32) % w.space, List.mem_range.mpr ?_, ?_⟩) <;> omega

/-- While nothing wraps, the bytes lie in the blocks. -/
theorem freeListWrites_bounds {n i a : Nat} (hp : w.bytes ≤ stride)
    (hsize : (i + n) * stride < 2 ^ 32) (hend : start + (i + n) * stride < w.space)
    (ha : a ∈ freeListWrites w start stride n i) : start ≤ a ∧ a < start + (i + n) * stride := by
  induction n generalizing i with
  | zero => cases ha
  | succ n ih =>
      have hi : i + 1 + n = i + (n + 1) := by omega
      rw [freeListWrites, List.mem_append] at ha
      rcases ha with hblock | hrest
      · -- block `i` ends before the end of the grid
        have hle : (i + 1) * stride ≤ (i + (n + 1)) * stride := Nat.mul_le_mul_right _ (by omega)
        have hsucc : (i + 1) * stride = i * stride + stride := Nat.succ_mul i stride
        obtain ⟨j, hj, rfl⟩ := List.mem_map.mp hblock
        have hj := List.mem_range.mp hj
        have hpos := w.bytes_pos
        rw [Nat.mod_eq_of_lt (by omega : i * stride < 2 ^ 32), Nat.mod_eq_of_lt (by omega)]
        omega
      · have hrest := ih (by rw [hi]; exact hsize) (by rw [hi]; exact hend) hrest
        rwa [hi] at hrest

/-- **A pool in its buffer**: a row of aligned blocks of at least the size that was asked for, all in
the buffer, as are the bytes that the building of the free list has written. -/
structure Mempool.InBuffer (w : PtrWidth) (buf bufSize blockSize : Nat) (pool : Mempool) : Prop where
  /-- The pool starts in the buffer. -/
  start_le : buf ≤ pool.poolStart
  /-- It ends there. -/
  end_le : pool.poolEnd ≤ buf + bufSize
  /-- It has a block. -/
  blocks_pos : 1 ≤ pool.totalBlocks
  /-- The blocks fill it. -/
  end_eq : pool.poolStart + pool.totalBlocks * prvCalcStride w blockSize = pool.poolEnd
  /-- The first block is aligned. -/
  start_dvd : w.bytes ∣ pool.poolStart
  /-- So are the others. -/
  stride_dvd : w.bytes ∣ prvCalcStride w blockSize
  /-- A block has room for the data. -/
  blockSize_le : blockSize ≤ prvCalcStride w blockSize
  /-- The free list lies in the pool. -/
  writes : ∀ a ∈ freeListWrites w pool.poolStart (prvCalcStride w blockSize) pool.totalBlocks 0,
    pool.poolStart ≤ a ∧ a < pool.poolEnd

/-- Some aligned address of the buffer, or its end, has `n` bytes of the buffer behind it. -/
def AlignedIn (w : PtrWidth) (buf bufSize n : Nat) : Prop :=
  ∃ a, w.bytes ∣ a ∧ buf ≤ a ∧ a + n ≤ buf + bufSize

/-- **The sizes that are safe.** A block size that can be rounded up needs a buffer that reaches an
aligned address; without one, only the very last addresses are saved, where the largest block is refused.
A block size that cannot be rounded up must be refused for want of room for a pointer. -/
def PoolStays (w : PtrWidth) (buf bufSize blockSize : Nat) : Prop :=
  if blockSize + w.bytes ≤ 2 ^ 32 then
    AlignedIn w buf bufSize 0 ∨ w.space < buf + w.bytes ∧ 2 ^ 32 < blockSize + 2 * w.bytes
  else AlignedIn w buf bufSize 0 ∧ ¬ AlignedIn w buf bufSize w.bytes

/-! ## When a pool is created -/

/-- A buffer with room for a block is accepted. -/
theorem osMempoolCreate_of_room (m₀ : Mem) (pool₀ : Mempool) (hbuf : 0 < bufSize) (hblock : 0 < blockSize)
    (hroom : prvCalcStride w blockSize ≤ (bufSize + 2 ^ 32 - poolPadding w buf) % 2 ^ 32) :
    ∃ m pool, osMempoolCreate w m₀ (some pool₀) (some buf) bufSize blockSize = (m, some pool, .ok) := by
  have hbytes := bytes_le_prvCalcStride (w := w) blockSize
  have hpos := w.bytes_pos
  have hn := Nat.div_pos hroom (by omega)
  have hparam : ¬ (bufSize = 0 ∨ blockSize = 0) := by omega
  rw [osMempoolCreate]
  dsimp only
  rw [if_neg hparam, if_neg (by omega), if_neg (by omega)]
  exact ⟨_, _, rfl⟩

/-- A buffer without is not. -/
theorem room_of_osMempoolCreate
    (h : osMempoolCreate w m₀ (some pool₀) (some buf) bufSize blockSize = (m, some pool, .ok)) :
    prvCalcStride w blockSize ≤ (bufSize + 2 ^ 32 - poolPadding w buf) % 2 ^ 32 := by
  obtain ⟨n, hn, hpos, -, -⟩ := osMempoolCreate_inv h
  by_contra hlt
  rw [Nat.div_eq_of_lt (Nat.lt_of_not_le hlt)] at hn
  exact hpos hn

/-- The stride of a block size that can be rounded up. -/
theorem prvCalcStride_lt (hpos : 0 < blockSize) (h : blockSize + w.bytes ≤ 2 ^ 32) :
    prvCalcStride w blockSize < blockSize + w.bytes := by
  have hspace : 2 ^ 32 ≤ w.space := by
    rcases w.cases with ⟨-, hs⟩ | ⟨-, hs⟩ <;> omega
  obtain ⟨-, -, hlt⟩ := poolAlignSize_spec (w := w) (h.trans hspace)
  rw [prvCalcStride, Nat.mod_eq_of_lt (by omega)]
  split <;> omega

/-- **A block size that cannot be rounded up** gets the smallest stride. -/
theorem prvCalcStride_of_wrap (h : 2 ^ 32 < blockSize + w.bytes) (hblock : blockSize < 2 ^ 32) :
    prvCalcStride w blockSize = w.bytes := by
  have hmod : poolAlignSize w blockSize % 2 ^ 32 = 0 := by
    rcases w.cases with ⟨hb, hs⟩ | ⟨hb, hs⟩
    · -- the sum wraps in 32 bits
      rw [poolAlignSize_of_wrap (by omega) (by omega), Nat.zero_mod]
    · -- it does not wrap in 64 bits, but the assignment to `stride` cuts it off
      have hdvd := poolAlignSize_spec (w := w) (s := blockSize) (by omega)
      rw [hb] at hdvd h
      omega
  rw [prvCalcStride, hmod, if_pos w.bytes_pos]

/-! ## Where it lies -/

/-- The padding, in terms of aligned addresses. -/
theorem alignedIn_iff {n : Nat} (hfits : buf + bufSize < w.space) :
    AlignedIn w buf bufSize n ↔ poolPadding w buf + n ≤ bufSize := by
  have hpos := w.bytes_pos
  rcases alignedBuf_cases (w := w) (by omega : buf < w.space) with
    ⟨-, haligned, hlt, hdvd⟩ | ⟨hwrap, -, hpad⟩
  · refine ⟨fun ⟨a, ha, hle, hend⟩ => ?_, fun h => ⟨_, hdvd, by omega, by omega⟩⟩
    -- no aligned address lies between the start of the buffer and `aligned_buf`
    have hnext : alignedBuf w buf ≤ a := by
      by_contra hless
      have hgap := Nat.le_of_dvd (by omega) (Nat.dvd_sub hdvd ha)
      omega
    omega
  · refine ⟨fun ⟨a, ha, hle, hend⟩ => ?_, fun h => by omega⟩
    have hspace : w.bytes ∣ w.space := by
      rcases w.cases with ⟨hb, hs⟩ | ⟨hb, hs⟩ <;> rw [hb, hs] <;> decide
    have hgap := Nat.le_of_dvd (by omega) (Nat.dvd_sub hspace ha)
    omega

/-- **A pool that stays**: the buffer reaches an aligned address and the block size can be rounded
up. -/
theorem osMempoolCreate_inBuffer (hbuf : 0 < buf) (hfits : buf + bufSize < w.space)
    (hsize : bufSize < 2 ^ 32) (hpad : poolPadding w buf ≤ bufSize) (hblock : blockSize + w.bytes ≤ 2 ^ 32)
    (h : osMempoolCreate w m₀ (some pool₀) (some buf) bufSize blockSize = (m, some pool, .ok)) :
    pool.InBuffer w buf bufSize blockSize := by
  obtain ⟨hwf, -, -, -⟩ := osMempoolCreate_ok h hbuf hfits hsize hpad hblock
  obtain ⟨hdvd, haligned⟩ := alignedBuf_spec hfits hpad
  obtain ⟨n, hn, hpos, -, rfl⟩ := osMempoolCreate_inv h
  rw [usable_of_padding_le hsize hpad] at hn
  have hmul : n * prvCalcStride w blockSize ≤ bufSize - poolPadding w buf := by
    rw [hn]
    exact Nat.div_mul_le_self _ _
  have hend := hwf.end_eq
  have hlt := hwf.end_lt
  simp only [Mempool.laidOut] at hend hlt
  refine ⟨?_, ?_, Nat.pos_of_ne_zero hpos, hend.symm, hdvd, hwf.stride_dvd, hwf.blockSize_le,
    fun a ha => ?_⟩
  · show buf ≤ alignedBuf w buf
    omega
  · refine le_of_eq_of_le hend ?_
    omega
  · have hbounds := freeListWrites_bounds (n := n) (i := 0) hwf.bytes_le
      (by rw [Nat.zero_add]; exact lt_of_le_of_lt hmul (by omega))
      (by rw [Nat.zero_add]; exact lt_of_eq_of_lt hend.symm hlt) ha
    rw [Nat.zero_add] at hbounds
    exact ⟨hbounds.1, lt_of_lt_of_eq hbounds.2 hend.symm⟩

/-- **The rest of the memory** keeps its bytes when a pool is built in its buffer. -/
theorem Mempool.InBuffer.keeps {a : Nat} (hin : pool.InBuffer w buf bufSize blockSize)
    (h : osMempoolCreate w m₀ (some pool₀) (some buf) bufSize blockSize = (m, some pool, .ok))
    (ha : a < buf ∨ buf + bufSize ≤ a) : m a = m₀ a := by
  have hstart := hin.start_le
  have hend := hin.end_le
  have hwrites := hin.writes
  obtain ⟨n, -, -, rfl, rfl⟩ := osMempoolCreate_inv h
  refine buildFreeList_of_not_mem fun hmem => ?_
  obtain ⟨hle, hlt⟩ := hwrites a hmem
  have hfirst : buf ≤ a := hstart.trans hle
  have hlast : a < buf + bufSize := lt_of_lt_of_le hlt hend
  omega

/-- **A pool that leaves**: the buffer ends before the first aligned address. -/
theorem not_inBuffer_of_padding (hfits : buf + bufSize < w.space) (hpad : bufSize < poolPadding w buf)
    (h : osMempoolCreate w m₀ (some pool₀) (some buf) bufSize blockSize = (m, some pool, .ok)) :
    ¬ pool.InBuffer w buf bufSize blockSize := by
  intro hin
  have hstart := hin.start_le
  have hlast := hin.end_le
  have hend := hin.end_eq
  obtain ⟨n, -, -, -, rfl⟩ := osMempoolCreate_inv h
  simp only [Mempool.laidOut] at hstart hlast hend
  rcases alignedBuf_cases (w := w) (by omega : buf < w.space) with
    ⟨-, haligned, -, -⟩ | ⟨hwrap, haligned, -⟩
  · -- the pool starts behind the end of the buffer
    omega
  · -- the pool starts next to null, the buffer at the end of the address space
    rcases w.cases with ⟨hb, hs⟩ | ⟨hb, hs⟩ <;> omega

/-- The wrapped size of a buffer that does not hold its padding. -/
theorem usable_of_padding_gt (hpad : bufSize < poolPadding w buf) (_ : poolPadding w buf ≤ 2 ^ 32) :
    (bufSize + 2 ^ 32 - poolPadding w buf) % 2 ^ 32 = bufSize + 2 ^ 32 - poolPadding w buf :=
  Nat.mod_eq_of_lt (by omega)

/-- Such a buffer is refused only at the very end of the address space, for the largest block. -/
theorem room_iff_of_padding (hfits : buf + bufSize < w.space) (hpad : bufSize < poolPadding w buf)
    (hpos : 0 < blockSize) (hblock : blockSize + w.bytes ≤ 2 ^ 32) :
    prvCalcStride w blockSize ≤ (bufSize + 2 ^ 32 - poolPadding w buf) % 2 ^ 32 ↔
      ¬ (w.space < buf + w.bytes ∧ 2 ^ 32 < blockSize + 2 * w.bytes) := by
  obtain ⟨hdvd, hblockSize, -⟩ := prvCalcStride_spec hblock
  have hlt := prvCalcStride_lt hpos hblock
  rcases alignedBuf_cases (w := w) (by omega : buf < w.space) with
    ⟨hfit, -, hless, -⟩ | ⟨hwrap, -, hpad'⟩
  · rw [usable_of_padding_gt hpad (by omega)]
    rcases w.cases with ⟨hb, hs⟩ | ⟨hb, hs⟩ <;> rw [hb] at hdvd <;> omega
  · have hwidth : poolPadding w buf ≤ 2 ^ 32 := by
      rcases w.cases with ⟨hb, hs⟩ | ⟨hb, hs⟩ <;> omega
    rw [usable_of_padding_gt hpad hwidth]
    rcases w.cases with ⟨hb, hs⟩ | ⟨hb, hs⟩ <;> rw [hb] at hdvd <;> omega

/-- **When pools stay in their buffers.** For every buffer that lies in the address space and all
32-bit sizes, the pool that `os_mempool_create` makes is a row of aligned blocks of at least
`block_size` bytes in the buffer, and so are the bytes written, exactly for the safe sizes. -/
theorem osMempoolCreate_inBuffer_iff (w : PtrWidth) (m₀ : Mem) (pool₀ : Mempool) {buf bufSize blockSize : Nat}
    (hbuf : 0 < buf) (hfits : buf + bufSize < w.space) (hsize : 0 < bufSize ∧ bufSize < 2 ^ 32)
    (hblock : 0 < blockSize ∧ blockSize < 2 ^ 32) :
    (∀ m pool, osMempoolCreate w m₀ (some pool₀) (some buf) bufSize blockSize = (m, some pool, .ok) →
      pool.InBuffer w buf bufSize blockSize) ↔ PoolStays w buf bufSize blockSize := by
  have hzero := alignedIn_iff (w := w) (n := 0) hfits
  have hword := alignedIn_iff (w := w) (n := w.bytes) hfits
  rw [Nat.add_zero] at hzero
  unfold PoolStays
  rw [hzero, hword]
  by_cases hpad : poolPadding w buf ≤ bufSize
  · -- the usable size is right
    split
    · next hround =>
        exact ⟨fun _ => .inl hpad, fun _ m pool h => osMempoolCreate_inBuffer hbuf hfits hsize.2 hpad hround h⟩
    · next hround =>
        -- blocks of a pointer each, so there must be room for none
        have hstride := prvCalcStride_of_wrap (Nat.lt_of_not_le hround) hblock.2
        have husable := usable_of_padding_le hsize.2 hpad
        have hwidth : 2 * w.bytes ≤ 2 ^ 32 := by
          rcases w.cases with ⟨hb, -⟩ | ⟨hb, -⟩ <;> omega
        refine ⟨fun h => ⟨hpad, fun hroom => ?_⟩, fun ⟨_, hnone⟩ m pool h => ?_⟩
        · obtain ⟨m, pool, hcreate⟩ : ∃ m pool,
              osMempoolCreate w m₀ (some pool₀) (some buf) bufSize blockSize = (m, some pool, .ok) :=
            osMempoolCreate_of_room m₀ pool₀ hsize.1 hblock.1 (by rw [hstride, husable]; omega)
          have hle := (h m pool hcreate).blockSize_le
          rw [hstride] at hle
          omega
        · have hroom := room_of_osMempoolCreate h
          rw [hstride, husable] at hroom
          omega
  · -- the usable size has wrapped, and no pool that is made from it is right
    have hpad := Nat.lt_of_not_le hpad
    have hnone : (∀ m pool, osMempoolCreate w m₀ (some pool₀) (some buf) bufSize blockSize
        = (m, some pool, .ok) → pool.InBuffer w buf bufSize blockSize) ↔
        ¬ prvCalcStride w blockSize ≤ (bufSize + 2 ^ 32 - poolPadding w buf) % 2 ^ 32 := by
      refine ⟨fun h hroom => ?_, fun hroom m pool h => absurd (room_of_osMempoolCreate h) hroom⟩
      obtain ⟨m, pool, hcreate⟩ := osMempoolCreate_of_room m₀ pool₀ hsize.1 hblock.1 hroom
      exact not_inBuffer_of_padding hfits hpad hcreate (h m pool hcreate)
    rw [hnone]
    split
    · next hround =>
        rw [room_iff_of_padding hfits hpad hblock.1 hround, not_not]
        refine ⟨.inr, fun h => h.resolve_left (by omega)⟩
    · next hround =>
        refine ⟨fun h => absurd ?_ h, fun h => absurd h.1 (by omega)⟩
        have hwidth : poolPadding w buf ≤ 2 * w.bytes ∧ 4 * w.bytes ≤ 2 ^ 32 := by
          rcases alignedBuf_cases (w := w) (by omega : buf < w.space) with ⟨-, -, hless, -⟩ | ⟨_, -, hpad'⟩ <;>
            rcases w.cases with ⟨hb, hs⟩ | ⟨hb, hs⟩ <;> omega
        rw [prvCalcStride_of_wrap (Nat.lt_of_not_le hround) hblock.2,
          usable_of_padding_gt hpad (by omega)]
        omega

/-- A buffer of two bytes between two words, and blocks of a gigabyte. -/
theorem osMempoolCreate_leaves_buffer : ∃ m pool,
    osMempoolCreate ⟨4, .inl rfl⟩ (fun _ => 0) (some ⟨0, 0, 0, 0, 0, 0, none⟩) (some 0x20000001) 2 0x40000000
        = (m, some pool, .ok) ∧
      pool.poolStart = 0x20000004 ∧ pool.poolEnd = 0xE0000004 ∧ pool.totalBlocks = 3 ∧
      ¬ pool.InBuffer ⟨4, .inl rfl⟩ 0x20000001 2 0x40000000 := by
  have hok : (osMempoolCreate ⟨4, .inl rfl⟩ (fun _ => 0) (some ⟨0, 0, 0, 0, 0, 0, none⟩) (some 0x20000001) 2
      0x40000000).2 = (some ⟨0x20000004, 0xE0000004, 0x40000000, 3, 3, 3, some 0xA0000004⟩, .ok) := by
    decide +kernel
  refine ⟨_, _, Prod.ext rfl hok, rfl, rfl, rfl, fun hin => ?_⟩
  have hend := hin.end_le
  exact absurd hend (by decide)

/-- Blocks of 2^32 - 1 bytes in a buffer of four: the one block has four bytes, so the sizes are not
safe. -/
theorem osMempoolCreate_largest_block :
    ¬ PoolStays ⟨4, .inl rfl⟩ 0x20000000 4 0xFFFFFFFF ∧ ∃ m pool,
      osMempoolCreate ⟨4, .inl rfl⟩ (fun _ => 0) (some ⟨0, 0, 0, 0, 0, 0, none⟩) (some 0x20000000) 4 0xFFFFFFFF
        = (m, some pool, .ok) ∧ ¬ pool.InBuffer ⟨4, .inl rfl⟩ 0x20000000 4 0xFFFFFFFF := by
  have hnot : ¬ PoolStays ⟨4, .inl rfl⟩ 0x20000000 4 0xFFFFFFFF := by
    rw [PoolStays, if_neg (by decide)]
    exact fun h => h.2 ⟨0x20000000, by decide, by decide, by decide⟩
  refine ⟨hnot, ?_⟩
  by_contra hall
  refine hnot ((osMempoolCreate_inBuffer_iff ⟨4, .inl rfl⟩ (fun _ => 0) ⟨0, 0, 0, 0, 0, 0, none⟩ (by decide)
    (by decide) (by decide) (by decide)).mp fun m pool h => ?_)
  by_contra hin
  exact hall ⟨m, pool, h, hin⟩

end MiniRTOS
