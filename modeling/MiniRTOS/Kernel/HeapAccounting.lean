import MiniRTOS.Kernel.HeapSafety

/-! # Accounting of the heap

`os_heap_alloc` and `os_heap_free` keep `free_bytes_remaining` by adding and subtracting. A split
takes the bytes of the new header off, but a merge does not give them back: freeing a block with a
free neighbour leaves the counter short by a header for each merge. As long as no block is freed
next to a free one, the counter is the sum of the free sizes and `min_free_bytes_ever` the smallest
value of that sum. -/

namespace MiniRTOS

open ByteMemory PtrList Runs Tiling Heap

variable {c : HeapConfig} {h h' : Heap} {s s' : HeapSys} {bs bs' l r : List Block} {b : Block}

/-! ## The sum of the free sizes -/

/-- The sum of the sizes of the free blocks on `px_block_list`. -/
def Heap.freeSum (c : HeapConfig) (h : Heap) : Nat := (h.blocks c).elim 0 freeBytes

/-- The free sizes along the list add up to the free space. -/
theorem Heap.Tiled.freeSum_eq (ht : Tiled c h bs) : h.freeSum c = freeBytes bs := by
  rw [Heap.freeSum, ht.blocks_eq]
  rfl

/-- The block with data at `p` has a free neighbour. -/
def HasFreeNeighbour (hdr : Nat) (bs : List Block) (p : Nat) : Prop :=
  ∃ b ∈ bs, b.data hdr = p ∧ ∃ d ∈ bs, d.used = false ∧ (d.finish hdr = b.addr ∨ b.finish hdr = d.addr)

/-- Whether a block has a free neighbour can be decided. -/
instance decidableHasFreeNeighbour (hdr : Nat) (bs : List Block) (p : Nat) :
    Decidable (HasFreeNeighbour hdr bs p) := by
  unfold HasFreeNeighbour
  infer_instance

/-- **No block is freed next to a free one**, neither by `os_heap_free` nor inside
`os_heap_realloc`. -/
def HeapOp.FreesLone (c : HeapConfig) (s : HeapSys) (op : HeapOp) : Prop :=
  ∀ f ∈ op.innerFree c s.heap, ¬ HasFreeNeighbour c.header ((f.1.blocks c).getD []) f.2

/-- Whether a request frees a block without one can be decided. -/
instance HeapOp.decidableFreesLone (c : HeapConfig) (s : HeapSys) (op : HeapOp) :
    Decidable (op.FreesLone c s) := by
  unfold HeapOp.FreesLone
  infer_instance

/-! ## The record of the sum -/

/-- A heap in use, with the smallest value that the sum of the free sizes has had. -/
structure Ledger where
  /-- The heap and the live allocations. -/
  sys : HeapSys
  /-- The smallest sum so far. -/
  lowest : Nat

/-- The heap after `os_heap_init`. -/
def Ledger.init (c : HeapConfig) (h : Heap) : Ledger :=
  ⟨HeapSys.init c h, (osHeapInit c h).freeSum c⟩

/-- One call; the sum is looked at before each free and after the call. -/
def ledgerStep (c : HeapConfig) (L : Ledger) (op : HeapOp) : Option Ledger :=
  (heapStep c L.sys op).map fun s' =>
    ⟨s', min ((op.innerFree c L.sys.heap).elim L.lowest fun f => min L.lowest (f.1.freeSum c))
      (s'.heap.freeSum c)⟩

/-- The counters agree with the list. -/
def Balanced (h : Heap) (bs : List Block) (lowest : Nat) : Prop :=
  h.freeBytesRemaining.toNat = freeBytes bs ∧ h.minFreeBytesEver.toNat = lowest

/-- The balance after `os_heap_init`. -/
theorem Balanced.init (c : HeapConfig) (h : Heap) :
    Balanced (osHeapInit c h) [⟨c.start, heapSize - c.header, false⟩]
      ((osHeapInit c h).freeSum c) := by
  have hI := HeapInv.init c h
  have hword : Heap.sizeWord c (osHeapInit c h).mem c.start = heapSize - c.header :=
    hI.tiled.word ⟨c.start, heapSize - c.header, false⟩ (by simp)
  have hfree : freeBytes [⟨c.start, heapSize - c.header, false⟩] = heapSize - c.header := by
    simp [freeBytes]
  have hsum : (osHeapInit c h).freeSum c = heapSize - c.header := hI.tiled.freeSum_eq.trans hfree
  have hcount : (BitVec.ofNat 32 (Heap.sizeWord c (osHeapInit c h).mem c.start)).toNat
      = heapSize - c.header := by
    rw [hword, BitVec.toNat_ofNat]
    exact Nat.mod_eq_of_lt (by simp only [heapSize]; omega)
  rw [Balanced, hsum, hfree]
  exact ⟨hcount, hcount⟩

/-- An allocation keeps the balance. -/
theorem Balanced.charged {lowest : Nat} (hb : Balanced h bs lowest)
    (hle : lowest ≤ freeBytes bs) (hsum : freeBytes bs ≤ heapSize) (hc : Charged h bs h' bs') :
    Balanced h' bs' (min lowest (freeBytes bs')) := by
  obtain ⟨hfree, hmin⟩ := hb
  rcases hc with ⟨rfl, hf, hm⟩ | ⟨k, hk, hf, hm⟩
  · exact ⟨by rw [hf, hfree], by rw [hm, hmin, Nat.min_eq_left hle]⟩
  · simp only [heapSize] at hsum
    have hsub : (h.freeBytesRemaining - BitVec.ofNat 32 k).toNat = freeBytes bs' := by
      rw [BitVec.toNat_sub, BitVec.toNat_ofNat, hfree]
      omega
    rw [Balanced, hf, hm]
    refine ⟨hsub, ?_⟩
    simp only [Heap.charge, BitVec.lt_def, hsub, hmin]
    split
    · rw [hsub]
      omega
    · rw [hmin]
      omega

/-- The neighbours of a block are used when no free block is next to it. -/
theorem freeNeighbours_eq_zero {hdr a z : Nat} (ht : Tiles hdr a (l ++ b :: r) z)
    (hn : ¬ HasFreeNeighbour hdr (l ++ b :: r) (b.data hdr)) : freeNeighbours l r = 0 := by
  have hused : ∀ d ∈ l ++ b :: r, d.finish hdr = b.addr ∨ b.finish hdr = d.addr → d.used = true := by
    intro d hd hnext
    by_contra hu
    exact hn ⟨b, by simp, rfl, d, hd, by simpa using hu, hnext⟩
  rw [freeNeighbours]
  have hprev : (l.getLast?.elim 0 fun p => if p.used then 0 else 1) = 0 := by
    rcases List.eq_nil_or_concat' l with rfl | ⟨l, p, rfl⟩
    · rfl
    · rw [List.append_assoc] at ht
      have hp := hused p (by simp) (Or.inl (tiles_mid.mp ht).2.1.symm)
      simp [hp]
  have hnext : (r.head?.elim 0 fun q => if q.used then 0 else 1) = 0 := by
    cases r with
    | nil => rfl
    | cons q r =>
        have hq := hused q (by simp) (Or.inr (tiles_mid.mp ht).2.1.symm)
        simp [hq]
  rw [hprev, hnext]

/-- A free of a lone block keeps the balance. -/
theorem Balanced.refunded {lowest p : Nat} (hb : Balanced h bs lowest)
    (ht : Tiles c.header c.start bs (c.start + heapSize))
    (hlone : ¬ HasFreeNeighbour c.header bs p) (hr : Refunded c p h bs h' bs') :
    Balanced h' bs' lowest ∧ freeBytes bs ≤ freeBytes bs' := by
  obtain ⟨hfree, hmin⟩ := hb
  obtain ⟨l, b, r, rfl, rfl, hu, rfl, hf, hm⟩ := hr
  have hsum : freeBytes (release c.header l b r)
      = freeBytes (l ++ b :: r) + b.size + c.header * freeNeighbours l r := freeBytes_release hu
  rw [freeNeighbours_eq_zero ht hlone, Nat.mul_zero, Nat.add_zero] at hsum
  have hbound := (Tiles.release ht).freeBytes_le
  simp only [heapSize] at hbound
  refine ⟨⟨?_, by rw [hm, hmin]⟩, by omega⟩
  rw [hf, BitVec.toNat_add, BitVec.toNat_ofNat, hfree]
  omega

/-- **The balance is kept** by every call that frees no block next to a free one. -/
theorem Balanced.step {L : Ledger} {op : HeapOp} (hI : HeapInv c L.sys bs)
    (hb : Balanced L.sys.heap bs L.lowest) (hle : L.lowest ≤ freeBytes bs)
    (hop : op.Allowed c L.sys) (hlone : op.FreesLone c L.sys) :
    ∃ L' bs', ledgerStep c L op = some L' ∧ HeapInv c L'.sys bs' ∧
      Balanced L'.sys.heap bs' L'.lowest ∧ L'.lowest ≤ freeBytes bs' := by
  obtain ⟨s', bs', heq, hI', -, hacc⟩ := hI.step hop
  have hbound : freeBytes bs ≤ heapSize := by
    have := hI.tiled.tiles.freeBytes_le
    omega
  rw [ledgerStep, heq, Option.map_some, hI'.tiled.freeSum_eq]
  refine ⟨_, bs', rfl, hI', ?_, Nat.min_le_right _ _⟩
  rw [Accounts] at hacc
  cases hf : op.innerFree c L.sys.heap with
  | none =>
      rw [hf] at hacc
      exact hb.charged hle hbound hacc
  | some f =>
      obtain ⟨h₁, p⟩ := f
      rw [hf] at hacc
      obtain ⟨bs₁, hcharge, ht₁, hrefund⟩ := hacc
      have hfree := hlone _ hf
      rw [ht₁.blocks_eq, Option.getD_some] at hfree
      -- The sum is lowest between the allocation and the free.
      obtain ⟨hb', hup⟩ := (hb.charged hle hbound hcharge).refunded ht₁.tiles hfree hrefund
      rw [Option.elim_some, ht₁.freeSum_eq]
      rwa [Nat.min_eq_left (Nat.le_trans (Nat.min_le_right _ _) hup)]

/-! ## The largest free block -/

/-- The walk of `os_heap_get_largest_free_block` stays below every bound of the free sizes. -/
theorem largestFree_le {m : Mem} {fuel acc n : Nat} (hpath : Path (next c m) (bs.map Block.addr) none)
    (hb : ∀ b ∈ bs, prvBlockGetSize c m b.addr = b.size ∧ prvBlockIsAllocated c m b.addr = b.used)
    (hfuel : bs.length ≤ fuel) (hacc : acc ≤ n) (hn : ∀ b ∈ bs, b.used = false → b.size ≤ n) :
    ∃ k, largestFree c m fuel (bs.map Block.addr).head? acc = some k ∧ k ≤ n := by
  induction bs generalizing fuel acc with
  | nil => cases fuel <;> exact ⟨acc, rfl, hacc⟩
  | cons b bs ih =>
      obtain ⟨k, rfl⟩ : ∃ k, fuel = k + 1 := ⟨fuel - 1, by simp at hfuel; omega⟩
      have hnext : next c m b.addr = (bs.map Block.addr).head? := hpath.1.trans (Option.or_none ..)
      obtain ⟨hsize, hused⟩ := hb b (by simp)
      rw [List.map_cons, List.head?_cons, largestFree, hnext, hsize, hused]
      refine ih hpath.2 (fun x hx => hb x (by simp [hx])) (by simpa using hfuel) ?_
        fun x hx => hn x (by simp [hx])
      split
      · next hlarge => exact hn b (by simp) hlarge.1
      · exact hacc

/-- The largest free block is part of the free space. -/
theorem Heap.Tiled.largest_le (ht : Tiled c h bs) :
    ∃ k, osHeapGetLargestFreeBlock c h = some k ∧ k ≤ freeBytes bs := by
  have hpx := ht.leads.1
  rw [Option.or_none] at hpx
  rw [osHeapGetLargestFreeBlock, hpx]
  exact largestFree_le ht.leads.2 (fun b hb => ⟨ht.getSize hb, ht.isAllocated hb⟩) ht.length_le
    (Nat.zero_le _) fun b hb hu => size_le_freeBytes hb hu

/-! ## Runs -/

/-- **The counters are exact while no block is freed next to a free one.** -/
theorem heap_counters_exact {h : Heap} {ops : List HeapOp} {L : Ledger}
    (hr : Run (fun L op => op.Allowed c L.sys ∧ op.FreesLone c L.sys) (ledgerStep c)
      (Ledger.init c h) ops L) :
    osHeapGetFreeSize L.sys.heap = L.sys.heap.freeSum c ∧
      osHeapGetMinFreeSize L.sys.heap = L.lowest ∧
      ∃ k, osHeapGetLargestFreeBlock c L.sys.heap = some k ∧ k ≤ osHeapGetFreeSize L.sys.heap := by
  obtain ⟨bs, hI, ⟨hfree, hmin⟩, -⟩ := hr.invariant
    (fun L => ∃ bs, HeapInv c L.sys bs ∧ Balanced L.sys.heap bs L.lowest ∧ L.lowest ≤ freeBytes bs)
    (by
      rintro L op L' ⟨bs, hI, hb, hle⟩ ⟨hop, hlone⟩ hs
      obtain ⟨L₁, bs₁, heq, hI₁, hb₁, hle₁⟩ := hb.step hI hle hop hlone
      obtain rfl := Option.some.inj (heq.symm.trans hs)
      exact ⟨bs₁, hI₁, hb₁, hle₁⟩)
    ⟨_, HeapInv.init c h, Balanced.init c h, Nat.le_of_eq (HeapInv.init c h).tiled.freeSum_eq⟩
  obtain ⟨k, hk, hle⟩ := hI.tiled.largest_le
  refine ⟨?_, hmin, k, hk, ?_⟩
  · rw [hI.tiled.freeSum_eq]
    exact hfree
  · rw [osHeapGetFreeSize, hfree]
    exact hle

/-- Three allocations; the one in the middle is freed and its room used again, and the last one grows
into the room behind it. -/
def loneTrace : List HeapOp :=
  [.alloc 16, .alloc 16, .alloc 16, .free (some 0x20000428), .alloc 8, .realloc (some 0x20000444) 40]

/-- With frees of lone blocks, the lowest counter is the lowest free space there was. -/
theorem heap_counters_exact_loneTrace : ∃ L : Ledger,
    Run (fun L op => HeapOp.Allowed HeapConfig.cortexM L.sys op ∧
        HeapOp.FreesLone HeapConfig.cortexM L.sys op) (ledgerStep HeapConfig.cortexM)
      (Ledger.init HeapConfig.cortexM Heap.unset) loneTrace L ∧
    L.lowest = 10092 ∧ osHeapGetMinFreeSize L.sys.heap = L.lowest := by
  obtain ⟨L, hr, hlow⟩ := exists_run_of_exec
    (fun L op => HeapOp.Allowed HeapConfig.cortexM L.sys op ∧
      HeapOp.FreesLone HeapConfig.cortexM L.sys op)
    (ledgerStep HeapConfig.cortexM) (Ledger.init HeapConfig.cortexM Heap.unset) loneTrace
    (fun L => L.lowest = 10092) (by decide +kernel)
  exact ⟨L, hr, hlow, (heap_counters_exact hr).2.1⟩

/-- **A merge is not counted.** One allocation and its free leave the single initial block, and a
counter that is a header short. -/
theorem heap_counter_drifts : ∃ L : Ledger,
    Run (fun L op => HeapOp.Allowed HeapConfig.cortexM L.sys op) (ledgerStep HeapConfig.cortexM)
      (Ledger.init HeapConfig.cortexM Heap.unset) [.alloc 8, .free (some 0x2000040C)] L ∧
    osHeapGetFreeSize L.sys.heap = 10216 ∧ L.sys.heap.freeSum HeapConfig.cortexM = 10228 :=
  exists_run_of_exec (fun L op => HeapOp.Allowed HeapConfig.cortexM L.sys op)
    (ledgerStep HeapConfig.cortexM) (Ledger.init HeapConfig.cortexM Heap.unset)
    [.alloc 8, .free (some 0x2000040C)]
    (fun L => osHeapGetFreeSize L.sys.heap = 10216 ∧ L.sys.heap.freeSum HeapConfig.cortexM = 10228)
    (by decide +kernel)

end MiniRTOS
