import MiniRTOS.Kernel.HeapRequests

/-! # Reallocation

`os_heap_realloc` keeps a block that is large enough. Otherwise it allocates, copies and frees, in this
order, so that the old block is there for the copy and stays when the allocation fails.

* **`Heap.Keeps`** — one allocation as it was: its place, its size and its bytes.
* **`heap_realloc`** — what a caller finds after the call, behind the pointer it passed, behind the one it
  got, and behind all the others it holds. -/

namespace MiniRTOS

open ByteMemory Runs Tiling Heap

variable {c : HeapConfig} {h h' : Heap} {s s' : HeapSys} {bs bs' : List Block} {b : Block} {n p q : Nat}

/-! ## Allocations, read off the block list -/

/-- **A live allocation**: the data area of a block on `px_block_list` that is marked as allocated. -/
def Heap.Allocates (c : HeapConfig) (h : Heap) (p : Addr) : Prop :=
  ∃ bs ∈ h.blocks c, ∃ b ∈ bs, b.used = true ∧ b.data c.header = p

/-- Whether a pointer is a live allocation can be decided. -/
instance Heap.decidableAllocates (c : HeapConfig) (h : Heap) (p : Addr) :
    Decidable (h.Allocates c p) := by
  unfold Heap.Allocates
  infer_instance

/-- The bytes of an allocation. -/
def Heap.contents (c : HeapConfig) (h : Heap) (p : Addr) : List UInt8 :=
  readBytes h.mem p (h.usableSize c p)

/-- **The allocation `p` is as it was**, in address, size and bytes. -/
def Heap.Keeps (c : HeapConfig) (h h' : Heap) (p : Addr) : Prop :=
  h'.Allocates c p ∧ h'.usableSize c p = h.usableSize c p ∧ h'.contents c p = h.contents c p

/-- In a heap in use these are the pointers that its callers hold. -/
theorem HeapInv.allocates_iff (hI : HeapInv c s bs) : s.heap.Allocates c p ↔ p ∈ s.live := by
  rw [Heap.Allocates, hI.tiled.blocks_eq, hI.live]
  constructor
  · rintro ⟨bs', hbs', hp⟩
    obtain rfl := Option.some.inj hbs'
    exact hp
  · intro hp
    exact ⟨bs, rfl, hp⟩

/-- What `KeepsData` says of one allocation. -/
theorem HeapInv.keeps {q : Option Addr} (hI : HeapInv c s bs) (hI' : HeapInv c s' bs')
    (hk : KeepsData c q s.heap bs s'.heap bs') (hp : s.heap.Allocates c p) (hpq : some p ≠ q) :
    s.heap.Keeps c s'.heap p := by
  obtain ⟨b, hb, hu, rfl⟩ := (hI.live p).mp (hI.allocates_iff.mp hp)
  obtain ⟨hb', hmem⟩ := hk b hb hu hpq
  have hsize : s'.heap.usableSize c (b.data c.header) = s.heap.usableSize c (b.data c.header) := by
    rw [hI'.tiled.usableSize_data hb', hI.tiled.usableSize_data hb]
  refine ⟨hI'.allocates_iff.mpr ((hI'.live _).mpr ⟨b, hb', hu, rfl⟩), hsize, ?_⟩
  unfold Heap.contents
  rw [hsize, hI.tiled.usableSize_data hb]
  apply readBytes_congr
  intro x hx hx'
  exact hmem x hx hx'

/-- Equal bytes have equal beginnings. -/
theorem readBytes_min {m m' : Mem} {a b k n : Nat} (heq : readBytes m' b k = readBytes m a k) :
    readBytes m' b (min k n) = readBytes m a (min k n) := by
  have htake : ∀ (m : Mem) (a : Nat), readBytes m a (min k n) = (readBytes m a k).take n := by
    intro m a
    unfold readBytes
    rw [← List.map_take, List.take_range, Nat.min_comm]
  rw [htake, htake, heq]

/-! ## The call -/

/-- **What `os_heap_realloc(p, n)` does**, when it turns `h` into `h'` and returns `r`. -/
structure Reallocates (c : HeapConfig) (p n : Nat) (h h' : Heap) (r : Option Addr) : Prop where
  /-- Without a result nothing happens. -/
  fails : r = none → h'.blocks c = h.blocks c ∧ ∀ x, h.Allocates c x → h.Keeps c h' x
  /-- The result is an allocation. -/
  live : ∀ q ∈ r, h'.Allocates c q
  /-- It begins with the bytes of the old one. -/
  bytes : ∀ q ∈ r, readBytes h'.mem q (min (h.usableSize c p) n)
    = readBytes h.mem p (min (h.usableSize c p) n)
  /-- The old one is gone unless it is the new one. -/
  old : ∀ q ∈ r, h'.Allocates c p ↔ q = p
  /-- The others are as they were. -/
  others : ∀ q ∈ r, ∀ x, h.Allocates c x → x ≠ p → h.Keeps c h' x

/-- A block that is large enough is kept, whatever the aligned size is. -/
theorem reallocates_self (hp : h.Allocates c p) : Reallocates c p n h h (some p) := by
  constructor
  case fails =>
    intro hnone
    cases hnone
  case live =>
    intro q hq
    obtain rfl := Option.some.inj hq
    exact hp
  case bytes =>
    intro q hq
    obtain rfl := Option.some.inj hq
    rfl
  case old =>
    intro q hq
    obtain rfl := Option.some.inj hq
    exact iff_of_true hp rfl
  case others =>
    intro q _ x hx _
    exact ⟨hx, rfl, rfl⟩

/-- An allocation that fails leaves everything as it is. -/
theorem HeapInv.realloc_fails (hI : HeapInv c s bs) (hI' : HeapInv c ⟨h', s.live⟩ bs)
    (hk : KeepsData c none s.heap bs h' bs) : Reallocates c p n s.heap h' none := by
  constructor
  case fails =>
    intro _
    constructor
    · rw [hI.tiled.blocks_eq, hI'.tiled.blocks_eq]
    · intro x hx
      exact hI.keeps hI' hk hx (by simp)
  case live =>
    intro q hq
    cases hq
  case bytes =>
    intro q hq
    cases hq
  case old =>
    intro q hq
    cases hq
  case others =>
    intro q hq
    cases hq

/-- One that succeeds moves the bytes. -/
theorem HeapInv.realloc_moves (hI : HeapInv c s bs)
    (hI' : HeapInv c ⟨h', q :: s.live.erase p⟩ bs') (hk : KeepsData c (some p) s.heap bs h' bs')
    (hcopy : readBytes h'.mem q (s.heap.usableSize c p)
      = readBytes s.heap.mem p (s.heap.usableSize c p)) :
    Reallocates c p n s.heap h' (some q) := by
  constructor
  case fails =>
    intro hnone
    cases hnone
  case live =>
    intro q' hq'
    obtain rfl := Option.some.inj hq'
    exact hI'.allocates_iff.mpr (List.mem_cons_self ..)
  case bytes =>
    intro q' hq'
    obtain rfl := Option.some.inj hq'
    exact readBytes_min hcopy
  case old =>
    intro q' hq'
    obtain rfl := Option.some.inj hq'
    -- the pointer was erased, so it is live only as the new one
    have hgone : p ∉ s.live.erase p := fun hm => hI.nodup.not_mem_erase hm
    rw [show h'.Allocates c p ↔ p ∈ q :: s.live.erase p from hI'.allocates_iff, List.mem_cons]
    constructor
    · intro hlive
      exact (hlive.resolve_right hgone).symm
    · intro hqp
      exact Or.inl hqp.symm
  case others =>
    intro q' _ x hx hxp
    exact hI.keeps hI' hk hx (by simpa using hxp)

/-- **`os_heap_realloc` of a live allocation** to a size other than zero. -/
theorem HeapInv.realloc (hI : HeapInv c s bs) (hp : p ∈ s.live) (hn : n ≠ 0) :
    ∃ h' r, osHeapRealloc c s.heap (some p) n = some (h', r) ∧ Reallocates c p n s.heap h' r := by
  by_cases hgrow : s.heap.usableSize c p < alignUp 4 n
  · rcases hI.grow hp hn hgrow with ⟨h', -, heq, hI', hk, -⟩ |
      ⟨h₁, q, bs₁, h', bs', -, heq, -, -, hI', hk, -, -, -, hcopy⟩
    · exact ⟨h', none, heq, hI.realloc_fails hI' hk⟩
    · exact ⟨h', some q, heq, hI.realloc_moves hI' hk hcopy⟩
  · refine ⟨s.heap, some p, ?_, reallocates_self (hI.allocates_iff.mpr hp)⟩
    rw [osHeapRealloc, if_neg hn]
    exact if_pos (Nat.le_of_not_lt hgrow)

/-- **Reallocation.** After any sequence of permitted calls and writes, `os_heap_realloc` of a live
allocation to a size other than zero returns, and loses nothing: neither the old bytes when it moves
them, nor the old allocation when it fails, nor any other allocation. -/
theorem heap_realloc {rs : List HeapRequest}
    (hr : Run (fun s r => r.Allowed c s) (requestStep c) (HeapSys.init c h) rs s)
    (hp : s.heap.Allocates c p) (hn : 0 < n) :
    ∃ h' r, osHeapRealloc c s.heap (some p) n = some (h', r) ∧ Reallocates c p n s.heap h' r := by
  obtain ⟨bs, hI⟩ := heapInv_of_requests hr
  exact hI.realloc (hI.allocates_iff.mp hp) (Nat.ne_of_gt hn)

/-- Three allocations, the middle one written to: its bytes move behind the third one when it grows. -/
def reallocTrace : List HeapRequest :=
  [.call (.alloc 24), .call (.alloc 16), .call (.alloc 8), .call (.write 0x20000430 0 [1, 2, 3])]

/-- The allocation in the middle moves when it grows, with its bytes. -/
theorem heap_realloc_moves : ∃ s,
    Run (fun s r => HeapRequest.Allowed HeapConfig.cortexM s r) (requestStep HeapConfig.cortexM)
      (HeapSys.init HeapConfig.cortexM Heap.unset) reallocTrace s ∧
    s.heap.Allocates HeapConfig.cortexM 0x20000430 ∧
    ∃ h' r, osHeapRealloc HeapConfig.cortexM s.heap (some 0x20000430) 40 = some (h', r) ∧
      Reallocates HeapConfig.cortexM 0x20000430 40 s.heap h' r := by
  obtain ⟨s, hr, hlive⟩ := exists_run_of_exec (fun s r => HeapRequest.Allowed HeapConfig.cortexM s r)
    (requestStep HeapConfig.cortexM) (HeapSys.init HeapConfig.cortexM Heap.unset) reallocTrace
    (fun s => s.heap.Allocates HeapConfig.cortexM 0x20000430) (by decide +kernel)
  exact ⟨s, hr, hlive, heap_realloc hr hlive (by decide)⟩

end MiniRTOS
