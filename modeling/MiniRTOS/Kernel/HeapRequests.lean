import MiniRTOS.Kernel.HeapSafety

/-! # Sizes of allocations

Before the allocator compares a size with its blocks, the size goes through 32-bit arithmetic: the
product in `os_heap_calloc` and the round-up `ALIGN_UP` in `os_heap_alloc` and `os_heap_realloc`. A
size above `2 ^ 32 - 8` is rounded up to 0, for which every free block is large enough, and a product
of `2 ^ 32` or more loses its high bits. In both cases the caller gets a pointer to too few bytes. For
all other sizes a pointer comes with the bytes that were asked for. -/

namespace MiniRTOS

open ByteMemory Runs Tiling Heap

variable {c : HeapConfig} {h h' : Heap} {s s' : HeapSys} {bs bs' : List Block} {b : Block} {n p : Nat}

/-! ## Requests -/

/-- The usable bytes of the block behind a pointer. -/
def Heap.usableSize (c : HeapConfig) (h : Heap) (p : Addr) : Nat :=
  prvBlockGetSize c h.mem (p - c.header)

/-- Some free block has at least `n` bytes. -/
def Heap.HasRoom (c : HeapConfig) (h : Heap) (n : Nat) : Prop :=
  ∃ bs ∈ h.blocks c, ∃ b ∈ bs, b.used = false ∧ n ≤ b.size

/-- Whether there is room can be decided. -/
instance Heap.decidableHasRoom (c : HeapConfig) (h : Heap) (n : Nat) : Decidable (h.HasRoom c n) := by
  unfold Heap.HasRoom
  infer_instance

/-- **A request for `n` bytes is served**: the call returns; a pointer that it returns has at least
`n` usable bytes; and it returns none when `n` bytes cannot be had. -/
def Served (c : HeapConfig) (n : Nat) (available : Prop) (r : Option (Heap × Option Addr)) : Prop :=
  ∃ h' p, r = some (h', p) ∧ (∀ q ∈ p, n ≤ h'.usableSize c q) ∧ (¬ available → p = none)

/-- What callers do with the heap, `os_heap_calloc` included. -/
inductive HeapRequest
  /-- Another call, or a write. -/
  | call (op : HeapOp)
  /-- `os_heap_calloc(count, size)`. -/
  | calloc (count size : Nat)
  deriving DecidableEq

/-- One call, or one write. -/
def requestStep (c : HeapConfig) (s : HeapSys) : HeapRequest → Option HeapSys
  | .call op => heapStep c s op
  | .calloc count size =>
      (osHeapCalloc c s.heap count size).map fun (h, p) => ⟨h, p.toList ++ s.live⟩

/-- What a caller may do. The `memset` of `os_heap_calloc` must stay inside the new block, as every
other write must. -/
def HeapRequest.Allowed (c : HeapConfig) (s : HeapSys) : HeapRequest → Prop
  | .call op => op.Allowed c s
  | .calloc count size => count * size % 2 ^ 32 ≤ 2 ^ 32 - 8 ∨ ¬ s.heap.HasRoom c 0

/-- Whether a request is allowed can be decided. -/
instance HeapRequest.decidableAllowed (c : HeapConfig) (s : HeapSys) (r : HeapRequest) :
    Decidable (r.Allowed c s) := by
  cases r <;> unfold HeapRequest.Allowed <;> infer_instance

/-! ## The round-up -/

/-- Up to `2 ^ 32 - 8` the round-up does not wrap. -/
theorem le_alignUp (hn : n ≤ 2 ^ 32 - 8) : n ≤ alignUp 4 n := by
  simp only [alignUp, heapAlignment]
  omega

/-- Above that it wraps to 0. -/
theorem alignUp_of_gt (hn : 2 ^ 32 - 8 < n) (hlt : n < 2 ^ 32) : alignUp 4 n = 0 := by
  simp only [alignUp, heapAlignment]
  omega

/-! ## Blocks of a reachable heap -/

/-- There is room when one of the blocks is free and large enough. -/
theorem HeapInv.hasRoom_iff (hI : HeapInv c s bs) :
    s.heap.HasRoom c n ↔ ∃ b ∈ bs, b.used = false ∧ n ≤ b.size := by
  rw [Heap.HasRoom, hI.tiled.blocks_eq]
  constructor
  · rintro ⟨bs', hbs', hroom⟩
    obtain rfl := Option.some.inj hbs'
    exact hroom
  · intro hroom
    exact ⟨bs, rfl, hroom⟩

/-- Room for a request is room for a smaller one. -/
theorem Heap.HasRoom.mono {m : Nat} (hroom : h.HasRoom c n) (hmn : m ≤ n) : h.HasRoom c m := by
  obtain ⟨bs, hbs, b, hb, hu, hle⟩ := hroom
  exact ⟨bs, hbs, b, hb, hu, Nat.le_trans hmn hle⟩

/-- The usable bytes of an allocation are those of its block. -/
theorem Heap.Tiled.usableSize_data (ht : Tiled c h bs) (hb : b ∈ bs) :
    h.usableSize c (b.data c.header) = b.size := by
  have hblock : b.data c.header - c.header = b.addr := Nat.add_sub_cancel ..
  rw [Heap.usableSize, hblock, ht.getSize hb]

/-- A live allocation is no larger than the heap. -/
theorem HeapInv.usableSize_le (hI : HeapInv c s bs) (hp : p ∈ s.live) :
    s.heap.usableSize c p ≤ heapSize := by
  obtain ⟨b, hb, -, rfl⟩ := (hI.live p).mp hp
  rw [hI.tiled.usableSize_data hb]
  exact hI.tiled.size_le hb

/-- Writing behind a pointer does not change the size of its block. -/
theorem usableSize_writeBytes (hp : c.header ≤ p) (bytes : List UInt8) :
    ({ h with mem := writeBytes h.mem p bytes } : Heap).usableSize c p = h.usableSize c p := by
  rw [Heap.usableSize, Heap.usableSize, prvBlockGetSize, prvBlockGetSize]
  congr 1
  apply sizeWord_congr
  intro x _ hx
  apply writeBytes_of_not_mem
  omega

/-! ## What is served -/

/-- No pointer is always an answer. -/
theorem served_none (available : Prop) : Served c n available (some (h, none)) :=
  ⟨h, none, rfl, by simp, fun _ => rfl⟩

/-- A pointer is one when its block is large enough. -/
theorem served_some_iff {available : Prop} {q : Addr}
    (hav : n ≤ h.usableSize c q → available) :
    Served c n available (some (h, some q)) ↔ n ≤ h.usableSize c q := by
  constructor
  · rintro ⟨h', p, heq, hsize, -⟩
    obtain ⟨rfl, rfl⟩ := Prod.mk.inj (Option.some.inj heq)
    exact hsize q rfl
  · intro hle
    refine ⟨h, some q, rfl, ?_, fun hna => absurd (hav hle) hna⟩
    intro q' hq'
    obtain rfl := Option.some.inj hq'
    exact hle

/-- **`os_heap_alloc`** returns a pointer exactly when the aligned size is the size of some free
block or less, and the block behind the pointer has that size. -/
theorem HeapInv.alloc_size (hI : HeapInv c s bs) (n : Nat) :
    ∃ h' p bs', osHeapAlloc c s.heap n = some (h', p) ∧ HeapInv c ⟨h', p.toList ++ s.live⟩ bs' ∧
      (p = none ↔ n = 0 ∨ ¬ s.heap.HasRoom c (alignUp 4 n)) ∧
      ∀ q ∈ p, alignUp 4 n ≤ h'.usableSize c q ∧ c.header ≤ q := by
  obtain ⟨h', p, bs', heq, hI', -, -, hnone, hsome, hnew⟩ := hI.alloc n
  refine ⟨h', p, bs', heq, hI', ⟨fun hp => ?_, fun hfail => ?_⟩, fun q hq => ?_⟩
  · apply (hnone hp).2.2.imp_right
    rintro hsmall hroom
    obtain ⟨b, hb, hu, hle⟩ := hI.hasRoom_iff.mp hroom
    rcases hsmall b hb with hused | hlt
    · rw [hused] at hu
      cases hu
    · omega
  · by_contra hp
    obtain ⟨hn, hroom⟩ := hsome hp
    exact hfail.elim hn fun hno => hno (hI.hasRoom_iff.mpr hroom)
  · obtain ⟨-, b, hb, -, rfl, hle⟩ := hnew q hq
    rw [hI'.tiled.usableSize_data hb]
    exact ⟨hle, Nat.le_add_left ..⟩

/-- Which sizes `os_heap_alloc` serves. -/
theorem HeapInv.alloc_served_iff (hI : HeapInv c s bs) (hn : n < 2 ^ 32) :
    Served c n (s.heap.HasRoom c n) (osHeapAlloc c s.heap n) ↔
      n ≤ 2 ^ 32 - 8 ∨ ¬ s.heap.HasRoom c 0 := by
  obtain ⟨h', p, bs', heq, hI', hfail, hnew⟩ := hI.alloc_size n
  rw [heq]
  cases p with
  | none =>
      -- a size that was rounded up to 0 fails only when no block is free
      refine iff_of_true (served_none _) ?_
      by_contra hnot
      obtain ⟨hgt, hroom⟩ := not_or.mp hnot
      rcases hfail.mp rfl with rfl | hno
      · omega
      · rw [alignUp_of_gt (by omega) hn] at hno
        exact hroom hno
  | some q =>
      have hroom : s.heap.HasRoom c (alignUp 4 n) := by
        by_contra hno
        cases hfail.mpr (Or.inr hno)
      obtain ⟨hsize, -⟩ := hnew q rfl
      have hle : h'.usableSize c q ≤ heapSize := hI'.usableSize_le (by simp)
      by_cases hsmall : n ≤ 2 ^ 32 - 8
      · have hup := le_alignUp hsmall
        rw [served_some_iff fun _ => hroom.mono hup]
        exact iff_of_true (Nat.le_trans hup hsize) (Or.inl hsmall)
      · simp only [heapSize] at hle
        rw [served_some_iff fun hfit => by omega]
        exact iff_of_false (by omega)
          (not_or.mpr ⟨hsmall, not_not.mpr (hroom.mono (Nat.zero_le _))⟩)

/-- **`os_heap_calloc`** returns a pointer when the low bits of the product find a block. -/
theorem HeapInv.calloc_size (hI : HeapInv c s bs) (count size : Nat) :
    ∃ h' p, osHeapCalloc c s.heap count size = some (h', p) ∧
      (p = none ↔ count * size % 2 ^ 32 = 0 ∨
        ¬ s.heap.HasRoom c (alignUp 4 (count * size % 2 ^ 32))) ∧
      ∀ q ∈ p, alignUp 4 (count * size % 2 ^ 32) ≤ h'.usableSize c q ∧
        h'.usableSize c q ≤ heapSize := by
  obtain ⟨h', p, bs', heq, hI', hfail, hnew⟩ := hI.alloc_size (count * size % 2 ^ 32)
  rw [osHeapCalloc, heq]
  cases p with
  | none => exact ⟨h', none, rfl, hfail, by simp⟩
  | some q =>
      obtain ⟨hsize, hq⟩ := hnew q rfl
      have hle : h'.usableSize c q ≤ heapSize := hI'.usableSize_le (by simp)
      refine ⟨_, some q, rfl, hfail, ?_⟩
      intro q' hq'
      obtain rfl := Option.some.inj hq'
      rw [usableSize_writeBytes hq]
      exact ⟨hsize, hle⟩

/-- Which products `os_heap_calloc` serves. -/
theorem HeapInv.calloc_served_iff (hI : HeapInv c s bs) (count size : Nat) :
    Served c (count * size) (s.heap.HasRoom c (count * size)) (osHeapCalloc c s.heap count size) ↔
      count * size ≤ 2 ^ 32 - 8 ∨ count * size % 2 ^ 32 = 0 ∨
        ¬ s.heap.HasRoom c (alignUp 4 (count * size % 2 ^ 32)) := by
  obtain ⟨h', p, heq, hfail, hnew⟩ := hI.calloc_size count size
  rw [heq]
  cases p with
  | none => exact iff_of_true (served_none _) (Or.inr (hfail.mp rfl))
  | some q =>
      have hgot := mt hfail.mpr (by simp)
      have hroom := not_not.mp (not_or.mp hgot).2
      obtain ⟨hsize, hle⟩ := hnew q rfl
      by_cases hsmall : count * size ≤ 2 ^ 32 - 8
      · -- the product is the mathematical one
        have hmod : count * size % 2 ^ 32 = count * size := Nat.mod_eq_of_lt (by omega)
        rw [hmod] at hsize hroom
        have hup := le_alignUp hsmall
        rw [served_some_iff fun _ => hroom.mono hup]
        exact iff_of_true (Nat.le_trans hup hsize) (Or.inl hsmall)
      · simp only [heapSize] at hle
        rw [served_some_iff fun hfit => by omega]
        exact iff_of_false (by omega) (not_or.mpr ⟨hsmall, hgot⟩)

/-- Which sizes `os_heap_realloc` of a live allocation serves. -/
theorem HeapInv.realloc_served_iff (hI : HeapInv c s bs) (hp : p ∈ s.live) (hn : n < 2 ^ 32) :
    Served c n (n ≤ s.heap.usableSize c p ∨ s.heap.HasRoom c n) (osHeapRealloc c s.heap (some p) n) ↔
      n ≤ 2 ^ 32 - 8 := by
  by_cases hz : n = 0
  · obtain ⟨h', bs', hfree, -⟩ := hI.free hp
    rw [osHeapRealloc, if_pos hz, hfree]
    exact iff_of_true (served_none _) (by omega)
  have hle := hI.usableSize_le hp
  simp only [heapSize] at hle
  by_cases hgrow : prvBlockGetSize c s.heap.mem (p - c.header) < alignUp 4 n
  · -- a size that is rounded up to 0 never takes this way
    have hsmall : n ≤ 2 ^ 32 - 8 := by
      by_contra hgt
      rw [alignUp_of_gt (by omega) hn] at hgrow
      exact Nat.not_lt_zero _ hgrow
    refine iff_of_true ?_ hsmall
    rcases hI.grow hp hz hgrow with ⟨h', -, heq, -⟩ |
      ⟨h₁, q, bs₁, h', bs', -, heq, -, -, hI', -, -, hroom, ⟨b, hb, rfl, hsize⟩, -⟩
    · rw [heq]
      exact served_none _
    · have hup := le_alignUp hsmall
      rw [heq, served_some_iff fun _ => Or.inr ((hI.hasRoom_iff.mpr hroom).mono hup),
        hI'.tiled.usableSize_data hb]
      exact Nat.le_trans hup hsize
  · -- the block stays where it is, however large the size was before it was rounded up
    have hstay : osHeapRealloc c s.heap (some p) n = some (s.heap, some p) := by
      rw [osHeapRealloc, if_neg hz]
      exact if_pos (Nat.le_of_not_lt hgrow)
    rw [hstay, served_some_iff Or.inl]
    constructor
    · intro hfit
      omega
    · intro hsmall
      have hup := le_alignUp hsmall
      rw [Heap.usableSize]
      omega

/-! ## Runs -/

/-- **A permitted request is a run of calls and writes**: `os_heap_calloc` is an allocation, and a
write into it when it succeeds. -/
theorem HeapInv.request_run (hI : HeapInv c s bs) {r : HeapRequest} (hr : r.Allowed c s)
    (hs : requestStep c s r = some s') :
    ∃ ops, Run (fun s op => HeapOp.Allowed c s op) (heapStep c) s ops s' := by
  cases r with
  | call op => exact ⟨[op], .cons hr hs (.nil s')⟩
  | calloc count size =>
      set total := count * size % 2 ^ 32 with htotal
      obtain ⟨h', p, bs', heq, hI', hfail, hnew⟩ := hI.alloc_size total
      have halloc : heapStep c s (.alloc total) = some ⟨h', p.toList ++ s.live⟩ := by
        rw [heapStep, heq]
        rfl
      rw [requestStep, osHeapCalloc, ← htotal, heq] at hs
      obtain rfl := Option.some.inj hs
      cases p with
      | none => exact ⟨[.alloc total], .cons trivial halloc (.nil _)⟩
      | some q =>
          have hroom : s.heap.HasRoom c (alignUp 4 total) := by
            by_contra hno
            cases hfail.mpr (Or.inr hno)
          have hsmall : total ≤ 2 ^ 32 - 8 :=
            hr.resolve_right (not_not.mpr (hroom.mono (Nat.zero_le _)))
          -- the cleared bytes are those of the new allocation
          have hfits : 0 + (List.replicate total (0 : UInt8)).length
              ≤ prvBlockGetSize c h'.mem (q - c.header) := by
            rw [List.length_replicate, Nat.zero_add]
            exact Nat.le_trans (le_alignUp hsmall) (hnew q rfl).1
          exact ⟨[.alloc total, .write q 0 (List.replicate total 0)],
            .cons trivial halloc (.cons ⟨by simp, hfits⟩ rfl (.nil _))⟩

/-- Every permitted request keeps the invariant. -/
theorem HeapInv.request (hI : HeapInv c s bs) {r : HeapRequest} (hr : r.Allowed c s)
    (hs : requestStep c s r = some s') : ∃ bs', HeapInv c s' bs' := by
  obtain ⟨ops, hrun⟩ := hI.request_run hr hs
  exact hI.run hrun

/-- The invariant holds in every run of requests. -/
theorem heapInv_of_requests {rs : List HeapRequest}
    (hr : Run (fun s r => r.Allowed c s) (requestStep c) (HeapSys.init c h) rs s) :
    ∃ bs, HeapInv c s bs := by
  apply hr.invariant (fun s => ∃ bs, HeapInv c s bs)
  · rintro s r s' ⟨bs, hI⟩ hall hs
    exact hI.request hall hs
  · exact ⟨_, HeapInv.init c h⟩

/-- **Which requests are served.** After any sequence of permitted calls and writes: `os_heap_alloc`
serves a size unless `ALIGN_UP` wraps and some block is free; `os_heap_calloc` serves a product unless
the product or the round-up wraps and what is left of it finds a block; and `os_heap_realloc` of a
live allocation serves a size unless `ALIGN_UP` wraps. -/
theorem heap_requests_served {rs : List HeapRequest}
    (hr : Run (fun s r => r.Allowed c s) (requestStep c) (HeapSys.init c h) rs s) :
    (∀ n < 2 ^ 32, Served c n (s.heap.HasRoom c n) (osHeapAlloc c s.heap n) ↔
      n ≤ 2 ^ 32 - 8 ∨ ¬ s.heap.HasRoom c 0) ∧
    (∀ count < 2 ^ 32, ∀ size < 2 ^ 32,
      Served c (count * size) (s.heap.HasRoom c (count * size)) (osHeapCalloc c s.heap count size) ↔
        count * size ≤ 2 ^ 32 - 8 ∨ count * size % 2 ^ 32 = 0 ∨
          ¬ s.heap.HasRoom c (alignUp 4 (count * size % 2 ^ 32))) ∧
    ∀ p ∈ s.live, ∀ n < 2 ^ 32,
      Served c n (n ≤ s.heap.usableSize c p ∨ s.heap.HasRoom c n)
          (osHeapRealloc c s.heap (some p) n) ↔
        n ≤ 2 ^ 32 - 8 := by
  obtain ⟨bs, hI⟩ := heapInv_of_requests hr
  refine ⟨fun n hn => hI.alloc_served_iff hn, ?_, fun p hp n hn => hI.realloc_served_iff hp hn⟩
  intro count _ size _
  exact hI.calloc_served_iff count size

/-- One allocation of each kind, and a product that lost its high bits. -/
def requestTrace : List HeapRequest :=
  [.call (.alloc 24), .calloc 3 5, .calloc 0x40000001 4, .call (.realloc (some 0x2000040C) 100)]

/-- After one allocation of each kind, a request of 40 bytes is served exactly if there is room. -/
theorem heap_requests_served_requestTrace : ∃ s,
    Run (fun s r => HeapRequest.Allowed HeapConfig.cortexM s r) (requestStep HeapConfig.cortexM)
      (HeapSys.init HeapConfig.cortexM Heap.unset) requestTrace s ∧
    s.live.length = 3 ∧
    Served HeapConfig.cortexM 40 (s.heap.HasRoom HeapConfig.cortexM 40)
      (osHeapAlloc HeapConfig.cortexM s.heap 40) := by
  obtain ⟨s, hr, hlen⟩ := exists_run_of_exec (fun s r => HeapRequest.Allowed HeapConfig.cortexM s r)
    (requestStep HeapConfig.cortexM) (HeapSys.init HeapConfig.cortexM Heap.unset) requestTrace
    (fun s => s.live.length = 3) (by decide +kernel)
  exact ⟨s, hr, hlen, ((heap_requests_served hr).1 40 (by decide)).mpr (Or.inl (by decide))⟩

/-- A request that got a pointer to too few bytes was not served. -/
theorem not_served_of_any {available : Prop} {r : Option (Heap × Option Addr)}
    (hr : r.any (fun x => x.2.any fun q => decide (x.1.usableSize c q < n)) = true) :
    ¬ Served c n available r := by
  rintro ⟨h', p, rfl, hsize, -⟩
  cases p with
  | none => cases hr
  | some q =>
      have hlt : h'.usableSize c q < n := of_decide_eq_true hr
      exact Nat.not_lt_of_le (hsize q rfl) hlt

/-- **Wrapped sizes are answered with small blocks.** With one live allocation of 8 bytes,
`os_heap_alloc` and `os_heap_realloc` of `2 ^ 32 - 1` bytes and `os_heap_calloc` of `2 ^ 32 + 4` bytes
all return pointers. -/
theorem heap_requests_undersized : ∃ s,
    Run (fun s r => HeapRequest.Allowed HeapConfig.cortexM s r) (requestStep HeapConfig.cortexM)
      (HeapSys.init HeapConfig.cortexM Heap.unset) [.call (.alloc 8)] s ∧
    0x2000040C ∈ s.live ∧
    ¬ Served HeapConfig.cortexM 0xFFFFFFFF (s.heap.HasRoom HeapConfig.cortexM 0xFFFFFFFF)
      (osHeapAlloc HeapConfig.cortexM s.heap 0xFFFFFFFF) ∧
    ¬ Served HeapConfig.cortexM (0x40000001 * 4)
      (s.heap.HasRoom HeapConfig.cortexM (0x40000001 * 4))
      (osHeapCalloc HeapConfig.cortexM s.heap 0x40000001 4) ∧
    ¬ Served HeapConfig.cortexM 0xFFFFFFFF
      (0xFFFFFFFF ≤ s.heap.usableSize HeapConfig.cortexM 0x2000040C ∨
        s.heap.HasRoom HeapConfig.cortexM 0xFFFFFFFF)
      (osHeapRealloc HeapConfig.cortexM s.heap (some 0x2000040C) 0xFFFFFFFF) := by
  obtain ⟨s, hr, hlive, halloc, hcalloc, hrealloc⟩ := exists_run_of_exec
    (fun s r => HeapRequest.Allowed HeapConfig.cortexM s r) (requestStep HeapConfig.cortexM)
    (HeapSys.init HeapConfig.cortexM Heap.unset) [.call (.alloc 8)]
    (fun s => 0x2000040C ∈ s.live ∧
      (osHeapAlloc HeapConfig.cortexM s.heap 0xFFFFFFFF).any (fun x => x.2.any fun q =>
        decide (x.1.usableSize HeapConfig.cortexM q < 0xFFFFFFFF)) = true ∧
      (osHeapCalloc HeapConfig.cortexM s.heap 0x40000001 4).any (fun x => x.2.any fun q =>
        decide (x.1.usableSize HeapConfig.cortexM q < 0x40000001 * 4)) = true ∧
      (osHeapRealloc HeapConfig.cortexM s.heap (some 0x2000040C) 0xFFFFFFFF).any (fun x =>
        x.2.any fun q => decide (x.1.usableSize HeapConfig.cortexM q < 0xFFFFFFFF)) = true)
    (by decide +kernel)
  exact ⟨s, hr, hlive, not_served_of_any halloc, not_served_of_any hcalloc,
    not_served_of_any hrealloc⟩

end MiniRTOS
