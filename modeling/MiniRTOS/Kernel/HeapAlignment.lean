import MiniRTOS.Kernel.HeapRequests

/-! # Alignment of allocations

`ALIGN_UP` rounds the sizes up to `OS_CONFIG_HEAP_ALIGNMENT`, not the addresses. A pointer is the
address of a block plus the size of its header, so with the 16 bytes of a header on a 64-bit host all
addresses stay multiples of 8, while the 12 bytes of a header on a 32-bit target put the very first
pointer 4 bytes off. -/

namespace MiniRTOS

open ByteMemory Runs Tiling Heap

variable {c : HeapConfig} {h h' : Heap} {s s' : HeapSys} {bs bs' l r : List Block} {b : Block}

/-! ## The pointers of a run -/

/-- The pointer that a request returns, if it returns one. -/
def HeapRequest.result (c : HeapConfig) (s : HeapSys) : HeapRequest → Option Addr
  | .call (.alloc n) => (osHeapAlloc c s.heap n).bind Prod.snd
  | .call (.realloc ptr n) => (osHeapRealloc c s.heap ptr n).bind Prod.snd
  | .calloc count size => (osHeapCalloc c s.heap count size).bind Prod.snd
  | .call _ => none

/-- **The pointers returned along a run.** -/
def returned (c : HeapConfig) : HeapSys → List HeapRequest → List Addr
  | _, [] => []
  | s, r :: rs => (r.result c s).toList ++ (requestStep c s r).elim [] fun s' => returned c s' rs

/-- The size that a request hands to `os_heap_alloc` when nothing is live. -/
def HeapRequest.size : HeapRequest → Option Nat
  | .call (.alloc n) => some n
  | .call (.realloc none n) => some n
  | .calloc count size => some (count * size % 2 ^ 32)
  | .call _ => none

/-- **The empty heap has room for the request.** -/
def HeapRequest.Satisfiable (c : HeapConfig) (r : HeapRequest) : Prop :=
  ∃ n ∈ r.size, n ≠ 0 ∧ alignUp 4 n ≤ heapSize - c.header

/-! ## Granularity

A divisor of `OS_CONFIG_HEAP_ALIGNMENT` and of the header size divides all addresses: 8 on a 64-bit host
and 4 on a 32-bit target. -/

variable {g : Nat}

/-- Rounded sizes are multiples of the alignment. -/
theorem dvd_alignUp (width n : Nat) : heapAlignment ∣ alignUp width n := Nat.dvd_mul_left ..

/-- `aligned_heap` is a multiple of the alignment. -/
theorem HeapConfig.dvd_start (c : HeapConfig) : heapAlignment ∣ c.start := dvd_alignUp ..

/-- What `os_heap_alloc` leaves is granular. -/
theorem HeapInv.alloc_granular (hI : HeapInv c s bs) (hal : g ∣ heapAlignment) (hhdr : g ∣ c.header)
    (hg : Granular g bs) {n : Nat} {q : Option Addr}
    (heq : osHeapAlloc c s.heap n = some (h', q)) (ht : Tiled c h' bs') :
    Granular g bs' := by
  rcases hI.tiled.osHeapAlloc hI.initialized n with
    ⟨h₁, heq₁, hmem, hpx, -⟩ | ⟨h₁, l, b, r, -, heq₁, rfl, -, -, -, ht₁, -⟩
  · obtain ⟨rfl, -⟩ := Prod.mk.inj (Option.some.inj (heq₁.symm.trans heq))
    have hsame : Tiled c h₁ bs := hI.tiled.congr hpx fun _ _ _ _ _ => by rw [hmem]
    rwa [ht.unique hsame]
  · obtain ⟨rfl, -⟩ := Prod.mk.inj (Option.some.inj (heq₁.symm.trans heq))
    rw [ht.unique ht₁]
    exact hg.take (hal.trans (dvd_alignUp ..)) hhdr

/-- What `os_heap_free` leaves is granular. -/
theorem Refunded.granular {p : Nat} (hr : Refunded c p h bs h' bs')
    (hhdr : g ∣ c.header) (hg : Granular g bs) :
    Granular g bs' := by
  obtain ⟨l, b, r, rfl, -, -, rfl, -⟩ := hr
  exact hg.release hhdr

/-- **A permitted call keeps the blocks granular.** -/
theorem HeapInv.step_granular (hI : HeapInv c s bs) (hal : g ∣ heapAlignment) (hhdr : g ∣ c.header)
    (hg : Granular g bs) {op : HeapOp} (hop : op.Allowed c s)
    (hs : heapStep c s op = some s') (hI' : HeapInv c s' bs') : Granular g bs' := by
  have halloc : ∀ {n h' q live}, osHeapAlloc c s.heap n = some (h', q) →
      s' = ⟨h', live⟩ → Granular g bs' := by
    rintro n h' q live heq rfl
    exact hI.alloc_granular hal hhdr hg heq hI'.tiled
  have hfree : ∀ {p live}, p ∈ s.live → (osHeapFree c s.heap (some p)).map (HeapSys.mk · live) = some s' →
      Granular g bs' := by
    intro p live hp hs
    obtain ⟨h', bs₁, heq, hI₁, -, hrefund⟩ := hI.free hp
    rw [heq] at hs
    obtain rfl := Option.some.inj hs
    rw [hI'.tiled.unique hI₁.tiled]
    exact hrefund.granular hhdr hg
  cases op with
  | alloc n =>
      obtain ⟨⟨h', q⟩, heq, rfl⟩ := Option.map_eq_some_iff.mp hs
      exact halloc heq rfl
  | free ptr =>
      cases ptr with
      | none =>
          obtain rfl := Option.some.inj hs
          rwa [hI'.tiled.unique hI.tiled]
      | some p => exact hfree (hop p rfl) hs
  | realloc ptr n =>
      cases ptr with
      | none =>
          obtain ⟨⟨h', q⟩, heq, rfl⟩ := Option.map_eq_some_iff.mp hs
          exact halloc heq rfl
      | some p =>
          have hp : p ∈ s.live := hop p rfl
          by_cases hz : n = 0
          · rw [heapStep, osHeapRealloc, if_pos hz, Option.map_map] at hs
            exact hfree hp hs
          by_cases hgrow : prvBlockGetSize c s.heap.mem (p - c.header) < alignUp 4 n
          · rcases hI.grow hp hz hgrow with ⟨h₁, -, heq, hI₁, -⟩ |
              ⟨h₁, q, bs₁, h₂, bs₂, heq₁, heq, -, ht₁, hI₂, -, hrefund, -⟩
            · rw [heapStep, heq] at hs
              obtain rfl := Option.some.inj hs
              rwa [hI'.tiled.unique hI₁.tiled]
            · -- an allocation, and then a free
              rw [heapStep, heq] at hs
              obtain rfl := Option.some.inj hs
              rw [hI'.tiled.unique hI₂.tiled]
              exact hrefund.granular hhdr (hI.alloc_granular hal hhdr hg heq₁ ht₁)
          · have hstay : osHeapRealloc c s.heap (some p) n = some (s.heap, some p) := by
              rw [osHeapRealloc, if_neg hz]
              exact if_pos (Nat.le_of_not_lt hgrow)
            rw [heapStep, hstay] at hs
            obtain rfl := Option.some.inj hs
            rwa [hI'.tiled.unique hI.tiled]
  | write p off bytes =>
      obtain rfl := Option.some.inj hs
      rwa [hI'.tiled.unique (hI.write hop.1 hop.2).1.tiled]

/-- A permitted request keeps the blocks granular. -/
theorem HeapInv.request_granular (hI : HeapInv c s bs) (hal : g ∣ heapAlignment) (hhdr : g ∣ c.header)
    (hg : Granular g bs) {r : HeapRequest} (hr : r.Allowed c s)
    (hs : requestStep c s r = some s') : ∃ bs', HeapInv c s' bs' ∧ Granular g bs' := by
  obtain ⟨ops, hrun⟩ := hI.request_run hr hs
  apply hrun.invariant (fun s => ∃ bs, HeapInv c s bs ∧ Granular g bs) ?_ ⟨bs, hI, hg⟩
  rintro s op s' ⟨bs, hI, hg⟩ hop hs
  obtain ⟨s₁, bs₁, heq, hI₁, -⟩ := hI.step hop
  obtain rfl := Option.some.inj (heq.symm.trans hs)
  exact ⟨bs₁, hI₁, hI.step_granular hal hhdr hg hop hs hI₁⟩

/-- On granular blocks the live pointers are aligned. -/
theorem HeapInv.dvd_of_granular (hI : HeapInv c s bs) (hal : g ∣ heapAlignment) (hhdr : g ∣ c.header)
    (hg : Granular g bs) {p : Nat} (hp : p ∈ s.live) : g ∣ p := by
  obtain ⟨b, hb, -, rfl⟩ := (hI.live p).mp hp
  have haddr : g ∣ b.addr := hI.tiled.tiles.dvd_addr (hal.trans c.dvd_start) hhdr hg hb
  exact Nat.dvd_add haddr hhdr

/-- A pointer that a request returns is live afterwards. -/
theorem HeapRequest.result_mem_live {r : HeapRequest} (hs : requestStep c s r = some s') {q : Addr}
    (hq : q ∈ r.result c s) : q ∈ s'.live := by
  match r with
  | .call (.alloc n) =>
      obtain ⟨⟨h', p⟩, heq, rfl⟩ := Option.map_eq_some_iff.mp hs
      rw [result, heq] at hq
      obtain rfl : p = some q := hq
      exact List.mem_cons_self
  | .call (.realloc ptr n) =>
      obtain ⟨⟨h', p⟩, heq, rfl⟩ := Option.map_eq_some_iff.mp hs
      rw [result, heq] at hq
      obtain rfl : p = some q := hq
      cases ptr <;> exact List.mem_cons_self
  | .calloc count size =>
      obtain ⟨⟨h', p⟩, heq, rfl⟩ := Option.map_eq_some_iff.mp hs
      rw [result, heq] at hq
      obtain rfl : p = some q := hq
      exact List.mem_cons_self
  | .call (.free ptr) => cases hq
  | .call (.write p off bytes) => cases hq

/-- **Every pointer of a run is a multiple of what divides the alignment and the header.** -/
theorem returned_dvd {rs : List HeapRequest}
    (hrun : Run (fun s r => HeapRequest.Allowed c s r) (requestStep c) s rs s')
    (hal : g ∣ heapAlignment) (hhdr : g ∣ c.header) (hI : HeapInv c s bs) (hg : Granular g bs) :
    ∀ p ∈ returned c s rs, g ∣ p := by
  induction hrun generalizing bs with
  | nil s =>
      intro p hp
      cases hp
  | cons hr hs _ ih =>
      obtain ⟨bs₁, hI₁, hg₁⟩ := hI.request_granular hal hhdr hg hr hs
      intro p hp
      rw [returned, hs] at hp
      rcases List.mem_append.mp hp with hp | hp
      · apply hI₁.dvd_of_granular hal hhdr hg₁
        exact HeapRequest.result_mem_live hs (Option.mem_toList.mp hp)
      · exact ih hI₁ hg₁ p hp

/-! ## Twelve bytes of header -/

/-- **The first allocation** of a heap without live allocations is at its beginning. -/
theorem HeapInv.alloc_first (hI : HeapInv c s bs) (hnone : s.live = []) (n : Nat) :
    ∃ h', osHeapAlloc c s.heap n = some (h',
      if n ≠ 0 ∧ alignUp 4 n ≤ heapSize - c.header then some (c.start + c.header) else none) := by
  obtain rfl := hI.eq_single hnone
  rcases hI.tiled.osHeapAlloc hI.initialized n with
    ⟨h', heq, -, -, -, -, -, hsmall⟩ | ⟨h', l, b, r, hz, heq, hbs, -, hn, -⟩
  · refine ⟨h', ?_⟩
    rw [heq, if_neg]
    rintro ⟨hz, hle⟩
    rcases hsmall with hz' | hsmall
    · exact hz hz'
    · have hlt := hsmall _ List.mem_cons_self
      simp only [Bool.false_eq_true, false_or] at hlt
      omega
  · -- the only block is the one that was found
    have hb : b ∈ [(⟨c.start, heapSize - c.header, false⟩ : Block)] := by
      rw [hbs]
      simp
    obtain rfl := List.mem_singleton.mp hb
    exact ⟨h', by rw [heq, if_pos ⟨hz, hn⟩, Block.data]⟩

/-- **A request on a heap without live allocations** returns the first data byte of the heap when the
heap has room for it; otherwise it returns nothing, and still nothing is live. -/
theorem HeapInv.request_first (hI : HeapInv c s bs) (hnone : s.live = []) {r : HeapRequest}
    (hr : r.Allowed c s) (hs : requestStep c s r = some s') :
    (r.Satisfiable c → r.result c s = some (c.start + c.header)) ∧
      (¬ r.Satisfiable c → r.result c s = none ∧ s'.live = []) := by
  have hno : ∀ p, p ∉ s.live := by simp [hnone]
  -- an allocation of `n` bytes decides the request
  have hcase : ∀ n, r.size = some n →
      (r.Satisfiable c ↔ n ≠ 0 ∧ alignUp 4 n ≤ heapSize - c.header) := by
    intro n hn
    simp [HeapRequest.Satisfiable, hn]
  match r with
  | .call (.alloc n) =>
      obtain ⟨h', heq⟩ := hI.alloc_first hnone n
      rw [hcase n rfl, HeapRequest.result, heq]
      rw [requestStep, heapStep, heq] at hs
      obtain rfl := Option.some.inj hs
      exact ⟨fun h => if_pos h, fun h => ⟨if_neg h, by rw [if_neg h]; exact hnone⟩⟩
  | .call (.realloc none n) =>
      obtain ⟨h', heq⟩ := hI.alloc_first hnone n
      rw [hcase n rfl, HeapRequest.result, osHeapRealloc, heq]
      rw [requestStep, heapStep, osHeapRealloc, heq] at hs
      obtain rfl := Option.some.inj hs
      exact ⟨fun h => if_pos h, fun h => ⟨if_neg h, by rw [if_neg h]; exact hnone⟩⟩
  | .calloc count size =>
      obtain ⟨h', heq⟩ := hI.alloc_first hnone (count * size % 2 ^ 32)
      rw [hcase _ rfl, HeapRequest.result, osHeapCalloc, heq]
      rw [requestStep, osHeapCalloc, heq] at hs
      obtain rfl := Option.some.inj hs
      exact ⟨fun h => by rw [if_pos h]; rfl,
        fun h => ⟨by rw [if_neg h]; rfl, by rw [if_neg h]; exact hnone⟩⟩
  | .call (.realloc (some p) n) => exact absurd (hr p rfl) (hno p)
  | .call (.free none) =>
      obtain rfl := Option.some.inj hs
      exact ⟨by simp [HeapRequest.Satisfiable, HeapRequest.size], fun _ => ⟨rfl, hnone⟩⟩
  | .call (.free (some p)) => exact absurd (hr p rfl) (hno p)
  | .call (.write p off bytes) => exact absurd hr.1 (hno p)

/-- **With a header of 12 bytes a run returns only aligned pointers when it returns none.** -/
theorem returned_aligned_iff {rs : List HeapRequest}
    (hrun : Run (fun s r => HeapRequest.Allowed c s r) (requestStep c) s rs s')
    (hptr : c.ptrBytes = 4) (hI : HeapInv c s bs) (hnone : s.live = []) :
    (∀ p ∈ returned c s rs, heapAlignment ∣ p) ↔ ∀ r ∈ rs, ¬ r.Satisfiable c := by
  induction hrun generalizing bs with
  | nil s => simp [returned]
  | @cons s s₁ s₂ r rs hr hs _ ih =>
      obtain ⟨hyes, hnot⟩ := hI.request_first hnone hr hs
      rw [List.forall_mem_cons, returned, List.forall_mem_append]
      by_cases hsat : r.Satisfiable c
      · -- the first pointer is 4 bytes off
        rw [hyes hsat, Option.toList_some]
        have hoff : ¬ heapAlignment ∣ c.start + c.header := by
          have hstart := c.dvd_start
          rw [HeapConfig.header, hptr]
          simp only [heapAlignment] at hstart ⊢
          omega
        refine iff_of_false (fun hall => ?_) (fun hall => hall.1 hsat)
        exact hoff (hall.1 _ List.mem_cons_self)
      · obtain ⟨hres, hlive⟩ := hnot hsat
        obtain ⟨bs₁, hI₁⟩ := hI.request hr hs
        rw [hres, hs, Option.elim_some, ih hI₁ hlive]
        simp [hsat]

/-! ## All runs -/

/-- **Which pointers are aligned.** In a run of permitted calls and writes every pointer that
`os_heap_alloc`, `os_heap_realloc` and `os_heap_calloc` return is a multiple of
`OS_CONFIG_HEAP_ALIGNMENT` exactly when pointers have 8 bytes, or no request of the run is one that
the empty heap has room for. -/
theorem heap_pointers_aligned {rs : List HeapRequest}
    (hrun : Run (fun s r => HeapRequest.Allowed c s r) (requestStep c) (HeapSys.init c h) rs s) :
    (∀ p ∈ returned c (HeapSys.init c h) rs, heapAlignment ∣ p) ↔
      c.ptrBytes = 8 ∨ ∀ r ∈ rs, ¬ r.Satisfiable c := by
  rcases c.ptrBytes_eq with hptr | hptr
  · rw [returned_aligned_iff hrun hptr (HeapInv.init c h) rfl]
    simp [hptr]
  · refine iff_of_true ?_ (Or.inl hptr)
    have hhdr : c.header = 16 := by rw [HeapConfig.header, hptr]
    apply returned_dvd hrun dvd_rfl (by rw [hhdr]; decide) (HeapInv.init c h)
    intro b hb
    rw [List.mem_singleton.mp hb, hhdr]
    show heapAlignment ∣ heapSize - 16
    decide

/-- A heap in the memory of a 64-bit host. -/
def HeapConfig.host : HeapConfig :=
  ⟨8, 0x555555558040, by decide, by decide, by decide, by decide⟩

/-- Allocations, a free that merges, and a growing reallocation. -/
def hostTrace : List HeapRequest :=
  [.call (.alloc 13), .calloc 3 5, .call (.free (some 0x555555558050)), .call (.alloc 1),
    .call (.realloc (some 0x555555558070) 100)]

/-- On the host all pointers returned are aligned. -/
theorem heap_pointers_aligned_hostTrace : ∃ s,
    Run (fun s r => HeapRequest.Allowed HeapConfig.host s r) (requestStep HeapConfig.host)
      (HeapSys.init HeapConfig.host Heap.unset) hostTrace s ∧
    s.live.length = 2 ∧
    ∀ p ∈ returned HeapConfig.host (HeapSys.init HeapConfig.host Heap.unset) hostTrace,
      heapAlignment ∣ p := by
  obtain ⟨s, hr, hlen⟩ := exists_run_of_exec (fun s r => HeapRequest.Allowed HeapConfig.host s r)
    (requestStep HeapConfig.host) (HeapSys.init HeapConfig.host Heap.unset) hostTrace
    (fun s => s.live.length = 2) (by decide +kernel)
  exact ⟨s, hr, hlen, (heap_pointers_aligned hr).mpr (Or.inl rfl)⟩

/-- **The first pointer on a 32-bit target is 4 bytes off.** -/
theorem heap_pointer_unaligned : ∃ s,
    Run (fun s r => HeapRequest.Allowed HeapConfig.cortexM s r) (requestStep HeapConfig.cortexM)
      (HeapSys.init HeapConfig.cortexM Heap.unset) [.call (.alloc 13)] s ∧
    returned HeapConfig.cortexM (HeapSys.init HeapConfig.cortexM Heap.unset) [.call (.alloc 13)]
      = [0x2000040C] ∧
    heapAlignment ∣ HeapConfig.cortexM.ucHeap ∧ ¬ heapAlignment ∣ 0x2000040C := by
  obtain ⟨s, hr, hret⟩ := exists_run_of_exec
    (fun s r => HeapRequest.Allowed HeapConfig.cortexM s r) (requestStep HeapConfig.cortexM)
    (HeapSys.init HeapConfig.cortexM Heap.unset) [.call (.alloc 13)]
    (fun _ => returned HeapConfig.cortexM (HeapSys.init HeapConfig.cortexM Heap.unset)
      [.call (.alloc 13)] = [0x2000040C]) (by decide +kernel)
  exact ⟨s, hr, hret, by decide, by decide⟩

end MiniRTOS
