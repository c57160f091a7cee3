import MiniRTOS.Kernel.HeapAlignment
import MiniRTOS.Lib.FirstFit

/-! # The heap as a function on its blocks

The allocator keeps its block list in headers between the data of its callers, walks it by pointers and
cuts, relinks and merges blocks in place. Seen from outside it is the allocator of `FirstFit`: what a call
returns and what the block list is afterwards depend on the block list before and on nothing else in the
memory.

* **`HeapRequest.plan`** — the requests as functions on lists of blocks.
* **`heap_is_first_fit`** — every run of requests returns what the plans say.
* **`heap_forgets`** — two heaps with the same live allocations answer alike from then on, whatever calls
  led to them.
* **`heap_serves`** — how large a request may be to be served, by the number of live allocations and their
  sizes. -/

namespace MiniRTOS

open ByteMemory Runs Tiling Heap FirstFit

variable {c : HeapConfig} {h h' : Heap} {s s' s₁ s₂ : HeapSys} {bs bs' : List Block} {b : Block}
  {n p : Nat}

/-! ## Requests on lists of blocks -/

/-- `os_heap_alloc` on a list of blocks. -/
def HeapConfig.planAlloc (c : HeapConfig) (n : Nat) (bs : List Block) : List Block × Option Addr :=
  if n = 0 then (bs, none) else FirstFit.alloc c.header heapAlignment (alignUp 4 n) bs

/-- **A request on a list of blocks**, and what it returns. -/
def HeapRequest.plan (c : HeapConfig) (bs : List Block) : HeapRequest → List Block × Option Addr
  | .call (.alloc n) => c.planAlloc n bs
  | .call (.free none) => (bs, none)
  | .call (.free (some p)) => (FirstFit.free c.header p bs, none)
  | .call (.realloc none n) => c.planAlloc n bs
  | .call (.realloc (some p) n) =>
      if n = 0 then (FirstFit.free c.header p bs, none)
      else FirstFit.resize c.header heapAlignment p (alignUp 4 n) bs
  | .call (.write ..) => (bs, none)
  | .calloc count size => c.planAlloc (count * size % 2 ^ 32) bs

/-- The blocks after `os_heap_init`. -/
def HeapConfig.emptyHeap (c : HeapConfig) : List Block := [⟨c.start, heapSize - c.header, false⟩]

/-- A request and what it returns. -/
def answerStep (c : HeapConfig) (s : HeapSys) (r : HeapRequest) : Option (HeapSys × Option Addr) :=
  (requestStep c s r).map fun s' => (s', r.result c s)

/-! ## One request -/

/-- A header is not empty. -/
theorem HeapConfig.header_pos (c : HeapConfig) : 0 < c.header :=
  Nat.lt_of_lt_of_le (by decide) c.header_ge

/-- The block list is the only one that fits. -/
theorem HeapInv.blocks_unique (hI : HeapInv c s bs) (ht : Tiled c s.heap bs') : bs = bs' :=
  hI.tiled.unique ht

/-- **`os_heap_alloc` follows its plan.** -/
theorem HeapInv.alloc_plan (hI : HeapInv c s bs) (n : Nat) :
    ∃ h', osHeapAlloc c s.heap n = some (h', (c.planAlloc n bs).2) ∧
      HeapInv c ⟨h', (c.planAlloc n bs).2.toList ++ s.live⟩ (c.planAlloc n bs).1 := by
  obtain ⟨h₁, p, bs₁, heq₁, hI₁, -⟩ := hI.alloc n
  rw [HeapConfig.planAlloc]
  rcases hI.tiled.osHeapAlloc hI.initialized n with
    ⟨h', heq, hmem, hpx, -, -, -, hsmall⟩ | ⟨h', l, b, r, hz, heq, rfl, hb, hn, hl, ht', -⟩
  · obtain ⟨rfl, rfl⟩ := Prod.mk.inj (Option.some.inj (heq₁.symm.trans heq))
    have hsame : bs₁ = bs := hI₁.blocks_unique (hI.tiled.congr hpx fun _ _ _ _ _ => by rw [hmem])
    rw [hsame] at hI₁
    split
    · exact ⟨h₁, heq, hI₁⟩
    · next hz =>
        rw [alloc_eq_none (hsmall.resolve_left hz)]
        exact ⟨h₁, heq, hI₁⟩
  · obtain ⟨rfl, rfl⟩ := Prod.mk.inj (Option.some.inj (heq₁.symm.trans heq))
    rw [if_neg hz, alloc_append hl hb hn]
    exact ⟨h₁, heq, hI₁.blocks_unique ht' ▸ hI₁⟩

/-- A list that gave a block back is the plan of that. -/
theorem Refunded.plan {q : Nat} (hr : Refunded c p h bs h' bs') (ht : Tiled c h bs) (hq : q = p) :
    bs' = FirstFit.free c.header q bs := by
  obtain ⟨l, b, r, rfl, rfl, hu, rfl, -⟩ := hr
  rw [hq, free_append ht.tiles c.header_pos hu]

/-- **`os_heap_free` follows its plan.** -/
theorem HeapInv.free_plan (hI : HeapInv c s bs) (hp : p ∈ s.live) :
    ∃ h', osHeapFree c s.heap (some p) = some h' ∧
      HeapInv c ⟨h', s.live.erase p⟩ (FirstFit.free c.header p bs) := by
  obtain ⟨h', bs', heq, hI', -, hrefund⟩ := hI.free hp
  exact ⟨h', heq, hrefund.plan hI.tiled rfl ▸ hI'⟩

/-- **`os_heap_realloc` follows its plan.** -/
theorem HeapInv.realloc_plan (hI : HeapInv c s bs) (hp : p ∈ s.live) (hn : n ≠ 0) :
    ∃ h', osHeapRealloc c s.heap (some p) n
        = some (h', (resize c.header heapAlignment p (alignUp 4 n) bs).2) ∧
      HeapInv c ⟨h', liveAfterRealloc s.live (some p) n
          (resize c.header heapAlignment p (alignUp 4 n) bs).2⟩
        (resize c.header heapAlignment p (alignUp 4 n) bs).1 := by
  obtain ⟨b, hb, hu, rfl⟩ := (hI.live p).mp hp
  obtain ⟨l, r, hbs⟩ := List.append_of_mem hb
  have hsplit : splitFirst (owns c.header (b.data c.header)) bs = some (l, b, r) := by
    have ht := hI.tiled.tiles
    rw [hbs] at ht ⊢
    exact splitFirst_owns ht c.header_pos hu
  have hsize : prvBlockGetSize c s.heap.mem (b.data c.header - c.header) = b.size :=
    hI.tiled.usableSize_data hb
  rw [resize, hsplit]
  dsimp only
  by_cases hle : alignUp 4 n ≤ b.size
  · rw [if_pos hle]
    refine ⟨s.heap, ?_, hI.initialized, hI.tiled, hI.coalesced, ?_, fun q => ?_⟩
    · rw [osHeapRealloc, if_neg hn]
      exact if_pos (hsize.symm ▸ hle)
    · have hperm : (b.data c.header :: s.live.erase (b.data c.header)).Perm s.live :=
        (List.perm_cons_erase hp).symm
      exact hperm.nodup_iff.mpr hI.nodup
    · rw [← hI.live]
      show q ∈ b.data c.header :: s.live.erase (b.data c.header) ↔ _
      rw [(List.perm_cons_erase hp).mem_iff]
  · rw [if_neg hle]
    have hgrow : prvBlockGetSize c s.heap.mem (b.data c.header - c.header) < alignUp 4 n := by
      rw [hsize]
      omega
    -- the allocation inside is the plan's, since the size is aligned already
    have hz : alignUp 4 n ≠ 0 := by omega
    have hplan : c.planAlloc (alignUp 4 n) bs
        = FirstFit.alloc c.header heapAlignment (alignUp 4 n) bs := by
      rw [HeapConfig.planAlloc, if_neg hz, alignUp_alignUp]
    obtain ⟨h₀, heq₀, hI₀⟩ := hI.alloc_plan (alignUp 4 n)
    rw [hplan] at heq₀ hI₀
    generalize FirstFit.alloc c.header heapAlignment (alignUp 4 n) bs = x at heq₀ hI₀ ⊢
    obtain ⟨bs₀, q₀⟩ := x
    rcases hI.grow hp hn hgrow with ⟨h', heq, hre, hI', -⟩ |
      ⟨h₁, q, bs₁, h', bs', heq, hre, -, ht₁, hI', -, hrefund, -⟩
    · obtain ⟨rfl, rfl⟩ := Prod.mk.inj (Option.some.inj (heq₀.symm.trans heq))
      have hsame : bs₀ = bs := hI₀.blocks_unique hI'.tiled
      refine ⟨h₀, hre, ?_⟩
      show HeapInv c ⟨h₀, if n = 0 then _ else s.live⟩ bs₀
      rw [if_neg hn, hsame]
      exact hI'
    · obtain ⟨rfl, rfl⟩ := Prod.mk.inj (Option.some.inj (heq₀.symm.trans heq))
      have hsame : bs₀ = bs₁ := hI₀.blocks_unique ht₁
      refine ⟨h', hre, ?_⟩
      obtain rfl := hrefund.plan ht₁ rfl
      rw [hsame]
      exact hI'

/-- **Every permitted request follows its plan.** -/
theorem HeapInv.request_plan (hI : HeapInv c s bs) {r : HeapRequest} (hr : r.Allowed c s) :
    ∃ s', answerStep c s r = some (s', (r.plan c bs).2) ∧ HeapInv c s' (r.plan c bs).1 := by
  cases r with
  | call op =>
      cases op with
      | alloc n =>
          obtain ⟨h', heq, hI'⟩ := hI.alloc_plan n
          refine ⟨_, ?_, hI'⟩
          simp only [answerStep, requestStep, heapStep, HeapRequest.result, heq]
          rfl
      | free ptr =>
          cases ptr with
          | none => exact ⟨s, rfl, hI⟩
          | some p =>
              obtain ⟨h', heq, hI'⟩ := hI.free_plan (hr p rfl)
              refine ⟨_, ?_, hI'⟩
              simp only [answerStep, requestStep, heapStep, HeapRequest.result, heq]
              rfl
      | realloc ptr n =>
          cases ptr with
          | none =>
              obtain ⟨h', heq, hI'⟩ := hI.alloc_plan n
              refine ⟨_, ?_, hI'⟩
              simp only [answerStep, requestStep, heapStep, HeapRequest.result, osHeapRealloc, heq]
              rfl
          | some p =>
              by_cases hn : n = 0
              · have hplan : HeapRequest.plan c bs (.call (.realloc (some p) n))
                    = (FirstFit.free c.header p bs, none) := if_pos hn
                obtain ⟨h', heq, hI'⟩ := hI.free_plan (hr p rfl)
                have hre : osHeapRealloc c s.heap (some p) n = some (h', none) := by
                  rw [osHeapRealloc, if_pos hn, heq]
                  rfl
                rw [hplan]
                refine ⟨_, ?_, hI'⟩
                simp only [answerStep, requestStep, heapStep, HeapRequest.result, hre]
                simp [liveAfterRealloc, hn]
              · have hplan : HeapRequest.plan c bs (.call (.realloc (some p) n))
                    = resize c.header heapAlignment p (alignUp 4 n) bs := if_neg hn
                obtain ⟨h', heq, hI'⟩ := hI.realloc_plan (hr p rfl) hn
                rw [hplan]
                refine ⟨_, ?_, hI'⟩
                simp only [answerStep, requestStep, heapStep, HeapRequest.result, heq]
                rfl
      | write p off bytes =>
          obtain ⟨hp, hoff⟩ := hr
          exact ⟨_, rfl, (hI.write hp hoff).1⟩
  | calloc count size =>
      obtain ⟨h', heq, hI'⟩ := hI.alloc_plan (count * size % 2 ^ 32)
      obtain ⟨h₁, q, bs₁, heq₁, -, hfail, hnew⟩ := hI.alloc_size (count * size % 2 ^ 32)
      obtain ⟨rfl, hq⟩ := Prod.mk.inj (Option.some.inj (heq₁.symm.trans heq))
      show ∃ s', answerStep c s (.calloc count size)
          = some (s', (c.planAlloc (count * size % 2 ^ 32) bs).2) ∧
        HeapInv c s' (c.planAlloc (count * size % 2 ^ 32) bs).1
      simp only [answerStep, requestStep, HeapRequest.result, osHeapCalloc, heq]
      generalize c.planAlloc (count * size % 2 ^ 32) bs = x at hq hI' ⊢
      obtain ⟨bs', q'⟩ := x
      obtain rfl : q = q' := hq
      cases q with
      | none => exact ⟨_, rfl, hI'⟩
      | some q =>
          refine ⟨_, rfl, ?_⟩
          -- the cleared bytes are those of the new allocation
          have hroom : s.heap.HasRoom c (alignUp 4 (count * size % 2 ^ 32)) := by
            by_contra hno
            cases hfail.mpr (Or.inr hno)
          have hsmall : count * size % 2 ^ 32 ≤ 2 ^ 32 - 8 :=
            hr.resolve_right (not_not.mpr (hroom.mono (Nat.zero_le _)))
          have hfits : 0 + (List.replicate (count * size % 2 ^ 32) (0 : UInt8)).length
              ≤ prvBlockGetSize c h₁.mem (q - c.header) := by
            rw [List.length_replicate, Nat.zero_add]
            exact Nat.le_trans (le_alignUp hsmall) (hnew q rfl).1
          exact (hI'.write (by simp) hfits).1

/-! ## Runs -/

/-- A run from any heap that keeps the invariant follows the plans. -/
theorem HeapInv.run_plan {rs : List HeapRequest} (hI : HeapInv c s bs)
    (hr : Run (fun s r => r.Allowed c s) (requestStep c) s rs s') :
    outputs (answerStep c) s rs = some (s', (answers (HeapRequest.plan c) bs rs).2) ∧
      HeapInv c s' (answers (HeapRequest.plan c) bs rs).1 := by
  induction hr generalizing bs with
  | nil s => exact ⟨rfl, hI⟩
  | cons hop hs hr ih =>
      next s s₁ s' r rs =>
      obtain ⟨s₂, heq, hI₁⟩ := hI.request_plan hop
      obtain rfl : s₁ = s₂ := by
        rw [answerStep, hs] at heq
        exact congrArg Prod.fst (Option.some.inj heq)
      obtain ⟨hout, hI'⟩ := ih hI₁
      refine ⟨?_, hI'⟩
      rw [outputs, heq, Option.bind_some, hout, Option.map_some]
      rfl

/-- **The heap is a first-fit allocator with immediate coalescing.** After `os_heap_init` and any sequence
of permitted requests, with writes into live allocations in between, the pointers returned are those of the
plans, starting from one free block, and so is the block list at the end. -/
theorem heap_is_first_fit {rs : List HeapRequest}
    (hr : Run (fun s r => r.Allowed c s) (requestStep c) (HeapSys.init c h) rs s) :
    outputs (answerStep c) (HeapSys.init c h) rs
        = some (s, (answers (HeapRequest.plan c) c.emptyHeap rs).2) ∧
      s.heap.blocks c = some (answers (HeapRequest.plan c) c.emptyHeap rs).1 := by
  obtain ⟨hout, hI⟩ := (HeapInv.init c h).run_plan hr
  exact ⟨hout, hI.tiled.blocks_eq⟩

/-- After one allocation of each kind, the heap has the blocks of the pure allocator. -/
theorem heap_is_first_fit_requestTrace : ∃ s,
    Run (fun s r => HeapRequest.Allowed HeapConfig.cortexM s r) (requestStep HeapConfig.cortexM)
      (HeapSys.init HeapConfig.cortexM Heap.unset) requestTrace s ∧
    s.live.length = 3 ∧ s.heap.blocks HeapConfig.cortexM = some (answers
      (HeapRequest.plan HeapConfig.cortexM) HeapConfig.cortexM.emptyHeap requestTrace).1 := by
  obtain ⟨s, hr, hlen⟩ := exists_run_of_exec (fun s r => HeapRequest.Allowed HeapConfig.cortexM s r)
    (requestStep HeapConfig.cortexM) (HeapSys.init HeapConfig.cortexM Heap.unset) requestTrace
    (fun s => s.live.length = 3) (by decide +kernel)
  exact ⟨s, hr, hlen, (heap_is_first_fit hr).2⟩

/-! ## Two heaps -/

/-- A block in use, by its pointer and its size. -/
theorem HeapInv.used_iff (hI : HeapInv c s bs) (hb : b.used = true) :
    b ∈ bs ↔ b.data c.header ∈ s.live ∧ s.heap.usableSize c (b.data c.header) = b.size := by
  constructor
  · intro hmem
    exact ⟨(hI.live _).mpr ⟨b, hmem, hb, rfl⟩, hI.tiled.usableSize_data hmem⟩
  · rintro ⟨hlive, hsize⟩
    obtain ⟨d, hd, hdu, hdata⟩ := (hI.live _).mp hlive
    rw [← hdata, hI.tiled.usableSize_data hd] at hsize
    obtain rfl : d = b := by
      have haddr : d.addr = b.addr := Nat.add_right_cancel hdata
      cases d
      cases b
      simp_all
    exact hd

/-- **The blocks are determined by the live allocations.** -/
theorem HeapInv.blocks_eq_of_live {bs₁ bs₂ : List Block} (h₁ : HeapInv c s₁ bs₁)
    (h₂ : HeapInv c s₂ bs₂) (hlive : ∀ p, p ∈ s₁.live ↔ p ∈ s₂.live)
    (hsize : ∀ p ∈ s₁.live, s₁.heap.usableSize c p = s₂.heap.usableSize c p) : bs₁ = bs₂ := by
  refine h₁.tiled.tiles.eq_of_used c.header_pos h₂.tiled.tiles h₁.coalesced h₂.coalesced fun b hb => ?_
  rw [h₁.used_iff hb, h₂.used_iff hb, ← hlive]
  refine and_congr_right fun hp => ?_
  rw [hsize _ hp]

/-- What a caller may do depends on the blocks only. -/
theorem HeapInv.allowed_congr (h₁ : HeapInv c s₁ bs) (h₂ : HeapInv c s₂ bs) {r : HeapRequest}
    (hr : r.Allowed c s₁) : r.Allowed c s₂ := by
  have hlive : ∀ p, p ∈ s₁.live → p ∈ s₂.live := fun p hp => (h₂.live p).mpr ((h₁.live p).mp hp)
  cases r with
  | call op =>
      cases op with
      | alloc n => trivial
      | free ptr => exact fun p hp => hlive p (hr p hp)
      | realloc ptr n => exact fun p hp => hlive p (hr p hp)
      | write p off bytes =>
          obtain ⟨hp, hoff⟩ := hr
          obtain ⟨b, hb, hu, rfl⟩ := (h₁.live p).mp hp
          have hsame : s₂.heap.usableSize c (b.data c.header)
              = s₁.heap.usableSize c (b.data c.header) := by
            rw [h₁.tiled.usableSize_data hb, h₂.tiled.usableSize_data hb]
          exact ⟨hlive _ hp, Nat.le_trans hoff (Nat.le_of_eq hsame.symm)⟩
  | calloc count size =>
      refine hr.imp id fun hno hroom => hno ?_
      exact h₁.hasRoom_iff.mpr (h₂.hasRoom_iff.mp hroom)

/-- A run on one heap is a run on every other one with the same blocks. -/
theorem HeapInv.run_congr {rs : List HeapRequest} {s₁' : HeapSys} (h₁ : HeapInv c s₁ bs)
    (h₂ : HeapInv c s₂ bs) (hr : Run (fun s r => r.Allowed c s) (requestStep c) s₁ rs s₁') :
    ∃ s₂', Run (fun s r => r.Allowed c s) (requestStep c) s₂ rs s₂' := by
  induction hr generalizing s₂ bs with
  | nil s => exact ⟨s₂, .nil s₂⟩
  | cons hop hs hr ih =>
      next s s' s'' r rs =>
      have hop₂ := h₁.allowed_congr h₂ hop
      obtain ⟨t, heq, hI₁⟩ := h₁.request_plan hop
      obtain ⟨t₂, heq₂, hI₂⟩ := h₂.request_plan hop₂
      obtain ⟨x, hx, hxt⟩ := Option.map_eq_some_iff.mp heq
      obtain ⟨x₂, hx₂, hxt₂⟩ := Option.map_eq_some_iff.mp heq₂
      obtain rfl : x = t := congrArg Prod.fst hxt
      obtain rfl : x₂ = t₂ := congrArg Prod.fst hxt₂
      obtain rfl := Option.some.inj (hx.symm.trans hs)
      obtain ⟨s₂', hr₂⟩ := ih hI₁ hI₂
      exact ⟨s₂', .cons hop₂ hx₂ hr₂⟩

/-- **The heap does not remember how it came to its live allocations.** Two heaps were initialised and
used in any two ways, and the same allocations, of the same sizes, are live in both of them now. Then they
have the same block list, and every further sequence of permitted requests returns the same pointers and
leaves the same block list in both. -/
theorem heap_forgets {h₁ h₂ : Heap} {rs₁ rs₂ : List HeapRequest}
    (hr₁ : Run (fun s r => r.Allowed c s) (requestStep c) (HeapSys.init c h₁) rs₁ s₁)
    (hr₂ : Run (fun s r => r.Allowed c s) (requestStep c) (HeapSys.init c h₂) rs₂ s₂)
    (hlive : ∀ p, p ∈ s₁.live ↔ p ∈ s₂.live)
    (hsize : ∀ p ∈ s₁.live, s₁.heap.usableSize c p = s₂.heap.usableSize c p) :
    s₁.heap.blocks c = s₂.heap.blocks c ∧
      ∀ (rs : List HeapRequest) (s₁' : HeapSys),
        Run (fun s r => r.Allowed c s) (requestStep c) s₁ rs s₁' →
          ∃ s₂' as, Run (fun s r => r.Allowed c s) (requestStep c) s₂ rs s₂' ∧
            outputs (answerStep c) s₁ rs = some (s₁', as) ∧
            outputs (answerStep c) s₂ rs = some (s₂', as) ∧
            s₁'.heap.blocks c = s₂'.heap.blocks c := by
  obtain ⟨bs₁, hI₁⟩ := heapInv_of_requests hr₁
  obtain ⟨bs₂, hI₂⟩ := heapInv_of_requests hr₂
  obtain rfl := hI₁.blocks_eq_of_live hI₂ hlive hsize
  refine ⟨hI₁.tiled.blocks_eq.trans hI₂.tiled.blocks_eq.symm, fun rs s₁' hr => ?_⟩
  obtain ⟨s₂', hr'⟩ := hI₁.run_congr hI₂ hr
  obtain ⟨hout₁, hI₁'⟩ := hI₁.run_plan hr
  obtain ⟨hout₂, hI₂'⟩ := hI₂.run_plan hr'
  exact ⟨s₂', _, hr', hout₁, hout₂, hI₁'.tiled.blocks_eq.trans hI₂'.tiled.blocks_eq.symm⟩

/-- A block of 48 bytes between two others is freed. -/
def oneHoleTrace : List HeapRequest :=
  [.call (.alloc 24), .call (.alloc 48), .call (.alloc 8), .call (.free (some 0x20000430))]

/-- Three blocks in the same place are freed one after the other. -/
def threeHolesTrace : List HeapRequest :=
  [.call (.alloc 24), .call (.alloc 8), .call (.alloc 8), .call (.alloc 8), .call (.alloc 8),
    .call (.free (some 0x20000444)), .call (.free (some 0x20000430)), .call (.free (some 0x20000458))]

/-- Whether one hole was made or three that merged, the heap answers the next requests alike. -/
theorem heap_forgets_threeHolesTrace : ∃ s₁ s₂,
    Run (fun s r => HeapRequest.Allowed HeapConfig.cortexM s r) (requestStep HeapConfig.cortexM)
      (HeapSys.init HeapConfig.cortexM Heap.unset) oneHoleTrace s₁ ∧
    Run (fun s r => HeapRequest.Allowed HeapConfig.cortexM s r) (requestStep HeapConfig.cortexM)
      (HeapSys.init HeapConfig.cortexM Heap.unset) threeHolesTrace s₂ ∧
    s₁.live = [0x2000046C, 0x2000040C] ∧
    s₁.heap.blocks HeapConfig.cortexM = s₂.heap.blocks HeapConfig.cortexM := by
  obtain ⟨s₁, hr₁, hlive₁, hsize₁⟩ := exists_run_of_exec
    (fun s r => HeapRequest.Allowed HeapConfig.cortexM s r) (requestStep HeapConfig.cortexM)
    (HeapSys.init HeapConfig.cortexM Heap.unset) oneHoleTrace
    (fun s => s.live = [0x2000046C, 0x2000040C] ∧
      s.live.map (s.heap.usableSize HeapConfig.cortexM) = [8, 24]) (by decide +kernel)
  obtain ⟨s₂, hr₂, hlive₂, hsize₂⟩ := exists_run_of_exec
    (fun s r => HeapRequest.Allowed HeapConfig.cortexM s r) (requestStep HeapConfig.cortexM)
    (HeapSys.init HeapConfig.cortexM Heap.unset) threeHolesTrace
    (fun s => s.live = [0x2000046C, 0x2000040C] ∧
      s.live.map (s.heap.usableSize HeapConfig.cortexM) = [8, 24]) (by decide +kernel)
  refine ⟨s₁, s₂, hr₁, hr₂, hlive₁, (heap_forgets hr₁ hr₂ (fun p => ?_) fun p hp => ?_).1⟩
  · rw [hlive₁, hlive₂]
  · rw [hlive₁] at hp hsize₁
    rw [hlive₂, ← hsize₁] at hsize₂
    exact (List.map_inj_left.mp hsize₂ p hp).symm

/-! ## Room -/

/-- The bytes of the live allocations. -/
def HeapSys.liveBytes (c : HeapConfig) (s : HeapSys) : Nat :=
  (s.live.map (s.heap.usableSize c)).sum

/-- The live allocations are the used blocks. -/
theorem HeapInv.live_perm (hI : HeapInv c s bs) :
    s.live.Perm ((bs.filter Block.used).map (Block.data c.header)) := by
  have hnodup : ((bs.filter Block.used).map (Block.data c.header)).Nodup := by
    have hsorted := (hI.tiled.tiles.sorted c.header_pos).imp Nat.ne_of_lt
    have hmap : (bs.map (Block.data c.header)).Nodup :=
      List.pairwise_map.mpr ((List.pairwise_map.mp hsorted).imp fun hne heq =>
        hne (Nat.add_right_cancel heq))
    exact hmap.sublist (List.filter_sublist.map _)
  refine (List.perm_ext_iff_of_nodup hI.nodup hnodup).mpr fun p => ?_
  rw [hI.live, List.mem_map]
  constructor
  · rintro ⟨b, hb, hu, rfl⟩
    exact ⟨b, List.mem_filter.mpr ⟨hb, hu⟩, rfl⟩
  · rintro ⟨b, hb, rfl⟩
    obtain ⟨hb, hu⟩ := List.mem_filter.mp hb
    exact ⟨b, hb, hu, rfl⟩

/-- There are as many live allocations as used blocks. -/
theorem HeapInv.length_live (hI : HeapInv c s bs) : s.live.length = usedCount bs := by
  rw [hI.live_perm.length_eq, List.length_map, usedCount, List.countP_eq_length_filter]

/-- They have the bytes of the used blocks. -/
theorem HeapInv.liveBytes_eq (hI : HeapInv c s bs) : s.liveBytes c = usedBytes bs := by
  rw [HeapSys.liveBytes, (hI.live_perm.map _).sum_eq, List.map_map, usedBytes]
  refine congrArg List.sum (List.map_congr_left fun b hb => ?_)
  exact hI.tiled.usableSize_data (List.mem_of_mem_filter hb)

/-- **Requests that are served whatever happened before.** After any sequence of permitted requests, with
`k` live allocations, `os_heap_alloc` serves `n` bytes when the heap is larger than the live allocations
with their headers and `k + 1` free blocks that are all one byte too small. -/
theorem heap_serves {rs : List HeapRequest}
    (hr : Run (fun s r => r.Allowed c s) (requestStep c) (HeapSys.init c h) rs s) (hn : n ≠ 0)
    (hle : n ≤ 2 ^ 32 - 8)
    (hroom : s.liveBytes c + c.header * s.live.length
      + (s.live.length + 1) * (c.header + alignUp 4 n - 1) < heapSize) :
    ∃ h' q, osHeapAlloc c s.heap n = some (h', some q) ∧ q ∉ s.live ∧ n ≤ h'.usableSize c q := by
  obtain ⟨bs, hI⟩ := heapInv_of_requests hr
  have hup := le_alignUp hle
  rw [hI.length_live, hI.liveBytes_eq] at hroom
  obtain ⟨b, hb, hu, hfit⟩ := hI.coalesced.exists_fit hI.tiled.tiles (n := alignUp 4 n) (by omega)
    (by omega)
  obtain ⟨h', p, bs', heq, hI', -, -, hnone, -, hnew⟩ := hI.alloc n
  cases p with
  | none =>
      rcases (hnone rfl).2.2 with hz | hsmall
      · exact absurd hz hn
      · rcases hsmall b hb with hused | hlt
        · rw [hu] at hused
          cases hused
        · omega
  | some q =>
      obtain ⟨hq, d, hd, -, rfl, hsize⟩ := hnew q rfl
      refine ⟨h', _, heq, hq, ?_⟩
      rw [hI'.tiled.usableSize_data hd]
      omega

/-- With two live allocations and a hole, 3000 bytes are served. -/
theorem heap_serves_oneHoleTrace : ∃ s,
    Run (fun s r => HeapRequest.Allowed HeapConfig.cortexM s r) (requestStep HeapConfig.cortexM)
      (HeapSys.init HeapConfig.cortexM Heap.unset) oneHoleTrace s ∧ s.live.length = 2 ∧
    ∃ h' q, osHeapAlloc HeapConfig.cortexM s.heap 3000 = some (h', some q) := by
  obtain ⟨s, hr, hlen, hroom⟩ := exists_run_of_exec
    (fun s r => HeapRequest.Allowed HeapConfig.cortexM s r) (requestStep HeapConfig.cortexM)
    (HeapSys.init HeapConfig.cortexM Heap.unset) oneHoleTrace
    (fun s => s.live.length = 2 ∧ s.liveBytes HeapConfig.cortexM
      + HeapConfig.cortexM.header * s.live.length
      + (s.live.length + 1) * (HeapConfig.cortexM.header + alignUp 4 3000 - 1) < heapSize)
    (by decide +kernel)
  obtain ⟨h', q, heq, -⟩ := heap_serves hr (by decide) (by decide) hroom
  exact ⟨s, hr, hlen, h', q, heq⟩

end MiniRTOS
