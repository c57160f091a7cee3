import Mathlib.Data.Set.BooleanAlgebra
import Mathlib.Order.CompletePartialOrder
import Mathlib.Order.Interval.Set.Basic
import MiniRTOS.Kernel.HeapInv

/-! # Structure and isolation of the heap

The invariant of a heap in use: the headers show a tiling of the heap without two free neighbours,
and the used blocks are exactly the live allocations. Every permitted call returns and keeps it, and
leaves the bytes of all other live allocations alone. -/

namespace MiniRTOS

open ByteMemory PtrList Runs Tiling Heap

variable {c : HeapConfig} {h h' : Heap} {s s' : HeapSys} {bs bs' l r : List Block} {b : Block}

/-! ## Data areas -/

/-- Headers whose bytes do not change show the same blocks. -/
theorem Heap.Tiled.congr (ht : Tiled c h bs) (hpx : h'.pxBlockList = h.pxBlockList)
    (hmem : ∀ b ∈ bs, ∀ x, b.addr ≤ x → x < b.addr + c.header → h'.mem x = h.mem x) :
    Tiled c h' bs := by
  refine ⟨ht.leads.congr hpx fun x hx => ?_, fun b hb => ?_, ht.tiles⟩
  · obtain ⟨b, hb, rfl⟩ := List.mem_map.mp hx
    exact next_congr (hmem b hb)
  · rw [sizeWord_congr (hmem b hb), ht.word b hb]

/-- The data of a block holds no header. -/
theorem Heap.Tiled.data_apart (ht : Tiled c h bs) (hb : b ∈ bs) {d : Block} (hd : d ∈ bs) {x : Nat}
    (hx : b.data c.header ≤ x) (hx' : x < b.finish c.header) :
    x < d.addr ∨ d.addr + c.header ≤ x := by
  rw [Block.data] at hx
  by_cases hbd : b = d
  · subst hbd
    exact Or.inr hx
  · rcases ht.tiles.apart hb hd hbd with hle | hle
    · omega
    · rw [Block.finish] at hle
      omega

/-- Writing into the data of a block keeps the list. -/
theorem Heap.Tiled.write {off : Nat} {bytes : List UInt8} (ht : Tiled c h bs) (hb : b ∈ bs)
    (hoff : off + bytes.length ≤ b.size) :
    Tiled c { h with mem := writeBytes h.mem (b.data c.header + off) bytes } bs := by
  refine ht.congr rfl fun d hd x hx hx' => writeBytes_of_not_mem _ ?_
  by_contra hin
  have hx₁ : b.data c.header ≤ x := by omega
  have hx₂ : x < b.finish c.header := by
    simp only [Block.data, Block.finish] at hin ⊢
    omega
  have := ht.data_apart hb hd hx₁ hx₂
  omega

/-- **The used blocks other than `q` stay**, with their bytes. -/
def KeepsData (c : HeapConfig) (q : Option Nat) (h : Heap) (bs : List Block) (h' : Heap)
    (bs' : List Block) : Prop :=
  ∀ b ∈ bs, b.used = true → some (b.data c.header) ≠ q →
    b ∈ bs' ∧ ∀ x, b.data c.header ≤ x → x < b.finish c.header → h'.mem x = h.mem x

/-- A memory that stays keeps all data. -/
theorem KeepsData.refl (q : Option Nat) (hmem : h'.mem = h.mem) : KeepsData c q h bs h' bs :=
  fun _ hb _ _ => ⟨hb, fun _ _ _ => by rw [hmem]⟩

/-- What keeps all data keeps the data of the others. -/
theorem KeepsData.mono {q : Option Nat} (hk : KeepsData c none h bs h' bs') :
    KeepsData c q h bs h' bs' := fun b hb hu _ => hk b hb hu (by simp)

/-! ## The invariant -/

/-- **The heap invariant**, with the list of blocks. -/
structure HeapInv (c : HeapConfig) (s : HeapSys) (bs : List Block) : Prop where
  /-- `os_heap_init` was called. -/
  initialized : s.heap.heapInitialized = true
  /-- The headers show the blocks, which tile the heap. -/
  tiled : Tiled c s.heap bs
  /-- No two neighbours are free. -/
  coalesced : Coalesced bs
  /-- No allocation was handed out twice. -/
  nodup : s.live.Nodup
  /-- The used blocks are the live allocations. -/
  live : ∀ p, p ∈ s.live ↔ ∃ b ∈ bs, b.used = true ∧ b.data c.header = p

/-- A block is found by its data pointer. -/
theorem Heap.Tiled.eq_of_data (ht : Tiled c h bs) {d : Block} (hb : b ∈ bs) (hd : d ∈ bs)
    (heq : b.data c.header = d.data c.header) : b = d :=
  ht.tiles.eq_of_addr (Nat.lt_of_lt_of_le (by decide) c.header_ge) hb hd
    (Nat.add_right_cancel heq)

/-! ## Calls -/

/-- What `os_heap_alloc` does to the counters. -/
def Charged (h : Heap) (bs : List Block) (h' : Heap) (bs' : List Block) : Prop :=
  (bs' = bs ∧ h'.freeBytesRemaining = h.freeBytesRemaining ∧
    h'.minFreeBytesEver = h.minFreeBytesEver) ∨
  ∃ k, freeBytes bs' + k = freeBytes bs ∧
    h'.freeBytesRemaining = (h.charge k).freeBytesRemaining ∧
    h'.minFreeBytesEver = (h.charge k).minFreeBytesEver

/-- **`os_heap_alloc` keeps the invariant.** A pointer it returns is new, and its block is as large
as the aligned request; it returns none when no free block is that large. -/
theorem HeapInv.alloc (hI : HeapInv c s bs) (n : Nat) :
    ∃ h' p bs', osHeapAlloc c s.heap n = some (h', p) ∧ HeapInv c ⟨h', p.toList ++ s.live⟩ bs' ∧
      KeepsData c none s.heap bs h' bs' ∧ Charged s.heap bs h' bs' ∧
      (p = none → h'.mem = s.heap.mem ∧ bs' = bs ∧
        (n = 0 ∨ ∀ b ∈ bs, b.used = true ∨ b.size < alignUp 4 n)) ∧
      (p ≠ none → n ≠ 0 ∧ ∃ b ∈ bs, b.used = false ∧ alignUp 4 n ≤ b.size) ∧
      ∀ q ∈ p, q ∉ s.live ∧ ∃ b ∈ bs', b.used = true ∧ b.data c.header = q ∧ alignUp 4 n ≤ b.size := by
  rcases hI.tiled.osHeapAlloc hI.initialized n with
    ⟨h', heq, hmem, hpx, hfree, hmin, hinit, hsmall⟩ |
    ⟨h', l, b, r, hz, heq, rfl, hb, hn, -, ht', hstats, hframe⟩
  · -- no block is large enough: nothing is written
    have ht' : Tiled c h' bs := hI.tiled.congr hpx fun _ _ _ _ _ => by rw [hmem]
    exact ⟨h', none, bs, heq, ⟨hinit, ht', hI.coalesced, hI.nodup, hI.live⟩,
      KeepsData.refl _ hmem, Or.inl ⟨rfl, hfree, hmin⟩, fun _ => ⟨hmem, rfl, hsmall⟩, by simp,
      by simp⟩
  · -- the first fit `b` is taken, and split when what is left over can hold a header and a unit
    set n' := alignUp 4 n with hn'
    set f := b.front (if n' + c.header + heapAlignment ≤ b.size then n' else b.size) with hf
    have hfmem : f ∈ take c.header heapAlignment n' l b r := (mem_take_used hb rfl).mpr (Or.inr rfl)
    have hbmem : b ∈ l ++ b :: r := by simp
    have hnew : b.data c.header ∉ s.live := fun hlive => by
      obtain ⟨d, hd, hdu, hdata⟩ := (hI.live _).mp hlive
      rw [hI.tiled.eq_of_data hd hbmem hdata, hb] at hdu
      cases hdu
    have hinit : h'.heapInitialized = true := by
      rw [hstats]
      exact hI.initialized
    refine ⟨h', some (b.data c.header), _, heq, ⟨hinit, ht', hI.coalesced.take hb,
      List.nodup_cons.mpr ⟨hnew, hI.nodup⟩, fun p => ?_⟩, fun d hd hdu _ => ?_, Or.inr
      ⟨_, freeBytes_take hb, by rw [hstats], by rw [hstats]⟩, by simp,
      fun _ => ⟨hz, b, hbmem, hb, hn⟩, fun q hq => ?_⟩
    · -- A live pointer is the new one or was live before.
      rw [Option.toList_some, List.cons_append, List.nil_append, List.mem_cons, hI.live]
      constructor
      · rintro (rfl | ⟨d, hd, hdu, rfl⟩)
        · exact ⟨f, hfmem, rfl, rfl⟩
        · exact ⟨d, (mem_take_used hb hdu).mpr (Or.inl hd), hdu, rfl⟩
      · rintro ⟨d, hd, hdu, rfl⟩
        rcases (mem_take_used hb hdu).mp hd with hd | rfl
        · exact Or.inr ⟨d, hd, hdu, rfl⟩
        · exact Or.inl rfl
    · refine ⟨(mem_take_used hb hdu).mpr (Or.inl hd), fun x hx hx' => hframe x ?_⟩
      have hne : d ≠ b := fun hdb => by simp [hdb, hb] at hdu
      simp only [Block.data] at hx
      rcases hI.tiled.tiles.apart hd hbmem hne with hle | hle
      · omega
      · omega
    · obtain rfl := Option.some.inj hq
      refine ⟨hnew, f, hfmem, rfl, rfl, ?_⟩
      show n' ≤ if n' + c.header + heapAlignment ≤ b.size then n' else b.size
      split
      · exact Nat.le_refl _
      · exact hn

/-- What `os_heap_free` does to the list and the counters. -/
def Refunded (c : HeapConfig) (p : Nat) (h : Heap) (bs : List Block) (h' : Heap)
    (bs' : List Block) : Prop :=
  ∃ l b r, bs = l ++ b :: r ∧ b.data c.header = p ∧ b.used = true ∧ bs' = release c.header l b r ∧
    h'.freeBytesRemaining = h.freeBytesRemaining + BitVec.ofNat 32 b.size ∧
    h'.minFreeBytesEver = h.minFreeBytesEver

/-- **`os_heap_free` of a live allocation keeps the invariant.** -/
theorem HeapInv.free (hI : HeapInv c s bs) {p : Nat} (hp : p ∈ s.live) :
    ∃ h' bs', osHeapFree c s.heap (some p) = some h' ∧ HeapInv c ⟨h', s.live.erase p⟩ bs' ∧
      KeepsData c (some p) s.heap bs h' bs' ∧ Refunded c p s.heap bs h' bs' := by
  -- the pointer is live, so it is the data of a used block of the tiling
  obtain ⟨b, hb, hu, rfl⟩ := (hI.live p).mp hp
  obtain ⟨l, r, rfl⟩ := List.append_of_mem hb
  obtain ⟨h', heq, ht', hstats, htouch⟩ := hI.tiled.osHeapFree hI.initialized hu
  have hinit : h'.heapInitialized = true := by
    rw [hstats]
    exact hI.initialized
  have hmem : ∀ d ∈ l ++ b :: r, d.used = true → d ≠ b → d ∈ release c.header l b r := by
    intro d hd hdu hdb
    refine (mem_release_used hdu).mpr ?_
    simpa [hdb] using hd
  refine ⟨h', _, heq, ⟨hinit, ht', hI.coalesced.release hu, hI.nodup.erase _, fun p => ?_⟩,
    fun d hd hdu hne => ⟨hmem d hd hdu fun hdb => hne (by rw [hdb]), fun x hx hx' => ?_⟩,
    l, b, r, rfl, rfl, hu, rfl, by rw [hstats], by rw [hstats]⟩
  · rw [hI.nodup.mem_erase_iff, hI.live]
    constructor
    · rintro ⟨hpb, d, hd, hdu, rfl⟩
      exact ⟨d, hmem d hd hdu fun hdb => hpb (by rw [hdb]), hdu, rfl⟩
    · rintro ⟨d, hd, hdu, rfl⟩
      have hd' : d ∈ l ++ r := (mem_release_used hdu).mp hd
      have hdmem : d ∈ l ++ b :: r := by
        rcases List.mem_append.mp hd' with hd' | hd' <;> simp [hd']
      refine ⟨fun heq => ?_, d, hdmem, hdu, rfl⟩
      -- The addresses of a tiling are distinct, so `b` occurs only once.
      obtain rfl := hI.tiled.eq_of_data hdmem hb heq
      have hnd := (hI.tiled.tiles.sorted (Nat.lt_of_lt_of_le (by decide) c.header_ge)).imp Nat.ne_of_lt
      have hnd' : (l ++ d :: r).Nodup := List.Nodup.of_map _ hnd
      rw [List.nodup_middle, List.nodup_cons] at hnd'
      exact hnd'.1 hd'
  · refine htouch x fun a ha => ?_
    obtain ⟨e, he, rfl⟩ := List.mem_map.mp ha
    exact hI.tiled.data_apart hd he hx hx'

/-- **Writing into a live allocation keeps the invariant.** -/
theorem HeapInv.write (hI : HeapInv c s bs) {p off : Nat} {bytes : List UInt8} (hp : p ∈ s.live)
    (hoff : off + bytes.length ≤ prvBlockGetSize c s.heap.mem (p - c.header)) :
    HeapInv c ⟨{ s.heap with mem := writeBytes s.heap.mem (p + off) bytes }, s.live⟩ bs ∧
      KeepsData c (some p) s.heap bs
        { s.heap with mem := writeBytes s.heap.mem (p + off) bytes } bs := by
  obtain ⟨b, hb, hu, rfl⟩ := (hI.live p).mp hp
  have hblock : b.data c.header - c.header = b.addr := Nat.add_sub_cancel ..
  rw [hblock, hI.tiled.getSize hb] at hoff
  refine ⟨⟨hI.initialized, hI.tiled.write hb hoff, hI.coalesced, hI.nodup, hI.live⟩,
    fun d hd _ hne => ⟨hd, fun x hx hx' => writeBytes_of_not_mem _ ?_⟩⟩
  have hdb : d ≠ b := fun hdb => hne (by rw [hdb])
  simp only [Block.data] at hx ⊢
  rcases hI.tiled.tiles.apart hd hb hdb with hle | hle
  · omega
  · rw [Block.finish] at hle
    omega

/-- Aligning twice is aligning once. -/
theorem alignUp_alignUp (n : Nat) : alignUp 4 (alignUp 4 n) = alignUp 4 n := by
  simp only [alignUp, heapAlignment]
  omega

/-- **A growing `os_heap_realloc`** either finds no room and changes nothing, or is an allocation, a
copy into the new block and a free. -/
theorem HeapInv.grow (hI : HeapInv c s bs) {p n : Nat} (hp : p ∈ s.live) (hn : n ≠ 0)
    (hgrow : prvBlockGetSize c s.heap.mem (p - c.header) < alignUp 4 n) :
    (∃ h', osHeapAlloc c s.heap (alignUp 4 n) = some (h', none) ∧
      osHeapRealloc c s.heap (some p) n = some (h', none) ∧ HeapInv c ⟨h', s.live⟩ bs ∧
      KeepsData c none s.heap bs h' bs ∧ Charged s.heap bs h' bs) ∨
    ∃ h₁ q bs₁ h' bs', osHeapAlloc c s.heap (alignUp 4 n) = some (h₁, some q) ∧
      osHeapRealloc c s.heap (some p) n = some (h', some q) ∧ Charged s.heap bs h₁ bs₁ ∧
      Tiled c h₁ bs₁ ∧ HeapInv c ⟨h', q :: s.live.erase p⟩ bs' ∧
      KeepsData c (some p) s.heap bs h' bs' ∧ Refunded c p h₁ bs₁ h' bs' ∧
      (∃ b ∈ bs, b.used = false ∧ alignUp 4 n ≤ b.size) ∧
      (∃ b ∈ bs', b.data c.header = q ∧ alignUp 4 n ≤ b.size) ∧
      readBytes h'.mem q (prvBlockGetSize c s.heap.mem (p - c.header))
        = readBytes s.heap.mem p (prvBlockGetSize c s.heap.mem (p - c.header)) := by
  have hfail : ∀ h', osHeapAlloc c s.heap (alignUp 4 n) = some (h', none) →
      osHeapRealloc c s.heap (some p) n = some (h', none) := by
    intro h' heq
    rw [osHeapRealloc, if_neg hn]
    dsimp only
    rw [if_neg (Nat.not_le_of_lt hgrow), heq]
    rfl
  have hmove : ∀ h' q, osHeapAlloc c s.heap (alignUp 4 n) = some (h', some q) →
      osHeapRealloc c s.heap (some p) n
        = (osHeapFree c (h'.memcpy q p (prvBlockGetSize c s.heap.mem (p - c.header)))
            (some p)).map fun h => (h, some q) := by
    intro h' q heq
    rw [osHeapRealloc, if_neg hn]
    dsimp only
    rw [if_neg (Nat.not_le_of_lt hgrow), heq]
    rfl
  obtain ⟨h₁, q, bs₁, heq, hI₁, hkeep, hcharge, hnone, hroom, hnew⟩ := hI.alloc (alignUp 4 n)
  cases q with
  | none =>
      obtain ⟨-, rfl, -⟩ := hnone rfl
      exact Or.inl ⟨h₁, heq, hfail h₁ heq, hI₁, hkeep, hcharge⟩
  | some q =>
      rw [heq, hmove h₁ q heq]
      right
      obtain ⟨hq, b, hb, hu, rfl, hsize⟩ := hnew q rfl
      obtain ⟨-, hfit⟩ := hroom (by simp)
      rw [alignUp_alignUp] at hsize hfit
      set old := prvBlockGetSize c s.heap.mem (p - c.header) with hold
      have hblock : b.data c.header - c.header = b.addr := Nat.add_sub_cancel ..
      -- The copy is a write into the new allocation.
      have hcopy : 0 + (readBytes h₁.mem p old).length
          ≤ prvBlockGetSize c h₁.mem (b.data c.header - c.header) := by
        rw [hblock, hI₁.tiled.getSize hb, length_readBytes]
        omega
      obtain ⟨hI₂, hkeep₂⟩ := hI₁.write (by simp) hcopy
      obtain ⟨h', bs', hfree, hI', hkeep', hrefund⟩ := hI₂.free (p := p) (by simp [hp])
      have hpq : b.data c.header ≠ p := fun h => hq (h ▸ hp)
      have hb' : b ∈ bs' := (hkeep' b hb hu fun h => hpq (Option.some.inj h)).1
      refine ⟨h₁, b.data c.header, bs₁, h', bs', rfl, ?_, hcharge, hI₁.tiled, ?_, ?_, ?_, hfit,
        ⟨b, hb', rfl, hsize⟩, ?_⟩
      · show (osHeapFree c (h₁.memcpy _ _ _) _).map _ = _
        rw [Heap.memcpy]
        rw [Nat.add_zero] at hfree
        rw [hfree]
        rfl
      · rwa [Option.toList_some, List.cons_append, List.nil_append, List.erase_cons_tail
          (by simpa using hpq)] at hI'
      · -- An old block is neither the new one nor, unless it is `p`, the freed one.
        intro d hd hdu hne
        obtain ⟨hd₁, hm₁⟩ := hkeep d hd hdu (by simp)
        have hdb : some (d.data c.header) ≠ some (b.data c.header) := fun h =>
          hq ((hI.live _).mpr ⟨d, hd, hdu, Option.some.inj h⟩)
        obtain ⟨hd₂, hm₂⟩ := hkeep₂ d hd₁ hdu hdb
        obtain ⟨hd', hm'⟩ := hkeep' d hd₂ hdu hne
        exact ⟨hd', fun x hx hx' => (hm' x hx hx').trans ((hm₂ x hx hx').trans (hm₁ x hx hx'))⟩
      · obtain ⟨l, d, r, hbs, hdata, hdu, hbs', hfb, hmin⟩ := hrefund
        exact ⟨l, d, r, hbs, hdata, hdu, hbs', hfb, hmin⟩
      · -- Neither the allocation nor the free touches the bytes that are copied.
        obtain ⟨d, hd, hdu, rfl⟩ := (hI.live p).mp hp
        have hdold : d.addr + c.header + old = d.finish c.header := by
          have hdblock : d.data c.header - c.header = d.addr := Nat.add_sub_cancel ..
          rw [hold, hdblock, hI.tiled.getSize hd]
          rfl
        have hkept : readBytes h₁.mem (d.data c.header) old
            = readBytes s.heap.mem (d.data c.header) old := by
          apply readBytes_congr
          intro x hx hx'
          exact (hkeep d hd hdu (by simp)).2 x hx (by rw [Block.data] at hx'; omega)
        have hdone : readBytes h'.mem (b.data c.header) old
            = readBytes (writeBytes h₁.mem (b.data c.header + 0)
                (readBytes h₁.mem (d.data c.header) old)) (b.data c.header) old := by
          apply readBytes_congr
          intro x hx hx'
          refine (hkeep' b hb hu fun h => hpq (Option.some.inj h)).2 x hx ?_
          simp only [Block.data, Block.finish] at hx' ⊢
          omega
        rw [hdone, Nat.add_zero, ← hkept]
        have hself := readBytes_writeBytes_self h₁.mem (b.data c.header)
          (readBytes h₁.mem (d.data c.header) old)
        rwa [length_readBytes] at hself

/-! ## Runs -/

/-- The allocation a call is about, whose bytes it may change. -/
def HeapOp.target : HeapOp → Option Nat
  | .alloc _ => none
  | .free ptr => ptr
  | .realloc ptr _ => ptr
  | .write ptr _ _ => some ptr

/-- The call of `os_heap_free` that a call makes: the heap it is made on and its argument. A growing
`os_heap_realloc` makes it after an allocation that succeeded. -/
def HeapOp.innerFree (c : HeapConfig) (h : Heap) : HeapOp → Option (Heap × Nat)
  | .free ptr => ptr.map fun p => (h, p)
  | .realloc (some p) n =>
      if n = 0 then some (h, p)
      else if alignUp 4 n ≤ prvBlockGetSize c h.mem (p - c.header) then none
      else
        match osHeapAlloc c h (alignUp 4 n) with
        | some (h₁, some _) => some (h₁, p)
        | _ => none
  | _ => none

/-- What a call does to the list and the counters: it may allocate, and then free. -/
def Accounts (c : HeapConfig) (op : HeapOp) (h : Heap) (bs : List Block) (h' : Heap)
    (bs' : List Block) : Prop :=
  match op.innerFree c h with
  | none => Charged h bs h' bs'
  | some (h₁, p) => ∃ bs₁, Charged h bs h₁ bs₁ ∧ Tiled c h₁ bs₁ ∧ Refunded c p h₁ bs₁ h' bs'

/-- Nothing is charged at first. -/
theorem Charged.refl (h : Heap) (bs : List Block) : Charged h bs h bs := Or.inl ⟨rfl, rfl, rfl⟩

/-- **Every permitted call returns**, keeps the invariant and leaves the bytes of all other live
allocations alone. -/
theorem HeapInv.step (hI : HeapInv c s bs) {op : HeapOp} (hop : op.Allowed c s) :
    ∃ s' bs', heapStep c s op = some s' ∧ HeapInv c s' bs' ∧
      KeepsData c op.target s.heap bs s'.heap bs' ∧ Accounts c op s.heap bs s'.heap bs' := by
  cases op with
  | alloc n =>
      obtain ⟨h', p, bs', heq, hI', hkeep, hcharge, -⟩ := hI.alloc n
      refine ⟨_, bs', ?_, hI', hkeep, hcharge⟩
      rw [heapStep, heq]
      rfl
  | free ptr =>
      cases ptr with
      | none => exact ⟨s, bs, rfl, hI, KeepsData.refl _ rfl, Charged.refl _ _⟩
      | some p =>
          obtain ⟨h', bs', heq, hI', hkeep, hrefund⟩ := hI.free (hop p rfl)
          refine ⟨_, bs', ?_, hI', hkeep, bs, Charged.refl _ _, hI.tiled, hrefund⟩
          rw [heapStep, heq]
          rfl
  | realloc ptr n =>
      cases ptr with
      | none =>
          obtain ⟨h', p, bs', heq, hI', hkeep, hcharge, -⟩ := hI.alloc n
          refine ⟨_, bs', ?_, hI', hkeep, hcharge⟩
          rw [heapStep, osHeapRealloc, heq]
          rfl
      | some p =>
          have hp : p ∈ s.live := hop p rfl
          by_cases hn : n = 0
          · obtain ⟨h', bs', heq, hI', hkeep, hrefund⟩ := hI.free hp
            refine ⟨_, bs', ?_, hI', hkeep, ?_⟩
            · rw [heapStep, osHeapRealloc, if_pos hn, heq]
              simp [liveAfterRealloc, hn]
            · rw [Accounts, HeapOp.innerFree, if_pos hn]
              exact ⟨bs, Charged.refl _ _, hI.tiled, hrefund⟩
          · -- the source keeps the block when it is large enough, and copies to a new one otherwise
            by_cases hgrow : prvBlockGetSize c s.heap.mem (p - c.header) < alignUp 4 n
            · rcases hI.grow hp hn hgrow with ⟨h', halloc, heq, hI', hkeep, hcharge⟩ |
                ⟨h₁, q, bs₁, h', bs', halloc, heq, hcharge, ht₁, hI', hkeep, hrefund, -⟩
              · refine ⟨_, bs, ?_, hI', hkeep.mono, ?_⟩
                · rw [heapStep, heq]
                  simp [liveAfterRealloc, hn]
                · rw [Accounts, HeapOp.innerFree, if_neg hn, if_neg (Nat.not_le_of_lt hgrow), halloc]
                  exact hcharge
              · refine ⟨_, bs', ?_, hI', hkeep, ?_⟩
                · rw [heapStep, heq]
                  rfl
                · rw [Accounts, HeapOp.innerFree, if_neg hn, if_neg (Nat.not_le_of_lt hgrow), halloc]
                  exact ⟨bs₁, hcharge, ht₁, hrefund⟩
            · have hle := Nat.le_of_not_lt hgrow
              have heq : osHeapRealloc c s.heap (some p) n = some (s.heap, some p) := by
                rw [osHeapRealloc, if_neg hn]
                exact if_pos hle
              have hlive : (p :: s.live.erase p).Perm s.live := (List.perm_cons_erase hp).symm
              refine ⟨⟨s.heap, p :: s.live.erase p⟩, bs, ?_,
                ⟨hI.initialized, hI.tiled, hI.coalesced, hlive.nodup_iff.mpr hI.nodup, fun q => ?_⟩,
                KeepsData.refl _ rfl, ?_⟩
              · rw [heapStep, heq]
                rfl
              · rw [← hI.live q]
                exact hlive.mem_iff
              · rw [Accounts, HeapOp.innerFree, if_neg hn, if_pos hle]
                exact Charged.refl _ _
  | write p off bytes =>
      obtain ⟨hp, hoff⟩ := hop
      obtain ⟨hI', hkeep⟩ := hI.write hp hoff
      exact ⟨_, bs, rfl, hI', hkeep, Or.inl ⟨rfl, rfl, rfl⟩⟩

/-- `os_heap_init` makes one free block. -/
theorem HeapInv.init (c : HeapConfig) (h : Heap) :
    HeapInv c (HeapSys.init c h) [⟨c.start, heapSize - c.header, false⟩] := by
  have hle := c.header_le
  have hsize : heapSize - c.header < 256 ^ 4 := by
    simp only [heapSize]
    omega
  set m₁ := setNext c h.mem c.start none with hm₁
  set m₂ := setSizeWord c m₁ c.start (heapSize - c.header) with hm₂
  have hnext : next c (setAllocatedByte c m₂ c.start 0) c.start = none := by
    rw [next_setAllocatedByte, next_setSizeWord]
    exact next_setNext fun x hx => by cases hx
  have hword : sizeWord c (setAllocatedByte c m₂ c.start 0) c.start = heapSize - c.header := by
    rw [sizeWord_setAllocatedByte, sizeWord_setSizeWord hsize]
  refine ⟨rfl, ⟨⟨rfl, hnext, trivial⟩, fun b hb => ?_, rfl, ?_⟩, .singleton _, .nil, fun p => ?_⟩
  · rw [List.mem_singleton.mp hb]
    exact hword
  · simp only [tiles_nil, Block.finish, heapSize]
    omega
  · simp [HeapSys.init]

/-- A run of permitted calls keeps the invariant. -/
theorem HeapInv.run (hI : HeapInv c s bs) {ops : List HeapOp}
    (hr : Run (fun s op => op.Allowed c s) (heapStep c) s ops s') : ∃ bs', HeapInv c s' bs' := by
  apply hr.invariant (fun s => ∃ bs, HeapInv c s bs) ?_ ⟨bs, hI⟩
  rintro s op s' ⟨bs, hI⟩ hop hs
  obtain ⟨s₁, bs₁, heq, hI₁, -⟩ := hI.step hop
  obtain rfl := Option.some.inj (heq.symm.trans hs)
  exact ⟨bs₁, hI₁⟩

/-- The invariant holds in every run. -/
theorem heapInv_of_run {h : Heap} {ops : List HeapOp}
    (hr : Run (fun s op => op.Allowed c s) (heapStep c) (HeapSys.init c h) ops s) :
    ∃ bs, HeapInv c s bs :=
  (HeapInv.init c h).run hr

/-! ## Structure -/

/-- Without live allocations there is one block. -/
theorem HeapInv.eq_single (hI : HeapInv c s bs) (hnone : s.live = []) :
    bs = [⟨c.start, heapSize - c.header, false⟩] := by
  have hfree : ∀ b ∈ bs, b.used = false := by
    intro b hb
    by_contra hu
    have hlive := (hI.live _).mpr ⟨b, hb, Bool.not_eq_false _ ▸ hu, rfl⟩
    rw [hnone] at hlive
    cases hlive
  have hsingle := hI.tiled.tiles.eq_single hI.coalesced (by simp [heapSize]) hfree
  rwa [Nat.add_sub_cancel_left] at hsingle

/-- **The block list is always a coalesced tiling of the heap.** After any sequence of allocations,
reallocations and frees of live pointers, with any writes into live allocations in between,
`px_block_list` ends and lists blocks by increasing address that tile the heap; the allocated bits
tell the live allocations; no two neighbours are free; when nothing is live there is one block; and
every further permitted call returns. -/
theorem heap_coalesced_tiling {h : Heap} {ops : List HeapOp}
    (hr : Run (fun s op => op.Allowed c s) (heapStep c) (HeapSys.init c h) ops s) :
    ∃ bs, s.heap.blocks c = some bs ∧ (bs.map Block.addr).Pairwise (· < ·) ∧
      Tiles c.header c.start bs (c.start + heapSize) ∧
      (∀ b ∈ bs, b.used = true ↔ b.data c.header ∈ s.live) ∧
      (∀ p ∈ s.live, ∃ b ∈ bs, b.data c.header = p) ∧ Coalesced bs ∧
      (s.live = [] → bs = [⟨c.start, heapSize - c.header, false⟩]) ∧
      ∀ op : HeapOp, op.Allowed c s → ∃ s', heapStep c s op = some s' := by
  obtain ⟨bs, hI⟩ := heapInv_of_run hr
  have hused : ∀ b ∈ bs, b.used = true ↔ b.data c.header ∈ s.live := by
    intro b hb
    rw [hI.live]
    constructor
    · intro hu
      exact ⟨b, hb, hu, rfl⟩
    · rintro ⟨d, hd, hdu, hdata⟩
      rwa [← hI.tiled.eq_of_data hd hb hdata]
  refine ⟨bs, hI.tiled.blocks_eq, hI.tiled.tiles.sorted (Nat.lt_of_lt_of_le (by decide) c.header_ge),
    hI.tiled.tiles, hused, fun p hp => ?_, hI.coalesced, fun hnone => ?_, fun op hop => ?_⟩
  · obtain ⟨b, hb, -, hdata⟩ := (hI.live p).mp hp
    exact ⟨b, hb, hdata⟩
  · exact hI.eq_single hnone
  · obtain ⟨s', -, heq, -⟩ := hI.step hop
    exact ⟨s', heq⟩

/-- A heap at the start of the memory of a 32-bit microcontroller. -/
def HeapConfig.cortexM : HeapConfig :=
  ⟨4, 0x20000400, by decide, by decide, by decide, by decide⟩

/-- A heap before `os_heap_init`. -/
def Heap.unset : Heap := ⟨fun _ => 0xA5, none, 0, 0, false, false, []⟩

/-- Three allocations; the middle one is written to, freed and its room used again, and the first
one grows and moves. -/
def heapTrace : List HeapOp :=
  [.alloc 24, .alloc 40, .alloc 8, .write 0x20000430 3 [1, 2, 3], .free (some 0x20000430), .alloc 16,
    .realloc (some 0x2000040C) 100]

/-- The requests leave three live blocks, and no two free ones side by side. -/
theorem heap_coalesced_tiling_heapTrace : ∃ s bs,
    Run (fun s op => op.Allowed HeapConfig.cortexM s) (heapStep HeapConfig.cortexM)
      (HeapSys.init HeapConfig.cortexM Heap.unset) heapTrace s ∧
    s.live.length = 3 ∧ s.heap.blocks HeapConfig.cortexM = some bs ∧ Coalesced bs := by
  obtain ⟨s, hr, hlen⟩ := exists_run_of_exec (fun s op => op.Allowed HeapConfig.cortexM s)
    (heapStep HeapConfig.cortexM) (HeapSys.init HeapConfig.cortexM Heap.unset) heapTrace
    (fun s => s.live.length = 3) (by decide +kernel)
  obtain ⟨bs, hbs, -, -, -, -, hc, -⟩ := heap_coalesced_tiling hr
  exact ⟨s, bs, hr, hlen, hbs, hc⟩

/-! ## Isolation -/

/-- The data area of an allocation. -/
def Heap.dataArea (c : HeapConfig) (h : Heap) (p : Nat) : Set Nat :=
  Set.Ico p (p + prvBlockGetSize c h.mem (p - c.header))

/-- The data area of a live allocation is that of its block. -/
theorem HeapInv.dataArea_eq (hI : HeapInv c s bs) (hb : b ∈ bs) :
    s.heap.dataArea c (b.data c.header) = Set.Ico (b.data c.header) (b.finish c.header) := by
  have hblock : b.data c.header - c.header = b.addr := Nat.add_sub_cancel ..
  rw [Heap.dataArea, hblock, hI.tiled.getSize hb]
  rfl

/-- **Live allocations are isolated.** In every state of every run their data areas lie inside the
heap, apart from one another and from every header on the list; and no call changes a byte in the
data area of a live allocation that it is not about. -/
theorem heap_isolates {h : Heap} {ops : List HeapOp}
    (hr : Run (fun s op => op.Allowed c s) (heapStep c) (HeapSys.init c h) ops s) :
    (∃ bs, s.heap.blocks c = some bs ∧ ∀ p ∈ s.live,
      s.heap.dataArea c p ⊆ Set.Ico c.start (c.start + heapSize) ∧
      (∀ b ∈ bs, Disjoint (s.heap.dataArea c p) (Set.Ico b.addr (b.addr + c.header))) ∧
      ∀ q ∈ s.live, p ≠ q → Disjoint (s.heap.dataArea c p) (s.heap.dataArea c q)) ∧
    ∀ op s', HeapOp.Allowed c s op → heapStep c s op = some s' →
      ∀ p ∈ s.live, some p ≠ op.target →
        p ∈ s'.live ∧ s'.heap.dataArea c p = s.heap.dataArea c p ∧
          ∀ x ∈ s.heap.dataArea c p, s'.heap.mem x = s.heap.mem x := by
  obtain ⟨bs, hI⟩ := heapInv_of_run hr
  refine ⟨⟨bs, hI.tiled.blocks_eq, fun p hp => ?_⟩, fun op s' hop hs p hp hne => ?_⟩
  · obtain ⟨b, hb, hu, rfl⟩ := (hI.live p).mp hp
    rw [hI.dataArea_eq hb]
    refine ⟨fun x hx => ?_, fun d hd => ?_, fun q hq hne => ?_⟩
    · have hbounds := hI.tiled.tiles.bounds hb
      obtain ⟨hx, hx'⟩ := hx
      rw [Block.data] at hx
      constructor <;> omega
    · refine Set.disjoint_left.mpr fun x hx hx' => ?_
      have := hI.tiled.data_apart hb hd hx.1 hx.2
      obtain ⟨hd₁, hd₂⟩ := hx'
      omega
    · obtain ⟨d, hd, -, rfl⟩ := (hI.live q).mp hq
      rw [hI.dataArea_eq hd]
      refine Set.disjoint_left.mpr fun x hx hx' => ?_
      have hbd : b ≠ d := fun hbd => hne (by rw [hbd])
      simp only [Set.mem_Ico, Block.data] at hx hx'
      rcases hI.tiled.tiles.apart hb hd hbd with hle | hle
      · omega
      · omega
  · obtain ⟨b, hb, hu, rfl⟩ := (hI.live p).mp hp
    obtain ⟨s₁, bs₁, heq, hI₁, hkeep, -⟩ := hI.step hop
    obtain rfl := Option.some.inj (heq.symm.trans hs)
    obtain ⟨hb₁, hmem⟩ := hkeep b hb hu hne
    rw [hI.dataArea_eq hb, hI₁.dataArea_eq hb₁]
    exact ⟨(hI₁.live _).mpr ⟨b, hb₁, hu, rfl⟩, rfl, fun x hx => hmem x hx.1 hx.2⟩

/-- The data areas of three live blocks do not overlap. -/
theorem heap_isolates_heapTrace : ∃ s,
    Run (fun s op => op.Allowed HeapConfig.cortexM s) (heapStep HeapConfig.cortexM)
      (HeapSys.init HeapConfig.cortexM Heap.unset) heapTrace s ∧
    s.live.length = 3 ∧ ∀ p ∈ s.live, ∀ q ∈ s.live, p ≠ q →
      Disjoint (s.heap.dataArea HeapConfig.cortexM p) (s.heap.dataArea HeapConfig.cortexM q) := by
  obtain ⟨s, hr, hlen⟩ := exists_run_of_exec (fun s op => op.Allowed HeapConfig.cortexM s)
    (heapStep HeapConfig.cortexM) (HeapSys.init HeapConfig.cortexM Heap.unset) heapTrace
    (fun s => s.live.length = 3) (by decide +kernel)
  obtain ⟨bs, -, hlive⟩ := (heap_isolates hr).1
  exact ⟨s, hr, hlen, fun p hp => (hlive p hp).2.2⟩

end MiniRTOS
