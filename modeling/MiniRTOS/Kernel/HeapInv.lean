import Mathlib.Data.Nat.Bitwise
import MiniRTOS.Kernel.Heap

/-! # The block list of the heap

The headers in memory represent a list of blocks: `Heap.Lists` says that `px_block_list` and the
`next` fields link the headers of the list and that their size words are those of its blocks.
`Heap.Tiled` adds that the blocks tile the heap. Splitting, taking out, putting back and merging are
followed on the abstract list, where they are `Tiling.take` and `Tiling.release`; each of them writes
into headers only (`Touched`). -/

namespace MiniRTOS

open ByteMemory PtrList Runs Tiling

variable {c : HeapConfig} {m m' m'' : Mem} {a b : Nat}

/-! ## The configuration -/

/-- `uc_heap` is aligned already. -/
theorem HeapConfig.start_eq (c : HeapConfig) : c.start = c.ucHeap := by
  obtain ⟨k, hk⟩ := c.aligned
  have hfits := c.fits
  simp only [heapAlignment, heapSize] at hk hfits
  have hlt : c.ucHeap + 8 - 1 < 256 ^ c.ptrBytes := by omega
  rw [HeapConfig.start, alignUp, heapAlignment, Nat.mod_eq_of_lt hlt]
  omega

/-- The heap does not start at null. -/
theorem HeapConfig.start_pos (c : HeapConfig) : 0 < c.start := by
  rw [c.start_eq]
  exact c.ucHeap_pos

/-- The heap ends inside the address space. -/
theorem HeapConfig.start_fits (c : HeapConfig) : c.start + heapSize < 256 ^ c.ptrBytes := by
  have hfits := c.fits
  rw [c.start_eq]
  simp only [heapAlignment, heapSize] at hfits ⊢
  omega

/-- A header takes 16 bytes at most. -/
theorem HeapConfig.header_le (c : HeapConfig) : c.header ≤ 16 := by
  rcases c.ptrBytes_eq with h | h <;> simp [HeapConfig.header, h]

/-- And 12 bytes at least. -/
theorem HeapConfig.header_ge (c : HeapConfig) : 12 ≤ c.header := by
  rcases c.ptrBytes_eq with h | h <;> simp [HeapConfig.header, h]

/-! ## Size words -/

/-- The size word of a block. -/
def Heap.wordOf (b : Block) : Nat := if b.used then blockAllocatedBit + b.size else b.size

/-- The mask cuts off the top bit. -/
theorem and_blockSizeMask (n : Nat) : n &&& blockSizeMask = n % 2 ^ 31 :=
  Nat.and_two_pow_sub_one_eq_mod n 31

/-- The allocated bit is the top bit. -/
theorem and_blockAllocatedBit (n : Nat) :
    n &&& blockAllocatedBit = (n.testBit 31).toNat * blockAllocatedBit :=
  Nat.and_two_pow n 31

/-- Marking a size as allocated. -/
theorem or_blockAllocatedBit {n : Nat} (h : n < 2 ^ 31) :
    n ||| blockAllocatedBit = blockAllocatedBit + n := by
  rw [Nat.or_comm]
  exact (Nat.two_pow_add_eq_or_of_lt h 1).symm

namespace Heap

/-- The size is read back from the word. -/
theorem wordOf_and_mask {b : Block} (h : b.size < 2 ^ 31) : wordOf b &&& blockSizeMask = b.size := by
  rw [and_blockSizeMask, wordOf]
  split
  · rw [show blockAllocatedBit = 2 ^ 31 from rfl, Nat.add_mod_left, Nat.mod_eq_of_lt h]
  · exact Nat.mod_eq_of_lt h

/-- The allocated bit is read back from the word. -/
theorem wordOf_and_bit {b : Block} (h : b.size < 2 ^ 31) :
    (wordOf b &&& blockAllocatedBit != 0) = b.used := by
  have hbit : b.size.testBit 31 = false := Nat.testBit_lt_two_pow h
  rw [and_blockAllocatedBit, wordOf]
  cases hu : b.used with
  | true =>
      rw [if_pos rfl, show blockAllocatedBit = 2 ^ 31 from rfl, Nat.testBit_two_pow_add_eq, hbit]
      rfl
  | false =>
      rw [if_neg (by decide), hbit]
      rfl

/-! ## Headers in memory -/

/-- A header is read from its own bytes. -/
theorem next_congr (h : ∀ x, a ≤ x → x < a + c.header → m' x = m x) : next c m' a = next c m a := by
  have hload : load m' a c.ptrBytes = load m a c.ptrBytes :=
    load_congr fun x hx hx' => h x hx (by rw [HeapConfig.header]; omega)
  rw [next, next, loadPtr, loadPtr, hload]

/-- The size word depends on the bytes of its header only. -/
theorem sizeWord_congr (h : ∀ x, a ≤ x → x < a + c.header → m' x = m x) :
    sizeWord c m' a = sizeWord c m a :=
  load_congr fun x hx hx' => h x (by omega) (by rw [HeapConfig.header]; omega)

/-- `next` is read back, for a pointer that fits. -/
theorem next_setNext {p : Option Nat} (hp : ∀ x ∈ p, 0 < x ∧ x < 256 ^ c.ptrBytes) :
    next c (setNext c m a p) a = p := by
  rw [next, loadPtr, setNext, storePtr, load_store_self]
  cases p with
  | none =>
      rw [Option.getD_none, Nat.zero_mod]
      rfl
  | some x =>
      obtain ⟨hpos, hlt⟩ := hp x rfl
      rw [Option.getD_some, Nat.mod_eq_of_lt hlt]
      cases x with
      | zero => exact absurd hpos (Nat.lt_irrefl 0)
      | succ x => rfl

/-- Writing the size word leaves `next` alone. -/
theorem next_setSizeWord {n : Nat} : next c (setSizeWord c m a n) a = next c m a := by
  rw [next, next, loadPtr, loadPtr, setSizeWord, load_store_of_disjoint m (Or.inl (Nat.le_refl _))]

/-- Writing the byte `allocated` leaves `next` alone. -/
theorem next_setAllocatedByte {n : Nat} : next c (setAllocatedByte c m a n) a = next c m a := by
  rw [next, next, loadPtr, loadPtr, setAllocatedByte,
    load_store_of_disjoint m (Or.inl (Nat.le_add_right _ _))]

/-- Writing `next` leaves the size word alone. -/
theorem sizeWord_setNext {p : Option Nat} : sizeWord c (setNext c m a p) a = sizeWord c m a :=
  load_store_of_disjoint m (Or.inr (Nat.le_refl _))

/-- A size word reads as it was written. -/
theorem sizeWord_setSizeWord {n : Nat} (h : n < 256 ^ 4) :
    sizeWord c (setSizeWord c m a n) a = n := by
  rw [sizeWord, setSizeWord, load_store_self, Nat.mod_eq_of_lt h]

/-- Writing the byte `allocated` leaves the size word alone. -/
theorem sizeWord_setAllocatedByte {n : Nat} :
    sizeWord c (setAllocatedByte c m a n) a = sizeWord c m a :=
  load_store_of_disjoint m (Or.inl (Nat.le_refl _))

/-! ## What a write touches -/

/-- Only bytes of the headers at the given addresses change. -/
def Touched (c : HeapConfig) (A : List Nat) (m m' : Mem) : Prop :=
  ∀ x, (∀ a ∈ A, x < a ∨ a + c.header ≤ x) → m' x = m x

/-- Nothing is touched at first. -/
theorem Touched.refl (A : List Nat) (m : Mem) : Touched c A m m := fun _ _ => rfl

/-- What touches headers twice touches them. -/
theorem Touched.trans {A : List Nat} (h : Touched c A m m') (h' : Touched c A m' m'') :
    Touched c A m m'' := fun x hx => (h' x hx).trans (h x hx)

/-- More headers may be touched. -/
theorem Touched.mono {A B : List Nat} (h : Touched c A m m') (hAB : A ⊆ B) : Touched c B m m' :=
  fun x hx => h x fun a ha => hx a (hAB ha)

/-- Writing `next` touches one header. -/
theorem touched_setNext (c : HeapConfig) (m : Mem) (a : Nat) (p : Option Nat) :
    Touched c [a] m (setNext c m a p) := by
  intro x hx
  have := hx a (by simp)
  exact store_of_not_mem m (by rw [HeapConfig.header] at this; omega)

/-- So does writing a size word. -/
theorem touched_setSizeWord (c : HeapConfig) (m : Mem) (a : Nat) (n : Nat) :
    Touched c [a] m (setSizeWord c m a n) := by
  intro x hx
  have := hx a (by simp)
  exact store_of_not_mem m (by rw [HeapConfig.header] at this; omega)

/-- So does writing the byte `allocated`. -/
theorem touched_setAllocatedByte (c : HeapConfig) (m : Mem) (a : Nat) (n : Nat) :
    Touched c [a] m (setAllocatedByte c m a n) := by
  intro x hx
  have := hx a (by simp)
  exact store_of_not_mem m (by rw [HeapConfig.header] at this; omega)

/-- A header apart from all touched ones reads as before. -/
theorem Touched.next_eq {A : List Nat} (h : Touched c A m m')
    (hb : ∀ a ∈ A, a + c.header ≤ b ∨ b + c.header ≤ a) : next c m' b = next c m b :=
  next_congr fun x hx hx' => h x fun a ha => by
    have := hb a ha
    omega

/-- The size words of other headers stay. -/
theorem Touched.sizeWord_eq {A : List Nat} (h : Touched c A m m')
    (hb : ∀ a ∈ A, a + c.header ≤ b ∨ b + c.header ≤ a) : sizeWord c m' b = sizeWord c m b :=
  sizeWord_congr fun x hx hx' => h x fun a ha => by
    have := hb a ha
    omega

/-- Marking a block changes its size word and no pointer. -/
theorem prvBlockSetAllocated_spec (h : sizeWord c m a < 2 ^ 31) :
    sizeWord c (prvBlockSetAllocated c m a) a = blockAllocatedBit + sizeWord c m a ∧
      next c (prvBlockSetAllocated c m a) a = next c m a ∧
      Touched c [a] m (prvBlockSetAllocated c m a) := by
  have hlt : blockAllocatedBit + sizeWord c m a < 256 ^ 4 := by
    simp only [blockAllocatedBit]
    omega
  rw [prvBlockSetAllocated, or_blockAllocatedBit h]
  refine ⟨?_, ?_, ?_⟩
  · rw [sizeWord_setAllocatedByte, sizeWord_setSizeWord hlt]
  · rw [next_setAllocatedByte, next_setSizeWord]
  · exact (touched_setSizeWord c m a _).trans (touched_setAllocatedByte c _ a _)

/-- **`prv_block_set_free`**: the top bit of the size word is cleared, and nothing else. -/
theorem prvBlockSetFree_spec :
    sizeWord c (prvBlockSetFree c m a) a = sizeWord c m a &&& blockSizeMask ∧
      next c (prvBlockSetFree c m a) a = next c m a ∧
      Touched c [a] m (prvBlockSetFree c m a) := by
  have hlt : sizeWord c m a &&& blockSizeMask < 256 ^ 4 := by
    rw [and_blockSizeMask]
    omega
  refine ⟨?_, ?_, ?_⟩
  · rw [prvBlockSetFree, sizeWord_setAllocatedByte, sizeWord_setSizeWord hlt]
  · rw [prvBlockSetFree, next_setAllocatedByte, next_setSizeWord]
  · exact (touched_setSizeWord c m a _).trans (touched_setAllocatedByte c _ a _)

/-! ## Headers that lie apart -/

/-- Headers one behind the other, at least a header's length apart. -/
def Spread (c : HeapConfig) (l : List Nat) : Prop := l.Pairwise fun a b => a + c.header ≤ b

/-- Headers that lie apart are different. -/
theorem Spread.nodup {l : List Nat} (h : Spread c l) : l.Nodup :=
  h.imp fun hab heq => by
    have := c.header_ge
    omega

/-- Two of them do not overlap. -/
theorem Spread.apart {l : List Nat} (h : Spread c l) (ha : a ∈ l) (hb : b ∈ l) (hne : a ≠ b) :
    a + c.header ≤ b ∨ b + c.header ≤ a := by
  have hsym : Std.Symm fun a b : Nat => a + c.header ≤ b ∨ b + c.header ≤ a :=
    ⟨fun _ _ h => h.symm⟩
  have hp : l.Pairwise fun a b => a + c.header ≤ b ∨ b + c.header ≤ a := h.imp Or.inl
  exact hp.forall ha hb hne

/-- A pointer that a `next` field can hold. -/
def Holds (c : HeapConfig) (p : Option Nat) : Prop := ∀ x ∈ p, 0 < x ∧ x < 256 ^ c.ptrBytes

/-! ## Walking the list -/

/-- From `px_block_list` the `next` fields lead over `l` to `q`. -/
def Leads (c : HeapConfig) (h : Heap) (l : List Nat) (q : Option Nat) : Prop :=
  h.pxBlockList = l.head?.or q ∧ Path (next c h.mem) l q

variable {h h' : Heap} {l r : List Nat} {p q : Option Nat}

/-- A path through both parts of a list. -/
theorem leads_append : Leads c h (l ++ r) q ↔
    Leads c h l (r.head?.or q) ∧ Path (next c h.mem) r q := by
  rw [Leads, Leads, path_append, List.head?_append, Option.or_assoc, and_assoc]

/-- The walk only reads `px_block_list` and the `next` fields. -/
theorem Leads.congr (hl : Leads c h l q) (hpx : h'.pxBlockList = h.pxBlockList)
    (hnext : ∀ x ∈ l, next c h'.mem x = next c h.mem x) : Leads c h' l q :=
  ⟨hpx.trans hl.1, hl.2.congr hnext⟩

/-- **Linking the end of a walk** to another block. -/
theorem Leads.link (hl : Leads c h l p) (hs : Spread c l) (hq : Holds c q) :
    Leads c (link c h l.getLast? q) l q := by
  rcases List.eq_nil_or_concat' l with rfl | ⟨l, x, rfl⟩
  · exact ⟨rfl, trivial⟩
  · rw [List.getLast?_concat]
    refine ⟨?_, hl.2.redirect (fun y hy hlast => ?_) (fun y hlast => ?_) hs.nodup⟩
    · have hhead := hl.1
      rw [List.head?_append] at hhead ⊢
      cases l with
      | nil => exact hhead
      | cons z l => exact hhead
    · rw [List.getLast?_concat] at hlast
      have hne : x ≠ y := fun hxy => hlast (congrArg some hxy)
      refine (touched_setNext c h.mem x q).next_eq fun a ha => ?_
      rw [List.mem_singleton.mp ha]
      exact hs.apart (by simp) hy hne
    · rw [List.getLast?_concat] at hlast
      obtain rfl := Option.some.inj hlast
      exact next_setNext hq

/-- Linking writes into the header of the last block of the walk. -/
theorem touched_link (c : HeapConfig) (h : Heap) (p q : Option Nat) :
    Touched c p.toList h.mem (link c h p q).mem := by
  cases p with
  | none => exact Touched.refl _ _
  | some a => exact touched_setNext c h.mem a q

/-- Linking changes no size word. -/
theorem sizeWord_link (hp : ∀ a ∈ p, a = b ∨ a + c.header ≤ b ∨ b + c.header ≤ a) :
    sizeWord c (link c h p q).mem b = sizeWord c h.mem b := by
  cases p with
  | none => rfl
  | some a =>
      rcases hp a rfl with rfl | hab
      · exact sizeWord_setNext
      · exact (touched_setNext c h.mem a q).sizeWord_eq fun x hx => by
          rw [List.mem_singleton.mp hx]
          exact hab

/-- Everything but the memory and the head of the list is the same. -/
def SameStats (h h' : Heap) : Prop := h' = { h with mem := h'.mem, pxBlockList := h'.pxBlockList }

/-- Equal counters, twice. -/
theorem SameStats.trans {h'' : Heap} (h₁ : SameStats h h') (h₂ : SameStats h' h'') :
    SameStats h h'' := by
  rw [SameStats, h₂, h₁]

/-- Linking two headers leaves the counters alone. -/
theorem sameStats_link (c : HeapConfig) (h : Heap) (p q : Option Nat) :
    SameStats h (link c h p q) := by
  cases p <;> rfl

/-- **The removal loop** of `os_heap_free` finds the block and links its neighbours. -/
theorem removeBlock_eq {fuel : Nat} (prev : Option Nat) (hpath : Path (next c h.mem) (l ++ b :: r) none)
    (hb : b ∉ l) (hfuel : (l ++ b :: r).length ≤ fuel) :
    removeBlock c h b fuel prev (l ++ b :: r).head?
      = some (link c h (l.getLast?.or prev) (next c h.mem b)) := by
  induction l generalizing fuel prev with
  | nil =>
      obtain ⟨n, rfl⟩ : ∃ n, fuel = n + 1 := ⟨fuel - 1, by simp at hfuel; omega⟩
      simp [removeBlock]
  | cons x l ih =>
      obtain ⟨n, rfl⟩ : ∃ n, fuel = n + 1 := ⟨fuel - 1, by simp at hfuel; omega⟩
      have hne : x ≠ b := fun hxb => hb (by simp [hxb])
      have hnext : next c h.mem x = (l ++ b :: r).head? := hpath.1.trans (Option.or_none ..)
      rw [List.cons_append, List.head?_cons, removeBlock, if_neg hne, hnext,
        ih (some x) hpath.2 (fun hm => hb (by simp [hm])) (by simpa using hfuel), getLast?_cons_or]

/-- The removal loop leaves a list without the block alone. -/
theorem removeBlock_of_not_mem {fuel : Nat} (prev : Option Nat) (hpath : Path (next c h.mem) l none)
    (hb : b ∉ l) (hfuel : l.length ≤ fuel) : removeBlock c h b fuel prev l.head? = some h := by
  induction l generalizing fuel prev with
  | nil => cases fuel <;> rfl
  | cons x l ih =>
      obtain ⟨n, rfl⟩ : ∃ n, fuel = n + 1 := ⟨fuel - 1, by simp at hfuel; omega⟩
      have hne : x ≠ b := fun hxb => hb (by simp [hxb])
      have hnext : next c h.mem x = l.head? := hpath.1.trans (Option.or_none ..)
      rw [List.head?_cons, removeBlock, if_neg hne, hnext]
      exact ih (some x) hpath.2 (fun hm => hb (by simp [hm])) (by simpa using hfuel)

/-- **The walk of `prv_insert_block`** stops between the blocks below and those above. -/
theorem findPosition_eq {fuel : Nat} (prev : Option Nat) (hpath : Path (next c m) (l ++ r) none)
    (hl : ∀ x ∈ l, ¬ b < x) (hr : ∀ x ∈ r.head?, b < x) (hfuel : (l ++ r).length ≤ fuel) :
    findPosition c m b fuel prev (l ++ r).head? = some (l.getLast?.or prev, r.head?) := by
  induction l generalizing fuel prev with
  | nil =>
      cases r with
      | nil => cases fuel <;> rfl
      | cons y r =>
          obtain ⟨n, rfl⟩ : ∃ n, fuel = n + 1 := ⟨fuel - 1, by simp at hfuel; omega⟩
          rw [List.nil_append, List.head?_cons, findPosition, if_pos (hr y rfl)]
          rfl
  | cons x l ih =>
      obtain ⟨n, rfl⟩ : ∃ n, fuel = n + 1 := ⟨fuel - 1, by simp at hfuel; omega⟩
      have hnext : next c m x = (l ++ r).head? := hpath.1.trans (Option.or_none ..)
      rw [List.cons_append, List.head?_cons, findPosition, if_neg (hl x (by simp)), hnext,
        ih (some x) hpath.2 (fun y hy => hl y (by simp [hy])) (by simpa using hfuel), getLast?_cons_or]

/-! ## The blocks in memory -/

/-- **The headers show the blocks of `bs`**, which tile the heap. -/
structure Tiled (c : HeapConfig) (h : Heap) (bs : List Block) : Prop where
  /-- `px_block_list` and the `next` fields link the headers in order. -/
  leads : Leads c h (bs.map Block.addr) none
  /-- The size words are those of the blocks. -/
  word : ∀ b ∈ bs, sizeWord c h.mem b.addr = wordOf b
  /-- The blocks tile the heap. -/
  tiles : Tiles c.header c.start bs (c.start + heapSize)

namespace Tiled

variable {bs l mid mid' r : List Block} {b b' : Block}

/-- A block is not larger than the heap. -/
theorem size_le (ht : Tiled c h bs) (hb : b ∈ bs) : b.size ≤ heapSize := by
  have := ht.tiles.bounds hb
  rw [Block.finish] at this
  omega

/-- Its size does not reach the top bit. -/
theorem size_lt (ht : Tiled c h bs) (hb : b ∈ bs) : b.size < 2 ^ 31 :=
  Nat.lt_of_le_of_lt (ht.size_le hb) (by decide)

/-- The size is read back. -/
theorem getSize (ht : Tiled c h bs) (hb : b ∈ bs) : prvBlockGetSize c h.mem b.addr = b.size := by
  rw [prvBlockGetSize, ht.word b hb, wordOf_and_mask (ht.size_lt hb)]

/-- So is the allocated bit. -/
theorem isAllocated (ht : Tiled c h bs) (hb : b ∈ bs) :
    prvBlockIsAllocated c h.mem b.addr = b.used := by
  rw [prvBlockIsAllocated, ht.word b hb, wordOf_and_bit (ht.size_lt hb)]

/-- The headers lie apart. -/
theorem spread (ht : Tiled c h bs) : Spread c (bs.map Block.addr) := by
  rw [Spread, List.pairwise_map]
  refine ht.tiles.pairwise.imp fun hbc => ?_
  rw [Block.finish] at hbc
  omega

/-- A `next` field can hold every address in a block. -/
theorem holds_of_within {a : Nat} (ht : Tiled c h bs) (hb : b ∈ bs) (hlo : b.addr ≤ a)
    (hhi : a ≤ b.addr + b.size) : Holds c (some a) := by
  intro x hx
  obtain rfl := Option.some.inj hx
  have hbounds := ht.tiles.bounds hb
  have hpos := c.start_pos
  have hfits := c.start_fits
  rw [Block.finish] at hbounds
  constructor <;> omega

/-- A header can be pointed to. -/
theorem holds (ht : Tiled c h bs) (hb : b ∈ bs) : Holds c (some b.addr) :=
  ht.holds_of_within hb le_rfl (Nat.le_add_right _ _)

/-- So can the first one of a rest, if there is one. -/
theorem holds_head (ht : Tiled c h (l ++ r)) : Holds c (r.map Block.addr).head? := by
  cases r with
  | nil => exact fun x hx => by cases hx
  | cons b r => exact ht.holds (by simp)

/-- The blocks are no more than the heap has bytes. -/
theorem length_le (ht : Tiled c h bs) : bs.length ≤ heapSize := by
  have hlen := ht.tiles.length_mul_le
  have hmul : bs.length * 1 ≤ bs.length * c.header :=
    Nat.mul_le_mul_left _ (by have := c.header_ge; omega)
  omega

/-- **The walk over `px_block_list`** meets exactly these blocks. -/
theorem readBlocks_eq {fuel : Nat} (hpath : Path (next c m) (bs.map Block.addr) none)
    (hb : ∀ b ∈ bs, prvBlockGetSize c m b.addr = b.size ∧ prvBlockIsAllocated c m b.addr = b.used)
    (hfuel : bs.length ≤ fuel) : readBlocks c m fuel (bs.map Block.addr).head? = some bs := by
  induction bs generalizing fuel with
  | nil => cases fuel <;> rfl
  | cons b bs ih =>
      obtain ⟨n, rfl⟩ : ∃ n, fuel = n + 1 := ⟨fuel - 1, by simp at hfuel; omega⟩
      have hnext : next c m b.addr = (bs.map Block.addr).head? := hpath.1.trans (Option.or_none ..)
      obtain ⟨hsize, hused⟩ := hb b (by simp)
      rw [List.map_cons, List.head?_cons, readBlocks, hnext,
        ih hpath.2 (fun x hx => hb x (by simp [hx])) (by simpa using hfuel), hsize, hused]
      rfl

/-- What a walk over `px_block_list` has read is in the headers. -/
theorem of_readBlocks {fuel : Nat} (hread : readBlocks c m fuel p = some bs) :
    p = (bs.map Block.addr).head? ∧ Path (next c m) (bs.map Block.addr) none ∧
      ∀ b ∈ bs, prvBlockGetSize c m b.addr = b.size ∧ prvBlockIsAllocated c m b.addr = b.used := by
  induction fuel generalizing p bs with
  | zero =>
      cases p with
      | none =>
          obtain rfl := Option.some.inj hread
          exact ⟨rfl, trivial, by simp⟩
      | some a => cases hread
  | succ fuel ih =>
      cases p with
      | none =>
          obtain rfl := Option.some.inj hread
          exact ⟨rfl, trivial, by simp⟩
      | some a =>
          obtain ⟨rest, hrest, rfl⟩ := Option.map_eq_some_iff.mp hread
          obtain ⟨hhead, hpath, hb⟩ := ih hrest
          refine ⟨rfl, ⟨hhead.trans (Option.or_none ..).symm, hpath⟩, ?_⟩
          rintro b (_ | ⟨_, hmem⟩)
          · exact ⟨rfl, rfl⟩
          · exact hb b hmem

/-- The walk along the list meets the blocks. -/
theorem blocks_eq (ht : Tiled c h bs) : h.blocks c = some bs := by
  have hpx := ht.leads.1
  rw [Option.or_none] at hpx
  rw [blocks, hpx]
  exact readBlocks_eq ht.leads.2 (fun b hb => ⟨ht.getSize hb, ht.isAllocated hb⟩) ht.length_le

/-- The headers show one list of blocks. -/
theorem unique {bs' : List Block} (ht : Tiled c h bs) (ht' : Tiled c h bs') : bs = bs' :=
  Option.some.inj (ht.blocks_eq.symm.trans ht'.blocks_eq)

/-- A header inside one block is apart from the headers of the others. -/
theorem apart_mid (ht : Tiled c h (l ++ b :: r)) (ha : b.addr ≤ a)
    (ha' : a + c.header ≤ b.finish c.header) {x : Block} (hx : x ∈ l ++ r) :
    a + c.header ≤ x.addr ∨ x.addr + c.header ≤ a := by
  obtain ⟨hl, hr⟩ := tiles_mid.mp ht.tiles
  rcases List.mem_append.mp hx with hx | hx
  · have := (hl.bounds hx).2
    rw [Block.finish] at this
    omega
  · have := (hr.bounds hx).1
    omega

/-- **Replacing blocks in the middle.** New headers in the place of `b` and `mid`, linked among
themselves and to the next block, show the new list. -/
theorem splice (mid mid' : List Block) {A : List Nat} (ht : Tiled c h (l ++ b :: (mid ++ r)))
    (htouch : Touched c A h.mem h'.mem)
    (hA : ∀ a ∈ A, ∀ x ∈ l ++ r, a + c.header ≤ x.addr ∨ x.addr + c.header ≤ a)
    (hpx : h'.pxBlockList = h.pxBlockList) (haddr : b'.addr = b.addr)
    (hpath : Path (next c h'.mem) ((b' :: mid').map Block.addr) (r.map Block.addr).head?)
    (hword : ∀ x ∈ b' :: mid', sizeWord c h'.mem x.addr = wordOf x)
    (htiles : Tiles c.header c.start (l ++ b' :: (mid' ++ r)) (c.start + heapSize)) :
    Tiled c h' (l ++ b' :: (mid' ++ r)) := by
  have hnext : ∀ x ∈ l ++ r, next c h'.mem x.addr = next c h.mem x.addr := fun x hx =>
    htouch.next_eq fun a ha => hA a ha x hx
  have hleads := ht.leads
  rw [List.map_append, leads_append] at hleads
  obtain ⟨hl, hmid⟩ := hleads
  rw [← List.cons_append, List.map_append, path_append] at hmid
  refine ⟨?_, fun x hx => ?_, htiles⟩
  · rw [List.map_append, leads_append]
    constructor
    · rw [List.map_cons, List.head?_cons, haddr]
      refine hl.congr hpx fun x hx => ?_
      obtain ⟨y, hy, rfl⟩ := List.mem_map.mp hx
      exact hnext y (by simp [hy])
    · rw [← List.cons_append, List.map_append, path_append, Option.or_none]
      refine ⟨hpath, hmid.2.congr fun x hx => ?_⟩
      obtain ⟨y, hy, rfl⟩ := List.mem_map.mp hx
      exact hnext y (by simp [hy])
  · have hold : ∀ y ∈ l ++ r, sizeWord c h'.mem y.addr = wordOf y := fun y hy => by
      rw [htouch.sizeWord_eq fun a ha => hA a ha y hy]
      refine ht.word y ?_
      rcases List.mem_append.mp hy with hy | hy <;> simp [hy]
    rw [← List.cons_append, ← List.append_assoc, List.append_assoc] at hx
    rcases List.mem_append.mp hx with hx | hx
    · exact hold x (by simp [hx])
    · rcases List.mem_append.mp hx with hx | hx
      · exact hword x hx
      · exact hold x (by simp [hx])

/-- The block behind one of the list. -/
theorem next_mid (ht : Tiled c h (l ++ b :: r)) :
    next c h.mem b.addr = (r.map Block.addr).head? := by
  have hpath := ht.leads.2
  rw [List.map_append, List.map_cons] at hpath
  rw [hpath.next_of_append, Option.or_none]

/-! ## Merging -/

/-- **A merge** of two free neighbours. -/
theorem absorb (ht : Tiled c h (l ++ b :: b' :: r)) :
    Tiled c (absorb c h b.addr b'.addr) (l ++ b.join c.header b' :: r) ∧
      Touched c [b.addr] h.mem (MiniRTOS.absorb c h b.addr b'.addr).mem := by
  have hmem : b ∈ l ++ b :: b' :: r := by simp
  have hmem' : b' ∈ l ++ b :: b' :: r := by simp
  have htiles : Tiles c.header c.start (l ++ b.join c.header b' :: r) (c.start + heapSize) :=
    ht.tiles.join
  have hsmall : b.size + c.header + b'.size < 256 ^ 4 := by
    have hjoin := htiles.bounds (b := b.join c.header b') (by simp)
    simp only [Block.join, Block.finish, heapSize] at hjoin
    omega
  have hsize : (sizeWord c h.mem b.addr &&& blockSizeMask) + c.header
      + prvBlockGetSize c h.mem b'.addr = b.size + c.header + b'.size := by
    rw [ht.word b hmem, wordOf_and_mask (ht.size_lt hmem), ht.getSize hmem']
  have happart : b.addr + c.header ≤ b'.addr := by
    have hnext := (tiles_mid.mp ht.tiles).2.1
    rw [Block.finish] at hnext
    omega
  have hnext : next c (setSizeWord c h.mem b.addr (b.size + c.header + b'.size)) b'.addr
      = (r.map Block.addr).head? := by
    rw [(touched_setSizeWord c h.mem b.addr _).next_eq fun a ha => by
      rw [List.mem_singleton.mp ha]
      exact Or.inl happart]
    have hb' : Tiled c h ((l ++ [b]) ++ b' :: r) := by simpa using ht
    exact hb'.next_mid
  have hholds : Holds c (r.map Block.addr).head? := by
    have hr : Tiled c h ((l ++ [b, b']) ++ r) := by simpa using ht
    exact hr.holds_head
  have habsorb : (MiniRTOS.absorb c h b.addr b'.addr).mem
      = setNext c (setSizeWord c h.mem b.addr (b.size + c.header + b'.size)) b.addr
          (r.map Block.addr).head? := by
    simp only [MiniRTOS.absorb, hsize, hnext]
  have htouch : Touched c [b.addr] h.mem (MiniRTOS.absorb c h b.addr b'.addr).mem := by
    rw [habsorb]
    exact (touched_setSizeWord c _ _ _).trans (touched_setNext c _ _ _)
  refine ⟨ht.splice [b'] [] (r := r) htouch (fun a ha x hx => ?_) rfl rfl ?_
    (fun x hx => ?_) htiles, htouch⟩
  · rw [List.mem_singleton.mp ha]
    refine ht.apart_mid (Nat.le_refl _) (by rw [Block.finish]; omega) ?_
    rcases List.mem_append.mp hx with hx | hx <;> simp [hx]
  · refine ⟨?_, trivial⟩
    rw [habsorb]
    exact next_setNext hholds
  · rw [List.mem_singleton.mp hx, habsorb]
    exact sizeWord_setNext.trans (sizeWord_setSizeWord hsmall)

/-- The first merge of `prv_insert_block`. -/
theorem coalescePrev (ht : Tiled c h (l ++ b :: r)) :
    ∃ h', coalescePrev c h (l.map Block.addr).getLast? b.addr
        = (h', (joinPrev c.header l b).2.addr) ∧
      Tiled c h' ((joinPrev c.header l b).1 ++ (joinPrev c.header l b).2 :: r) ∧ SameStats h h' ∧
      Touched c ((l ++ [b]).map Block.addr) h.mem h'.mem := by
  rcases List.eq_nil_or_concat' l with rfl | ⟨l, p, rfl⟩
  · exact ⟨h, rfl, ht, rfl, Touched.refl _ _⟩
  · have hp : p ∈ l ++ [p] ++ b :: r := by simp
    have hend : p.addr + c.header + p.size = b.addr := by
      rw [List.append_assoc] at ht
      exact (tiles_mid.mp ht.tiles).2.1.symm
    rw [joinPrev_concat, List.map_append, List.map_singleton, List.getLast?_concat,
      MiniRTOS.coalescePrev, ht.getSize hp, ht.isAllocated hp]
    cases hu : p.used with
    | true => exact ⟨h, by simp, ht, rfl, Touched.refl _ _⟩
    | false =>
        rw [List.append_assoc] at ht
        obtain ⟨hT, htouch⟩ := ht.absorb
        exact ⟨_, by simp [hend, Block.join], hT, rfl, htouch.mono (by simp)⟩

/-- The second merge of `prv_insert_block`. -/
theorem coalesceNext (ht : Tiled c h (l ++ b :: r)) :
    ∃ h', coalesceNext c h b.addr = h' ∧
      Tiled c h' (l ++ (joinNext c.header b r).1 :: (joinNext c.header b r).2) ∧ SameStats h h' ∧
      Touched c [b.addr] h.mem h'.mem := by
  rw [MiniRTOS.coalesceNext, ht.next_mid]
  cases r with
  | nil => exact ⟨h, rfl, ht, rfl, Touched.refl _ _⟩
  | cons q r =>
      have hq : q ∈ l ++ b :: q :: r := by simp
      have hend : b.addr + c.header + b.size = q.addr := (tiles_mid.mp ht.tiles).2.1.symm
      rw [List.map_cons, List.head?_cons]
      simp only [ht.getSize (b := b) (by simp), ht.isAllocated hq, hend, joinNext]
      cases hu : q.used with
      | true => exact ⟨h, by simp, ht, rfl, Touched.refl _ _⟩
      | false =>
          obtain ⟨hT, htouch⟩ := ht.absorb
          exact ⟨_, by simp, hT, rfl, htouch⟩

/-! ## Freeing -/

/-- Rewriting the size word of one block. -/
theorem mark (ht : Tiled c h (l ++ b :: r)) (hpx : h'.pxBlockList = h.pxBlockList)
    (haddr : b'.addr = b.addr) (hsize : b'.size = b.size)
    (hword : sizeWord c h'.mem b.addr = wordOf b') (hnext : next c h'.mem b.addr = next c h.mem b.addr)
    (htouch : Touched c [b.addr] h.mem h'.mem) : Tiled c h' (l ++ b' :: r) := by
  refine ht.splice [] [] htouch (fun a ha x hx => ?_) hpx haddr ?_ (fun x hx => ?_)
    (ht.tiles.replace haddr hsize)
  · rw [List.mem_singleton.mp ha]
    exact ht.apart_mid (Nat.le_refl _) (by rw [Block.finish]; omega) hx
  · rw [List.map_singleton, haddr]
    exact ⟨hnext.trans ht.next_mid, trivial⟩
  · rw [List.mem_singleton.mp hx, haddr]
    exact hword

/-- Clearing the allocated bit. -/
theorem setFree (ht : Tiled c h (l ++ b :: r)) (hpx : h'.pxBlockList = h.pxBlockList)
    (hmem : h'.mem = prvBlockSetFree c h.mem b.addr) :
    Tiled c h' (l ++ b.freed :: r) ∧ Touched c [b.addr] h.mem h'.mem := by
  obtain ⟨hword, hnext, htouch⟩ := prvBlockSetFree_spec (c := c) (m := h.mem) (a := b.addr)
  rw [← hmem] at hword hnext htouch
  refine ⟨ht.mark hpx rfl rfl ?_ hnext htouch, htouch⟩
  have hb : b ∈ l ++ b :: r := by simp
  rw [hword, ht.word b hb, wordOf_and_mask (ht.size_lt hb)]
  rfl

/-- Taking a block out and putting it back, at the level of the links. -/
theorem relink {L R : List Nat} {x : Nat} (hl : Leads c h (L ++ x :: R) none)
    (hs : Spread c (L ++ x :: R)) (hx : Holds c (some x)) (hR : Holds c R.head?)
    (hlen : (L ++ x :: R).length ≤ heapSize) :
    ∃ h₁, removeBlock c h x heapSize none h.pxBlockList = some h₁ ∧
      findPosition c h₁.mem x heapSize none h₁.pxBlockList = some (L.getLast?, R.head?) ∧
      ∃ h', link c { h₁ with mem := setNext c h₁.mem x R.head? } L.getLast? (some x) = h' ∧
        Leads c h' (L ++ x :: R) none ∧ SameStats h h' ∧ Touched c (L ++ [x]) h.mem h'.mem ∧
        ∀ y ∈ L ++ x :: R, sizeWord c h'.mem y = sizeWord c h.mem y := by
  obtain ⟨hsL, hsR, hLR⟩ := List.pairwise_append.mp hs
  obtain ⟨hxR, -⟩ := List.pairwise_cons.mp hsR
  have hlast : ∀ a ∈ L.getLast?, ∀ y ∈ x :: R, a + c.header ≤ y := fun a ha =>
    hLR a (List.mem_of_getLast? ha)
  have hpx := hl.1
  have hnext := hl.2.next_of_append
  obtain ⟨hlL, -, hpR⟩ := leads_append.mp hl
  rw [Option.or_none] at hpx hnext
  set h₁ := link c h L.getLast? R.head? with hh₁
  set h₂ : Heap := { h₁ with mem := setNext c h₁.mem x R.head? } with hh₂
  have htouch₁ : Touched c L.getLast?.toList h.mem h₁.mem := touched_link c h L.getLast? R.head?
  have htouch₂ : Touched c [x] h₁.mem h₂.mem := touched_setNext c h₁.mem x R.head?
  have htouch₃ := touched_link c h₂ L.getLast? (some x)
  have hpR₁ : Path (next c h₁.mem) R none := hpR.congr fun y hy => htouch₁.next_eq fun a ha =>
    Or.inl (hlast a (by simpa using ha) y (by simp [hy]))
  have hpR₂ : Path (next c h₂.mem) R none := hpR₁.congr fun y hy => htouch₂.next_eq fun a ha => by
    rw [List.mem_singleton.mp ha]
    exact Or.inl (hxR y hy)
  have hl₁ : Leads c h₁ L R.head? := Leads.link hlL hsL hR
  have hl₂ : Leads c h₂ L R.head? := hl₁.congr rfl fun y hy => htouch₂.next_eq fun a ha => by
    rw [List.mem_singleton.mp ha]
    exact Or.inr (hLR y hy x (by simp))
  have hLR₁ : Leads c h₁ (L ++ R) none := leads_append.mpr ⟨by rwa [Option.or_none], hpR₁⟩
  have hpx₁ := hLR₁.1
  rw [Option.or_none] at hpx₁
  have hbelow : ∀ y ∈ L, ¬ x < y := fun y hy => by
    have := hLR y hy x (by simp)
    omega
  have habove : ∀ y ∈ R.head?, x < y := fun y hy => by
    have := hxR y (List.mem_of_mem_head? hy)
    have := c.header_ge
    omega
  have hx_notin : x ∉ L := fun hm => by
    have := hLR x hm x (by simp)
    have := c.header_ge
    omega
  refine ⟨h₁, ?_, ?_, _, rfl, ?_, ?_, ?_, fun y hy => ?_⟩
  · rw [hpx, removeBlock_eq none hl.2 hx_notin hlen, hnext, Option.or_none]
  · have hfuel : (L ++ R).length ≤ heapSize := by
      simp only [List.length_append, List.length_cons] at hlen ⊢
      omega
    rw [hpx₁, findPosition_eq none hLR₁.2 hbelow habove hfuel, Option.or_none]
  · refine leads_append.mpr ⟨by simpa using hl₂.link hsL hx, ?_, ?_⟩
    · rw [htouch₃.next_eq fun a ha => Or.inl (hlast a (by simpa using ha) x (by simp)), Option.or_none]
      exact next_setNext hR
    · exact hpR₂.congr fun y hy => htouch₃.next_eq fun a ha =>
        Or.inl (hlast a (by simpa using ha) y (by simp [hy]))
  · have hstats₂ : SameStats h₁ h₂ := rfl
    exact ((sameStats_link c h _ _).trans hstats₂).trans (sameStats_link c h₂ _ _)
  · have hsub : L.getLast?.toList ⊆ L ++ [x] := fun a ha => by
      have := List.mem_of_getLast? (l := L) (a := a) (by simpa using ha)
      simp [this]
    exact ((htouch₁.mono hsub).trans (htouch₂.mono (by simp))).trans (htouch₃.mono hsub)
  · have hapart : ∀ a ∈ L ++ x :: R, a = y ∨ a + c.header ≤ y ∨ y + c.header ≤ a := fun a ha => by
      by_cases hay : a = y
      · exact Or.inl hay
      · exact Or.inr (hs.apart ha hy hay)
    have hlastmem : ∀ a ∈ L.getLast?, a ∈ L ++ x :: R := fun a ha => by
      simp [List.mem_of_getLast? ha]
    have hsize₂ : sizeWord c h₂.mem y = sizeWord c h₁.mem y := by
      rcases hapart x (by simp) with rfl | hxy
      · exact sizeWord_setNext
      · exact htouch₂.sizeWord_eq fun a ha => by
          rw [List.mem_singleton.mp ha]
          exact hxy
    rw [sizeWord_link fun a ha => hapart a (hlastmem a ha), hsize₂,
      sizeWord_link fun a ha => hapart a (hlastmem a ha)]

/-- **Taking a block out and putting it back** gives the list it came from: the walk of
`prv_insert_block` finds the gap that the removal loop of `os_heap_free` left. -/
theorem reinsert (ht : Tiled c h (l ++ b :: r)) :
    ∃ h₁, removeBlock c h b.addr heapSize none h.pxBlockList = some h₁ ∧
      findPosition c h₁.mem b.addr heapSize none h₁.pxBlockList
        = some ((l.map Block.addr).getLast?, (r.map Block.addr).head?) ∧
      ∃ h', link c { h₁ with mem := setNext c h₁.mem b.addr (r.map Block.addr).head? }
          (l.map Block.addr).getLast? (some b.addr) = h' ∧
        Tiled c h' (l ++ b :: r) ∧ SameStats h h' ∧
        Touched c ((l ++ [b]).map Block.addr) h.mem h'.mem := by
  have hmap : (l ++ b :: r).map Block.addr = l.map Block.addr ++ b.addr :: r.map Block.addr := by simp
  have hr : Tiled c h ((l ++ [b]) ++ r) := by simpa using ht
  obtain ⟨h₁, hremove, hfind, h', hlink, hleads, hstats, htouch, hword⟩ :=
    relink (hmap ▸ ht.leads) (hmap ▸ ht.spread) (ht.holds (by simp)) hr.holds_head
      (by simpa using ht.length_le)
  refine ⟨h₁, hremove, hfind, h', hlink, ⟨hmap ▸ hleads, fun x hx => ?_, ht.tiles⟩, hstats,
    by simpa using htouch⟩
  rw [hword x.addr (hmap ▸ List.mem_map_of_mem hx), ht.word x hx]

/-- **The stages of `os_heap_free`**: the block is marked and put back into its place, where it is
joined first with the block before it and then with the one behind it. -/
theorem osHeapFree_stages (ht : Tiled c h (l ++ b :: r)) (hi : h.heapInitialized = true)
    (hb : b.used = true) :
    ∃ h₁ h₂ h', osHeapFree c h (some (b.data c.header)) = some h' ∧
      Tiled c h₁ (l ++ b.freed :: r) ∧
      SameStats { h with freeBytesRemaining := h.freeBytesRemaining + BitVec.ofNat 32 b.size } h₁ ∧
      Touched c ((l ++ [b.freed]).map Block.addr) h.mem h₁.mem ∧
      MiniRTOS.coalescePrev c h₁ (l.map Block.addr).getLast? b.addr
        = (h₂, (joinPrev c.header l b.freed).2.addr) ∧
      MiniRTOS.coalesceNext c h₂ (joinPrev c.header l b.freed).2.addr = h' := by
  have hmem : b ∈ l ++ b :: r := by simp
  have hblock : b.data c.header - c.header = b.addr := Nat.add_sub_cancel ..
  set h₀ : Heap := { h with
    freeBytesRemaining := h.freeBytesRemaining + BitVec.ofNat 32 (prvBlockGetSize c h.mem b.addr)
    mem := prvBlockSetFree c h.mem b.addr } with hh₀
  obtain ⟨ht₀, htouch₀⟩ := ht.setFree (rfl : h₀.pxBlockList = h.pxBlockList) rfl
  obtain ⟨h₁, hremove, hfind, h₂, hlink, ht₂, hstats₂, htouch₂⟩ := ht₀.reinsert
  obtain ⟨h₃, hprev, -⟩ := ht₂.coalescePrev
  refine ⟨h₂, h₃, _, ?_, ht₂, ?_, ?_, hprev, rfl⟩
  · rw [MiniRTOS.osHeapFree, hblock, if_neg (by rw [hi, ht.isAllocated hmem, hb]; simp)]
    dsimp only
    rw [← hh₀]
    have haddr : b.freed.addr = b.addr := rfl
    rw [haddr] at hremove hfind hlink hprev
    rw [hremove, Option.bind_some, prvInsertBlock, hfind]
    simp only [Option.map_some, hlink, hprev]
  · rw [ht.getSize hmem] at hh₀
    have hstats₀ : SameStats { h with
        freeBytesRemaining := h.freeBytesRemaining + BitVec.ofNat 32 b.size } h₀ := by
      rw [hh₀]
      rfl
    exact hstats₀.trans hstats₂
  · exact (htouch₀.mono (by simp [Block.freed])).trans htouch₂

/-- **`os_heap_free` of an allocated block** releases it on the abstract list. -/
theorem osHeapFree (ht : Tiled c h (l ++ b :: r)) (hi : h.heapInitialized = true)
    (hb : b.used = true) :
    ∃ h', osHeapFree c h (some (b.data c.header)) = some h' ∧
      Tiled c h' (release c.header l b r) ∧
      SameStats { h with freeBytesRemaining := h.freeBytesRemaining + BitVec.ofNat 32 b.size } h' ∧
      Touched c ((l ++ b :: r).map Block.addr) h.mem h'.mem := by
  obtain ⟨h₁, h₂, h', heq, ht₁, hstats₁, htouch₁, hprev, hnext⟩ := ht.osHeapFree_stages hi hb
  obtain ⟨h₂', hprev', ht₂, hstats₂, htouch₂⟩ := ht₁.coalescePrev
  obtain rfl : h₂' = h₂ := (Prod.mk.inj (hprev'.symm.trans hprev)).1
  obtain ⟨h₃, hnext', ht₃, hstats₃, htouch₃⟩ := ht₂.coalesceNext
  obtain rfl : h₃ = h' := hnext'.symm.trans hnext
  refine ⟨h₃, heq, ht₃, (hstats₁.trans hstats₂).trans hstats₃, ?_⟩
  have hjoin : (joinPrev c.header l b.freed).2.addr ∈ (l ++ b :: r).map Block.addr := by
    rcases List.eq_nil_or_concat' l with rfl | ⟨l, p, rfl⟩
    · simp [joinPrev, Block.freed]
    · rw [joinPrev_concat]
      split
      · simp [Block.freed]
      · simp [Block.join]
  have hsub : (l ++ [b.freed]).map Block.addr ⊆ (l ++ b :: r).map Block.addr := by
    intro x hx
    simp only [List.map_append, List.map_cons, List.mem_append, List.mem_cons, Block.freed,
      List.map_nil, List.not_mem_nil, or_false] at hx ⊢
    tauto
  exact ((htouch₁.mono hsub).trans (htouch₂.mono hsub)).trans (htouch₃.mono (by simpa using hjoin))

/-! ## Allocating -/

/-- **The first-fit walk** finds the first free block that is large enough, if there is one. -/
theorem firstFit_eq {n fuel : Nat} (hpath : Path (next c m) (bs.map Block.addr) none)
    (hb : ∀ b ∈ bs, prvBlockGetSize c m b.addr = b.size ∧ prvBlockIsAllocated c m b.addr = b.used)
    (hfuel : bs.length ≤ fuel) :
    (firstFit c m n fuel (bs.map Block.addr).head? = some none ∧
      ∀ b ∈ bs, b.used = true ∨ b.size < n) ∨
    ∃ l b r, bs = l ++ b :: r ∧ b.used = false ∧ n ≤ b.size ∧
      (∀ x ∈ l, x.used = true ∨ x.size < n) ∧
      firstFit c m n fuel (bs.map Block.addr).head? = some (some b.addr) := by
  induction bs generalizing fuel with
  | nil =>
      left
      cases fuel <;> exact ⟨rfl, by simp⟩
  | cons b bs ih =>
      obtain ⟨k, rfl⟩ : ∃ k, fuel = k + 1 := ⟨fuel - 1, by simp at hfuel; omega⟩
      have hnext : next c m b.addr = (bs.map Block.addr).head? := hpath.1.trans (Option.or_none ..)
      obtain ⟨hsize, hused⟩ := hb b (by simp)
      rw [List.map_cons, List.head?_cons, firstFit, hnext, hsize, hused]
      by_cases hfit : b.used = false ∧ n ≤ b.size
      · right
        exact ⟨[], b, bs, rfl, hfit.1, hfit.2, by simp, if_pos hfit⟩
      · have hskip : b.used = true ∨ b.size < n := by
          cases hu : b.used with
          | true => exact Or.inl rfl
          | false => exact Or.inr (Nat.lt_of_not_le fun hle => hfit ⟨hu, hle⟩)
        rw [if_neg hfit]
        rcases ih hpath.2 (fun x hx => hb x (by simp [hx])) (by simpa using hfuel) with
          ⟨hnone, hall⟩ | ⟨l, x, r, rfl, hu, hn, hl, hfound⟩
        · exact Or.inl ⟨hnone, by simpa [hskip] using hall⟩
        · exact Or.inr ⟨b :: l, x, r, rfl, hu, hn, by simpa [hskip] using hl, hfound⟩

/-- **The split** of `os_heap_alloc`. -/
theorem splitBlock {n : Nat} (ht : Tiled c h (l ++ b :: r)) (hn : n + c.header ≤ b.size) :
    Tiled c (splitBlock c h b.addr n) (l ++ ⟨b.addr, n, false⟩ :: b.rest c.header n :: r) ∧
      Touched c [b.addr, b.addr + c.header + n] h.mem (MiniRTOS.splitBlock c h b.addr n).mem := by
  have hb : b ∈ l ++ b :: r := by simp
  have hsize := ht.size_le hb
  simp only [heapSize] at hsize
  set new := b.addr + c.header + n with hnew
  set m₁ := setSizeWord c h.mem new (b.size - n - c.header) with hm₁
  set m₂ := setAllocatedByte c m₁ new 0 with hm₂
  set m₃ := setNext c m₂ new (r.map Block.addr).head? with hm₃
  set m₄ := setSizeWord c m₃ b.addr n with hm₄
  set m₅ := setNext c m₄ b.addr (some new) with hm₅
  have htiles : Tiles c.header c.start (l ++ ⟨b.addr, n, false⟩ :: b.rest c.header n :: r)
      (c.start + heapSize) := by
    have hsplit := ht.tiles.split hn
    exact hsplit.replace rfl rfl
  have htouch₂ : Touched c [new] h.mem m₂ :=
    (touched_setSizeWord c _ _ _).trans (touched_setAllocatedByte c _ _ _)
  have htouch₅ : Touched c [b.addr] m₃ m₅ :=
    (touched_setSizeWord c _ _ _).trans (touched_setNext c _ _ _)
  have hnext₂ : next c m₂ b.addr = (r.map Block.addr).head? := by
    rw [htouch₂.next_eq fun a ha => by
      rw [List.mem_singleton.mp ha]
      exact Or.inr (by omega)]
    exact ht.next_mid
  have hmem : (MiniRTOS.splitBlock c h b.addr n).mem = m₅ := by
    simp only [MiniRTOS.splitBlock, ht.getSize hb, ← hnew, ← hm₁, ← hm₂, hnext₂, ← hm₃, ← hm₄, ← hm₅]
  have htouch : Touched c [b.addr, new] h.mem m₅ :=
    ((htouch₂.mono (by simp)).trans ((touched_setNext c _ _ _).mono (by simp))).trans
      (htouch₅.mono (by simp))
  have hapart : ∀ a ∈ [b.addr], a + c.header ≤ new ∨ new + c.header ≤ a := fun a ha => by
    rw [List.mem_singleton.mp ha]
    exact Or.inl (by omega)
  have hholds : Holds c (some new) := ht.holds_of_within hb (by omega) (by omega)
  have hR : Holds c (r.map Block.addr).head? := by
    have hr : Tiled c h ((l ++ [b]) ++ r) := by simpa using ht
    exact hr.holds_head
  refine ⟨ht.splice [] [b.rest c.header n] (hmem ▸ htouch) (fun a ha x hx => ?_)
    rfl rfl ⟨?_, ?_, trivial⟩ (fun x hx => ?_) htiles, hmem ▸ htouch⟩
  · -- Both headers lie inside the block that is cut.
    simp only [List.mem_cons, List.not_mem_nil, or_false] at ha
    have hin : b.addr ≤ a ∧ a + c.header ≤ b.finish c.header := by
      rw [Block.finish]
      omega
    exact ht.apart_mid hin.1 hin.2 hx
  · rw [hmem]
    exact next_setNext hholds
  · rw [hmem, show (b.rest c.header n).addr = new from rfl, htouch₅.next_eq hapart]
    exact next_setNext hR
  · rw [hmem]
    simp only [List.mem_cons, List.not_mem_nil, or_false] at hx
    rcases hx with rfl | rfl
    · exact sizeWord_setNext.trans (sizeWord_setSizeWord (by omega))
    · rw [show (b.rest c.header n).addr = new from rfl, htouch₅.sizeWord_eq hapart]
      exact (sizeWord_setNext.trans sizeWord_setAllocatedByte).trans (sizeWord_setSizeWord (by omega))

/-- Setting the allocated bit. -/
theorem setAllocated (ht : Tiled c h (l ++ b :: r)) (hb : b.used = false)
    (hpx : h'.pxBlockList = h.pxBlockList) (hmem : h'.mem = prvBlockSetAllocated c h.mem b.addr) :
    Tiled c h' (l ++ b.front b.size :: r) ∧ Touched c [b.addr] h.mem h'.mem := by
  have hmem' : b ∈ l ++ b :: r := by simp
  have hsize := ht.word b hmem'
  rw [wordOf, hb, if_neg (by decide)] at hsize
  obtain ⟨hword, hnext, htouch⟩ :=
    prvBlockSetAllocated_spec (c := c) (m := h.mem) (a := b.addr) (hsize ▸ ht.size_lt hmem')
  rw [← hmem] at hword hnext htouch
  refine ⟨ht.mark hpx rfl rfl ?_ hnext htouch, htouch⟩
  rw [hword, hsize]
  rfl

end Tiled

/-- Take `k` bytes off the counter and note the lowest value. -/
def charge (h : Heap) (k : Nat) : Heap :=
  { h with
    freeBytesRemaining := h.freeBytesRemaining - BitVec.ofNat 32 k
    minFreeBytesEver :=
      if h.freeBytesRemaining - BitVec.ofNat 32 k < h.minFreeBytesEver then
        h.freeBytesRemaining - BitVec.ofNat 32 k
      else h.minFreeBytesEver }

namespace Tiled

variable {bs l r : List Block} {b : Block}

/-- The last part of `os_heap_alloc`: the counter goes down and the block is marked. -/
theorem takeBlock_eq {n k : Nat} {h₁ : Heap}
    (hh₁ : (if n + c.header + heapAlignment ≤ prvBlockGetSize c h.mem a then
        MiniRTOS.splitBlock c h a n
      else { h with freeBytesRemaining :=
        h.freeBytesRemaining - BitVec.ofNat 32 (prvBlockGetSize c h.mem a) }) = h₁)
    (hk : SameStats { h with freeBytesRemaining := h.freeBytesRemaining - BitVec.ofNat 32 k } h₁) :
    (MiniRTOS.takeBlock c h a n).mem = prvBlockSetAllocated c h₁.mem a ∧
      (MiniRTOS.takeBlock c h a n).pxBlockList = h₁.pxBlockList ∧
      SameStats (h.charge k) (MiniRTOS.takeBlock c h a n) := by
  simp only [MiniRTOS.takeBlock, hh₁, charge]
  have hfree : h₁.freeBytesRemaining = h.freeBytesRemaining - BitVec.ofNat 32 k := by rw [hk]
  have hmin : h₁.minFreeBytesEver = h.minFreeBytesEver := by rw [hk]
  rw [hfree, hmin]
  split
  · refine ⟨rfl, rfl, ?_⟩
    rw [SameStats, hk]
  · refine ⟨rfl, rfl, ?_⟩
    rw [SameStats, hk]

/-- **The block found is put to use** on the abstract list. -/
theorem takeBlock {n : Nat} (ht : Tiled c h (l ++ b :: r)) (hb : b.used = false) :
    Tiled c (takeBlock c h b.addr n) (take c.header heapAlignment n l b r) ∧
      SameStats (h.charge (b.taken c.header heapAlignment n)) (MiniRTOS.takeBlock c h b.addr n) ∧
      ∀ x, x < b.addr ∨ b.finish c.header ≤ x →
        (MiniRTOS.takeBlock c h b.addr n).mem x = h.mem x := by
  have hsize := ht.getSize (b := b) (by simp)
  rw [take, Block.taken]
  by_cases hfit : n + c.header + heapAlignment ≤ b.size
  · obtain ⟨hmem, hpx, hstats⟩ := takeBlock_eq (k := n + c.header)
      (if_pos (by rwa [hsize]) : _ = MiniRTOS.splitBlock c h b.addr n) rfl
    obtain ⟨ht₁, htouch₁⟩ := ht.splitBlock (n := n) (by omega)
    obtain ⟨ht₂, htouch₂⟩ := ht₁.setAllocated rfl hpx hmem
    rw [if_pos hfit, if_pos hfit]
    refine ⟨ht₂, hstats, fun x hx => ?_⟩
    rw [Block.finish] at hx
    refine (htouch₁.trans (htouch₂.mono (by simp))) x fun a ha => ?_
    simp only [List.mem_cons, List.not_mem_nil, or_false] at ha
    omega
  · obtain ⟨hmem, hpx, hstats⟩ := takeBlock_eq (k := b.size) (if_neg (by rwa [hsize]))
      (by rw [hsize]; rfl)
    obtain ⟨ht₂, htouch₂⟩ := ht.setAllocated hb hpx hmem
    rw [if_neg hfit, if_neg hfit]
    refine ⟨ht₂, hstats, fun x hx => ?_⟩
    rw [Block.finish] at hx
    refine htouch₂ x fun a ha => ?_
    rw [List.mem_singleton.mp ha]
    omega

/-- **`os_heap_alloc`** returns: either no free block is large enough and nothing changes, or the
first one that is gets taken. -/
theorem osHeapAlloc (ht : Tiled c h bs) (hi : h.heapInitialized = true) (n : Nat) :
    (∃ h', osHeapAlloc c h n = some (h', none) ∧ h'.mem = h.mem ∧ h'.pxBlockList = h.pxBlockList ∧
      h'.freeBytesRemaining = h.freeBytesRemaining ∧ h'.minFreeBytesEver = h.minFreeBytesEver ∧
      h'.heapInitialized = true ∧ (n = 0 ∨ ∀ b ∈ bs, b.used = true ∨ b.size < alignUp 4 n)) ∨
    ∃ h' l b r, n ≠ 0 ∧ osHeapAlloc c h n = some (h', some (b.data c.header)) ∧ bs = l ++ b :: r ∧
      b.used = false ∧ alignUp 4 n ≤ b.size ∧
      (∀ x ∈ l, x.used = true ∨ x.size < alignUp 4 n) ∧
      Tiled c h' (take c.header heapAlignment (alignUp 4 n) l b r) ∧
      SameStats (h.charge (b.taken c.header heapAlignment (alignUp 4 n))) h' ∧
      ∀ x, x < b.addr ∨ b.finish c.header ≤ x → h'.mem x = h.mem x := by
  have hpx := ht.leads.1
  rw [Option.or_none] at hpx
  rw [MiniRTOS.osHeapAlloc]
  by_cases hz : n = 0 ∨ h.heapInitialized = false
  · rw [if_pos hz]
    refine Or.inl ⟨h, rfl, rfl, rfl, rfl, rfl, hi, hz.resolve_right ?_ |> Or.inl⟩
    simp [hi]
  · rw [if_neg hz, hpx]
    dsimp only
    rcases firstFit_eq (n := alignUp 4 n) ht.leads.2
        (fun b hb => ⟨ht.getSize hb, ht.isAllocated hb⟩) ht.length_le with
      ⟨hnone, hsmall⟩ | ⟨l, b, r, rfl, hu, hn, hl, hfound⟩
    · left
      rw [hnone]
      refine ⟨mallocFailed h (alignUp 4 n), rfl, ?_⟩
      rw [mallocFailed]
      split <;> exact ⟨rfl, hpx.symm ▸ rfl, rfl, rfl, hi, Or.inr hsmall⟩
    · right
      obtain ⟨ht', hstats, hframe⟩ := ht.takeBlock (n := alignUp 4 n) hu
      refine ⟨_, l, b, r, fun hz' => hz (Or.inl hz'), ?_, rfl, hu, hn, hl, ht', hstats, hframe⟩
      rw [hfound]
      rfl

end Tiled

end Heap

end MiniRTOS
