import MiniRTOS.Kernel.InitialFrame

/-! # The stack of a new task in memory

`prv_fill_stack` and `os_port_stack_init` write the stack of a new task word by word. On a heap these
words are bytes between block headers, and a frame that is pushed behind its stack falls on the header
of the next block.

* **`stackImage`** — the bytes that both functions write.
* **`sameWords_stackImage`** — they are the words of the kernel's view of its stacks.
* **`Heap.Tiled.stackImage`** — off the headers they leave the list of blocks as it is.
* **`offHeaders_iff`** — which for a stack from the heap is the case exactly when its rounded end is not
  behind its block. -/

namespace MiniRTOS

open ByteMemory Heap Tiling

variable {c : HeapConfig} {h : Heap} {bs : List Block} {m : Mem} {mem : Addr → BitVec 32} {A : Set Nat}
  {base size : Nat} {func param : BitVec 32}

/-! ## What is written -/

/-- `prv_fill_stack`: every byte of the pattern is `0xA5`, and the canary goes to the lowest word. -/
def fillImage (m : Mem) (base size : Nat) : Mem :=
  store (fun x => if base ≤ x ∧ x < base + size / 4 * 4 then 0xA5 else m x) base 4
    stackCanaryValue.toNat

/-- Words stored one after the other. -/
def storeEach (m : Mem) (ws : List (Nat × BitVec 32)) : Mem :=
  ws.foldl (fun m w => store m w.1 4 w.2.toNat) m

/-- `os_port_stack_init`. The ports of the 32-bit targets push the frame; a 64-bit build is the one of
the tests on a host, whose port only computes a stack pointer. -/
def frameImage (c : HeapConfig) (m : Mem) (func param : BitVec 32) (base size : Nat) : Mem :=
  if c.ptrBytes = 4 then storeEach m ((frameWords base size).zip (initialFrame func param)) else m

/-- **The memory behind `os_task_create`**, as far as the stack of the task goes. -/
def stackImage (c : HeapConfig) (m : Mem) (func param : BitVec 32) (base size : Nat) : Mem :=
  frameImage c (fillImage m base size) func param base size

/-! ## The words of the kernel -/

/-- Byte memory and word memory hold the same words at these addresses. -/
def SameWords (A : Set Nat) (m : Mem) (mem : Addr → BitVec 32) : Prop :=
  ∀ a ∈ A, load m a 4 = (mem a).toNat

/-- A word that both store. -/
theorem SameWords.store {a : Nat} (h : SameWords A m mem) (hA : ∀ x ∈ A, x % 4 = 0) (ha : a % 4 = 0)
    (w : BitVec 32) : SameWords A (store m a 4 w.toNat) (Function.update mem a w) := by
  intro x hx
  by_cases hxa : x = a
  · subst hxa
    rw [load_store_self, Function.update_self]
    exact Nat.mod_eq_of_lt w.isLt
  · have hx4 := hA x hx
    rw [Function.update_of_ne hxa, load_store_of_disjoint m (by omega)]
    exact h x hx

/-- Words that both store. -/
theorem SameWords.storeEach {ws : List (Nat × BitVec 32)} (h : SameWords A m mem)
    (hA : ∀ x ∈ A, x % 4 = 0) (hws : ∀ w ∈ ws, w.1 % 4 = 0) :
    SameWords A (storeEach m ws) (ws.foldl (fun m w => Function.update m w.1 w.2) mem) := by
  induction ws generalizing m mem with
  | nil => exact h
  | cons w ws ih =>
      exact ih (h.store hA (hws w List.mem_cons_self) w.2) fun x hx => hws x (List.mem_cons_of_mem _ hx)

/-- The addresses of a frame are those of words. -/
theorem mod_four_of_mem_frameWords {a : Nat} (h : a ∈ frameWords base size) : a % 4 = 0 := by
  obtain ⟨i, -, rfl⟩ := mem_frameWords.mp h
  unfold stackTop
  omega

/-- The pattern, in bytes and in words: the words of the stack need not have been the same before. -/
theorem sameWords_fill (hA : ∀ x ∈ A, x % 4 = 0) (hbase : base % 4 = 0)
    (h : ∀ x ∈ A, ¬ (base ≤ x ∧ x < base + size / 4 * 4) → load m x 4 = (mem x).toNat) :
    SameWords A (fillImage m base size) (prvFillStack mem base size) := by
  refine SameWords.store (fun x hx => ?_) hA hbase stackCanaryValue
  have hx4 := hA x hx
  by_cases hin : base ≤ x ∧ x < base + size / 4 * 4
  · obtain ⟨i, rfl⟩ : ∃ i, x = base + 4 * i := ⟨(x - base) / 4, by omega⟩
    rw [foldl_fill, if_pos (by omega)]
    -- the four bytes of the word are equal
    have hword : load (fun x => if base ≤ x ∧ x < base + size / 4 * 4 then 0xA5 else m x)
        (base + 4 * i) 4 = load (fun _ => 0xA5) (base + 4 * i) 4 :=
      load_congr fun y hy hy' => if_pos (by omega)
    have hbytes : readBytes (fun _ => 0xA5) (base + 4 * i) 4 = [0xA5, 0xA5, 0xA5, 0xA5] := rfl
    rw [hword, load, hbytes]
    decide
  · rw [foldl_fill_of_ne fun i hi heq => hin (by omega), ← h x hx hin]
    refine load_congr fun y hy hy' => if_neg fun hmem => hin ?_
    omega

/-- **The kernel's view of a new stack**: the bytes that a creation writes are the words that the kernel
model writes. -/
theorem sameWords_stackImage (hptr : c.ptrBytes = 4) (hA : ∀ x ∈ A, x % 4 = 0) (hbase : base % 4 = 0)
    (h : ∀ x ∈ A, ¬ (base ≤ x ∧ x < base + size / 4 * 4) → load m x 4 = (mem x).toNat)
    (func param : BitVec 32) :
    SameWords A (stackImage c m func param base size)
      (osPortStackInit (prvFillStack mem base size) func param base size).2 := by
  rw [stackImage, frameImage, if_pos hptr, osPortStackInit_eq_foldl]
  refine (sameWords_fill hA hbase h).storeEach hA fun w hw => ?_
  exact mod_four_of_mem_frameWords (List.of_mem_zip hw).1

/-! ## The headers of the heap -/

/-- **The writes miss every header**: the pattern, whose words lie in the address space, and the frame. -/
def OffHeaders (c : HeapConfig) (bs : List Block) (base size : Nat) : Prop :=
  base + size ≤ 256 ^ c.ptrBytes ∧
    ∀ b ∈ bs, (b.addr + c.header ≤ base ∨ base + max 4 (size / 4 * 4) ≤ b.addr) ∧
      (c.ptrBytes = 4 → ∀ a ∈ frameWords base size, b.addr + c.header ≤ a ∨ a + 4 ≤ b.addr)

/-- Whether a stack keeps off the headers can be decided. -/
instance (c : HeapConfig) (bs : List Block) (base size : Nat) : Decidable (OffHeaders c bs base size) :=
  inferInstanceAs (Decidable (_ ∧ _))

/-- The pattern changes no byte behind the stack or below it. -/
theorem fillImage_of_notMem {x : Nat} (h : x < base ∨ base + max 4 (size / 4 * 4) ≤ x) :
    fillImage m base size x = m x := by
  rw [fillImage, store_of_not_mem _ (by omega), if_neg (by omega)]

/-- Stores change their own words only. -/
theorem storeEach_of_notMem {ws : List (Nat × BitVec 32)} {x : Nat}
    (h : ∀ w ∈ ws, x < w.1 ∨ w.1 + 4 ≤ x) : storeEach m ws x = m x := by
  induction ws generalizing m with
  | nil => rfl
  | cons w ws ih =>
      rw [storeEach, List.foldl_cons]
      refine (ih fun v hv => h v (List.mem_cons_of_mem _ hv)).trans ?_
      exact store_of_not_mem m (h w List.mem_cons_self)

/-- A frame changes its own words only. -/
theorem frameImage_of_notMem {x : Nat}
    (h : c.ptrBytes = 4 → ∀ a ∈ frameWords base size, x < a ∨ a + 4 ≤ x) :
    frameImage c m func param base size x = m x := by
  rw [frameImage]
  split
  · next hptr => exact storeEach_of_notMem fun w hw => h hptr w.1 (List.of_mem_zip hw).1
  · rfl

/-- **Off the headers** a new stack leaves the list of blocks as it is. -/
theorem Heap.Tiled.stackImage (ht : Tiled c h bs) (hoff : OffHeaders c bs base size)
    (func param : BitVec 32) :
    Tiled c { h with mem := MiniRTOS.stackImage c h.mem func param base size } bs := by
  refine ht.congr rfl fun b hb x hx hx' => ?_
  obtain ⟨hfill, hframe⟩ := hoff.2 b hb
  show frameImage c (fillImage h.mem base size) func param base size x = h.mem x
  rw [frameImage_of_notMem fun hptr a ha => ?_, fillImage_of_notMem (by omega)]
  rcases hframe hptr a ha with hle | hle
  · exact Or.inl (Nat.lt_of_lt_of_le hx' hle)
  · exact Or.inr (Nat.le_trans hle hx)

/-- The rounded end of a stack in the heap. -/
theorem stackTop_of_fits (hptr : c.ptrBytes = 4) (hend : base + size ≤ c.start + heapSize) :
    stackTop base size = (base + size + 7) / 8 * 8 := by
  have hfits := c.fits
  rw [c.start_eq] at hend
  rw [hptr] at hfits
  simp only [heapAlignment, heapSize] at hend hfits
  rw [stackTop, Nat.mod_eq_of_lt (by omega)]

/-- A push below a stack pointer that is high enough. -/
theorem push_mod {sp k : Nat} (hk : k ≤ sp) (hlt : sp < 2 ^ 32) : (sp + 2 ^ 32 - k) % 2 ^ 32 = sp - k := by
  omega

/-- The stack pointer that the pushes start from lies in the address space. -/
theorem stackTop_lt (base size : Nat) : stackTop base size < 2 ^ 32 :=
  Nat.lt_of_le_of_lt (Nat.div_mul_le_self ..) (Nat.mod_lt _ (by decide))

/-- The words of a frame lie within 64 bytes below its top. -/
theorem mem_frameWords_bounds {a : Nat} (hptr : c.ptrBytes = 4) (hend : base + size ≤ c.start + heapSize)
    (hmin : 128 ≤ size) (ha : a ∈ frameWords base size) :
    base + 64 ≤ a ∧ a + 4 ≤ stackTop base size := by
  obtain ⟨i, hi, rfl⟩ := mem_frameWords.mp ha
  have htop := stackTop_of_fits hptr hend
  rw [push_mod (by omega) (stackTop_lt base size)]
  omega

/-- **A stack from the heap**: its writes miss every header exactly when its end, rounded up to a multiple
of 8, is not behind its block. -/
theorem offHeaders_iff {b : Block} (ht : Tiled c h bs) (hptr : c.ptrBytes = 4) (hb : b ∈ bs)
    (hmin : 128 ≤ size) (hsize : size ≤ b.size) :
    OffHeaders c bs (b.data c.header) size ↔
      stackTop (b.data c.header) size ≤ b.finish c.header := by
  have hbounds := ht.tiles.bounds hb
  have hfits := c.start_fits
  have hend : b.data c.header + size ≤ b.finish c.header := by
    rw [Block.data, Block.finish]
    omega
  have hin : b.data c.header + size ≤ c.start + heapSize := Nat.le_trans hend hbounds.2
  have htop := stackTop_of_fits hptr hin
  have hhdr := c.header_ge
  constructor
  · rintro ⟨-, hoff⟩
    by_contra hbehind
    obtain ⟨l, r, rfl⟩ := List.append_of_mem hb
    have htiles := (tiles_mid.mp ht.tiles).2
    cases r with
    | nil =>
        -- the heap ends at a multiple of 8
        obtain ⟨n, hn⟩ := c.dvd_start
        have hlast : b.finish c.header = c.start + heapSize := htiles
        simp only [heapAlignment, heapSize] at hn hlast
        omega
    | cons x r =>
        have hx : x.addr = b.finish c.header := htiles.1
        have hword : stackTop (b.data c.header) size - 4 ∈ frameWords (b.data c.header) size := by
          refine mem_frameWords.mpr ⟨0, by decide, ?_⟩
          rw [push_mod (by omega) (stackTop_lt _ size)]
        have hmiss : x.addr + c.header ≤ stackTop (b.data c.header) size - 4 ∨
            stackTop (b.data c.header) size - 4 + 4 ≤ x.addr := (hoff x (by simp)).2 hptr _ hword
        omega
  · intro hle
    refine ⟨by omega, fun x hx => ?_⟩
    by_cases hxb : x = b
    · subst hxb
      refine ⟨Or.inl (Nat.le_refl _), fun _ a ha => Or.inl ?_⟩
      exact Nat.le_trans (Nat.le_add_right _ 64) (mem_frameWords_bounds hptr hin hmin ha).1
    · rcases ht.tiles.apart hb hx (Ne.symm hxb) with hapart | hapart
      · refine ⟨Or.inr (by omega), fun _ a ha => Or.inr ?_⟩
        exact Nat.le_trans (mem_frameWords_bounds hptr hin hmin ha).2 (Nat.le_trans hle hapart)
      · have hbelow : x.addr + c.header ≤ b.data c.header := by
          rw [Block.finish] at hapart
          rw [Block.data]
          omega
        refine ⟨Or.inl hbelow, fun _ a ha => Or.inl ?_⟩
        have := (mem_frameWords_bounds hptr hin hmin ha).1
        exact Nat.le_trans hbelow (Nat.le_trans (Nat.le_add_right _ 64) this)

end MiniRTOS
