import MiniRTOS.Lib.LittleEndian
import MiniRTOS.Lib.Links
import Mathlib.Data.List.Range
import Mathlib.Data.Nat.Bitwise

/-! # Free lists threaded through byte memory

A singly linked list whose pointers lie in the memory it manages: each node holds, in its first
bytes, the address of the next one, and the null pointer is the address `0`.

* **`loadPtr p m a`**, **`storePtr p m a q`** — a pointer of `p` bytes at address `a`.
* **`Threaded p m head l`** — from `head` the pointers lead through the nodes of `l` to null.
* **`Grid start stride n`** — the addresses of `n` blocks that lie `stride` bytes apart.

A push writes one pointer, a pop reads one, and a write that misses the pointers of the nodes does
not touch the list. -/

namespace FreeList

open ByteMemory PtrList

/-! ## Pointers in memory -/

/-- The pointer of `p` bytes at address `a`, with `none` for null. -/
def loadPtr (p : Nat) (m : Mem) (a : Nat) : Option Nat :=
  if load m a p = 0 then none else some (load m a p)

/-- Write the pointer `q` of `p` bytes at address `a`. -/
def storePtr (p : Nat) (m : Mem) (a : Nat) (q : Option Nat) : Mem := store m a p (q.getD 0)

variable {p : Nat} {m m' : Mem}

/-- **Read back**: a pointer that fits and is not the address `0` is read as it was written. -/
theorem loadPtr_storePtr_self {a : Nat} {q : Option Nat}
    (hq : ∀ x, q = some x → 0 < x ∧ x < 256 ^ p) : loadPtr p (storePtr p m a q) a = q := by
  rw [loadPtr, storePtr, load_store_self]
  cases q with
  | none => rw [Option.getD_none, Nat.zero_mod, if_pos rfl]
  | some x =>
      obtain ⟨hpos, hlt⟩ := hq x rfl
      rw [Option.getD_some, Nat.mod_eq_of_lt hlt, if_neg (by omega)]

/-- A pointer is determined by its bytes. -/
theorem loadPtr_congr {a : Nat} (h : ∀ x, a ≤ x → x < a + p → m' x = m x) :
    loadPtr p m' a = loadPtr p m a := by
  rw [loadPtr, loadPtr, load_congr h]

/-! ## Threaded lists -/

/-- **A threaded list.** -/
structure Threaded (p : Nat) (m : Mem) (head : Option Nat) (l : List Nat) : Prop where
  /-- `head` points to the first node. -/
  head_eq : head = l.head?
  /-- Each node points to the next one, the last one to nothing. -/
  path : Path (loadPtr p m) l none

/-- The null pointer threads no blocks. -/
theorem Threaded.nil : Threaded p m none [] := ⟨rfl, trivial⟩

/-- A list is read through the pointers of its own nodes only. -/
theorem Threaded.congr {head : Option Nat} {l : List Nat} (h : Threaded p m head l)
    (hm : ∀ a ∈ l, ∀ x, a ≤ x → x < a + p → m' x = m x) : Threaded p m' head l :=
  ⟨h.head_eq, h.path.congr fun a ha => loadPtr_congr (hm a ha)⟩

/-- **Push.** Writing the old head into a block that overlaps no node makes it the first node. -/
theorem Threaded.push {head : Option Nat} {l : List Nat} {b : Nat} (h : Threaded p m head l)
    (hl : ∀ a ∈ l, 0 < a ∧ a < 256 ^ p) (hb : ∀ a ∈ l, a + p ≤ b ∨ b + p ≤ a) :
    Threaded p (storePtr p m b head) (some b) (b :: l) := by
  have hrest : Threaded p (storePtr p m b head) head l :=
    h.congr fun a ha x _ _ => store_of_not_mem m (by have := hb a ha; omega)
  refine ⟨rfl, ?_, hrest.path⟩
  rw [Option.or_none, ← h.head_eq]
  refine loadPtr_storePtr_self fun x hx => hl x ?_
  exact List.mem_of_mem_head? (h.head_eq ▸ hx)

/-- **Pop.** The first node holds the head of the rest. -/
theorem Threaded.pop {head : Option Nat} {b : Nat} {l : List Nat} (h : Threaded p m head (b :: l)) :
    head = some b ∧ Threaded p m (loadPtr p m b) l := by
  refine ⟨h.head_eq, ?_, h.path.2⟩
  rw [h.path.1, Option.or_none]

/-! ## Rounding down with a mask -/

/-- Masking with `~(2 ^ k - 1)` in words of `n` bits rounds down to a multiple of `2 ^ k`. -/
theorem and_two_pow_sub {x n k : Nat} (hx : x < 2 ^ n) (hk : k ≤ n) :
    x &&& (2 ^ n - 2 ^ k) = x / 2 ^ k * 2 ^ k := by
  have hpos : 0 < 2 ^ k := Nat.two_pow_pos k
  have hle : 2 ^ k ≤ 2 ^ n := Nat.pow_le_pow_right (by decide) hk
  have hmask : 2 ^ n - 2 ^ k = 2 ^ n - ((2 ^ k - 1) + 1) := by rw [Nat.sub_add_cancel hpos]
  -- bit by bit: the mask clears the bits below `k`, and above `n` there are none to clear
  refine Nat.eq_of_testBit_eq fun i => ?_
  rw [Nat.testBit_and, hmask, Nat.testBit_two_pow_sub_succ (by omega), Nat.testBit_two_pow_sub_one,
    Nat.testBit_mul_two_pow, Nat.testBit_div_two_pow]
  by_cases hi : k ≤ i
  · simp only [hi, Nat.not_lt.mpr hi, decide_false, Bool.not_false, Bool.and_true, decide_true,
      Bool.true_and, Nat.sub_add_cancel, Bool.and_eq_left_iff_imp, decide_eq_true_eq]
    intro h
    by_contra hin
    have hlt : x < 2 ^ i := lt_of_lt_of_le hx (Nat.pow_le_pow_right (by decide) (by omega))
    rw [Nat.testBit_lt_two_pow hlt] at h
    cases h
  · simp [hi, Nat.lt_of_not_le hi]

/-! ## Blocks in a row -/

/-- The addresses of `n` blocks from `start` on, `stride` bytes apart. -/
def Grid (start stride n : Nat) : List Nat := (List.range n).map fun i => start + i * stride

variable {start stride n : Nat}

/-- A grid of `n` blocks has `n` blocks. -/
@[simp] theorem length_grid : (Grid start stride n).length = n := by
  rw [Grid, List.length_map, List.length_range]

/-- The blocks of a grid lie at multiples of the stride. -/
theorem mem_grid {a : Nat} : a ∈ Grid start stride n ↔ ∃ i, i < n ∧ a = start + i * stride := by
  simp only [Grid, List.mem_map, List.mem_range]
  exact exists_congr fun i => and_congr_right fun _ => eq_comm

/-- One block more is added at the end. -/
theorem grid_succ : Grid start stride (n + 1) = Grid start stride n ++ [start + n * stride] := by
  rw [Grid, List.range_succ, List.map_append]
  rfl

/-- **Blocks do not overlap.** Two different blocks are `stride` bytes apart. -/
theorem grid_apart {a b : Nat} (ha : a ∈ Grid start stride n) (hb : b ∈ Grid start stride n)
    (hab : a ≠ b) : a + stride ≤ b ∨ b + stride ≤ a := by
  obtain ⟨i, -, rfl⟩ := mem_grid.mp ha
  obtain ⟨j, -, rfl⟩ := mem_grid.mp hb
  rcases Nat.lt_trichotomy i j with hij | rfl | hij
  · have := Nat.mul_le_mul_right stride hij
    rw [Nat.succ_mul] at this
    omega
  · exact absurd rfl hab
  · have := Nat.mul_le_mul_right stride hij
    rw [Nat.succ_mul] at this
    omega

/-- The blocks of a grid are different. -/
theorem nodup_grid (h : 0 < stride) : (Grid start stride n).Nodup := by
  refine List.nodup_range.map fun i j hij => ?_
  exact Nat.eq_of_mul_eq_mul_right h (Nat.add_left_cancel hij)

/-- A block lies between the start and the end of the row. -/
theorem grid_bounds {a : Nat} (ha : a ∈ Grid start stride n) :
    start ≤ a ∧ a + stride ≤ start + n * stride := by
  obtain ⟨i, hi, rfl⟩ := mem_grid.mp ha
  have := Nat.mul_le_mul_right stride hi
  rw [Nat.succ_mul] at this
  omega

/-- A row of aligned blocks. -/
theorem dvd_of_mem_grid {d a : Nat} (hs : d ∣ start) (ht : d ∣ stride)
    (ha : a ∈ Grid start stride n) : d ∣ a := by
  obtain ⟨i, -, rfl⟩ := mem_grid.mp ha
  exact Nat.dvd_add hs (Nat.dvd_mul_left_of_dvd ht i)

end FreeList
