import Mathlib.Data.Nat.ModEq
import MiniRTOS.Lib.ByteMemory

/-! # Rings of fixed-size slots

A ring of `n` slots of `sz` bytes each, over byte memory: slot `i` is the range from `i * sz` on. The
contents are the `cnt` slots from slot `a` on, wrapping around at slot `n`.

* **`slots_push`** — writing the slot after the last one appends its bytes.
* **`slots_pop`** — the contents are the first slot followed by the contents from the next one on. -/

namespace ByteRing

open ByteMemory

variable {m : Mem} {sz n a cnt : Nat}

/-- The contents of a ring, first slot first. -/
def slots (m : Mem) (sz n a cnt : Nat) : List (List UInt8) :=
  (List.range cnt).map fun i => readBytes m ((a + i) % n * sz) sz

/-- A ring without items has no slots. -/
@[simp] theorem slots_zero : slots m sz n a 0 = [] := rfl

/-- Two slots of the ring at different distances from the first one are different. -/
theorem mod_ne_of_lt {i j : Nat} (hi : i < n) (hj : j < n) (hij : i ≠ j) :
    (a + i) % n ≠ (a + j) % n := by
  intro h
  have hmod : a + i ≡ a + j [MOD n] := h
  have hij' : i ≡ j [MOD n] := Nat.ModEq.add_left_cancel' a hmod
  exact hij (Nat.ModEq.eq_of_lt_of_lt hij' hi hj)

/-- Different slots do not overlap. -/
theorem slot_disjoint {i j : Nat} (h : i ≠ j) : i * sz + sz ≤ j * sz ∨ j * sz + sz ≤ i * sz := by
  rcases Nat.lt_or_gt_of_ne h with h | h
  · left
    have := Nat.mul_le_mul_right sz h
    rwa [Nat.succ_mul] at this
  · right
    have := Nat.mul_le_mul_right sz h
    rwa [Nat.succ_mul] at this

/-- **Writing the slot behind the last one** appends to the contents. -/
theorem slots_push {bs : List UInt8} (hcnt : cnt < n) (hlen : bs.length = sz) :
    slots (writeBytes m ((a + cnt) % n * sz) bs) sz n a (cnt + 1) = slots m sz n a cnt ++ [bs] := by
  unfold slots
  rw [List.range_succ, List.map_append]
  congr 1
  · refine List.map_congr_left fun i hi => ?_
    have hi' : i < cnt := List.mem_range.mp hi
    have hne : (a + i) % n ≠ (a + cnt) % n := mod_ne_of_lt (by omega) hcnt (by omega)
    apply readBytes_writeBytes_of_disjoint
    rw [hlen]
    exact slot_disjoint hne
  · rw [List.map_singleton, ← hlen, readBytes_writeBytes_self]

/-- **Taking the first slot.** -/
theorem slots_pop (hcnt : 0 < cnt) :
    slots m sz n a cnt = readBytes m (a % n * sz) sz :: slots m sz n ((a + 1) % n) (cnt - 1) := by
  obtain ⟨c, rfl⟩ : ∃ c, cnt = c + 1 := ⟨cnt - 1, by omega⟩
  unfold slots
  rw [List.range_succ_eq_map, List.map_cons, List.map_map, Nat.add_sub_cancel]
  congr 1
  refine List.map_congr_left fun i _ => ?_
  have hmod : ((a + 1) % n + i) % n = (a + (i + 1)) % n := by
    rw [Nat.mod_add_mod]
    congr 1
    omega
  simp only [Function.comp_apply, Nat.succ_eq_add_one, hmod]

/-- The offset of the next slot, computed on byte offsets. -/
theorem next_offset : (a * sz + sz) % (sz * n) = (a + 1) % n * sz := by
  have h : a * sz + sz = sz * (a + 1) := by rw [Nat.mul_add, Nat.mul_one, Nat.mul_comm]
  rw [h, Nat.mul_mod_mul_left, Nat.mul_comm]

end ByteRing
