import Mathlib.Algebra.Ring.Nat
import Mathlib.Data.List.Range

/-! # Byte memory

Memory seen through a pointer: a function from offsets to bytes. `readBytes` and `writeBytes` copy
ranges out of and into it, as `memcpy` does; the lemmas say what a range holds after a write to the
same range or to a disjoint one. -/

namespace ByteMemory

/-- Memory by byte address. -/
abbrev Mem := Nat → UInt8

/-- The `n` bytes from address `a` on. -/
def readBytes (m : Mem) (a n : Nat) : List UInt8 := (List.range n).map fun i => m (a + i)

/-- Write the bytes of `bs` from address `a` on. -/
def writeBytes (m : Mem) (a : Nat) (bs : List UInt8) : Mem :=
  fun x => if a ≤ x ∧ x < a + bs.length then bs.getD (x - a) 0 else m x

/-- As many bytes are read as were asked for. -/
@[simp] theorem length_readBytes (m : Mem) (a n : Nat) : (readBytes m a n).length = n := by
  simp [readBytes]

/-- A range is determined by its bytes. -/
theorem readBytes_congr {m m' : Mem} {a n : Nat} (h : ∀ x, a ≤ x → x < a + n → m' x = m x) :
    readBytes m' a n = readBytes m a n := by
  refine List.map_congr_left fun i hi => h _ (by omega) ?_
  have := List.mem_range.mp hi
  omega

/-- A write changes no byte outside its range. -/
theorem writeBytes_of_not_mem (m : Mem) {a x : Nat} {bs : List UInt8}
    (h : x < a ∨ a + bs.length ≤ x) : writeBytes m a bs x = m x := by
  rw [writeBytes, if_neg (by omega)]

/-- **Read back**: the written range holds the written bytes. -/
@[simp] theorem readBytes_writeBytes_self (m : Mem) (a : Nat) (bs : List UInt8) :
    readBytes (writeBytes m a bs) a bs.length = bs := by
  refine List.ext_getElem (by simp) fun i hi _ => ?_
  have hi' : i < bs.length := by simpa using hi
  simp [readBytes, writeBytes, hi']

/-- A write leaves a disjoint range alone. -/
theorem readBytes_writeBytes_of_disjoint (m : Mem) {a b n : Nat} {bs : List UInt8}
    (h : b + n ≤ a ∨ a + bs.length ≤ b) : readBytes (writeBytes m a bs) b n = readBytes m b n :=
  readBytes_congr fun x hx hx' => writeBytes_of_not_mem m (by omega)

end ByteMemory
