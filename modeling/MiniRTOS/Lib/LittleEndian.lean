import MiniRTOS.Lib.ByteMemory

/-! # Little-endian words in byte memory

An unsigned integer of `n` bytes at address `a` of a byte memory, lowest byte first:

* **`load m a n`** — the value of the `n` bytes from `a` on.
* **`store m a n v`** — write `v` there; what does not fit in `n` bytes is cut off.

A word read back is the word stored, and a store is invisible to every load of a disjoint range. -/

namespace ByteMemory

/-- The `n` lowest bytes of `v`, lowest first. -/
def toBytes : Nat → Nat → List UInt8
  | 0, _ => []
  | n + 1, v => UInt8.ofNat v :: toBytes n (v / 256)

/-- The value of a list of bytes, lowest first. -/
def ofBytes : List UInt8 → Nat
  | [] => 0
  | b :: bs => b.toNat + 256 * ofBytes bs

/-- The word of `n` bytes at address `a`. -/
def load (m : Mem) (a n : Nat) : Nat := ofBytes (readBytes m a n)

/-- Write the word `v` of `n` bytes at address `a`. -/
def store (m : Mem) (a n v : Nat) : Mem := writeBytes m a (toBytes n v)

/-- A number of `n` bytes has `n` bytes. -/
@[simp] theorem length_toBytes (n v : Nat) : (toBytes n v).length = n := by
  induction n generalizing v with
  | zero => rfl
  | succ n ih => rw [toBytes, List.length_cons, ih]

/-- **Reading bytes back** gives the value modulo the width. -/
theorem ofBytes_toBytes (n v : Nat) : ofBytes (toBytes n v) = v % 256 ^ n := by
  induction n generalizing v with
  | zero => simp [toBytes, ofBytes, Nat.mod_one]
  | succ n ih =>
      rw [toBytes, ofBytes, ih, Nat.pow_succ, Nat.mul_comm (256 ^ n), Nat.mod_mul]
      rfl

/-- **Load after store** at the same place. -/
theorem load_store_self (m : Mem) (a n v : Nat) : load (store m a n v) a n = v % 256 ^ n := by
  have h := readBytes_writeBytes_self m a (toBytes n v)
  rw [length_toBytes] at h
  rw [load, store, h, ofBytes_toBytes]

/-- A store changes no byte outside its range. -/
theorem store_of_not_mem (m : Mem) {a n v x : Nat} (h : x < a ∨ a + n ≤ x) :
    store m a n v x = m x :=
  writeBytes_of_not_mem m (by rwa [length_toBytes])

/-- A word is determined by its bytes. -/
theorem load_congr {m m' : Mem} {a n : Nat} (h : ∀ x, a ≤ x → x < a + n → m' x = m x) :
    load m' a n = load m a n := by
  rw [load, load, readBytes_congr h]

/-- **Load after store** of a disjoint range. -/
theorem load_store_of_disjoint (m : Mem) {a n v b k : Nat} (h : b + k ≤ a ∨ a + n ≤ b) :
    load (store m a n v) b k = load m b k :=
  load_congr fun _ _ _ => store_of_not_mem m (by omega)

end ByteMemory
