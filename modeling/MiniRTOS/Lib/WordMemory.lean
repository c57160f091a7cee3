import Mathlib.Data.BitVec
import Mathlib.Data.List.Nodup
import Mathlib.Logic.Function.Basic

/-! # Word memory

Memory as load-multiple and store-multiple instructions see it: a function from byte addresses of `w`
bits, which wrap around, to the words stored there. `loadWords` and `storeWords` move a list of words
that lie four bytes apart, the first at the lowest address. `assign` is the same for a register file:
it gives a list of registers the words of a list. -/

namespace WordMemory

variable {w : Nat} {α ι : Type*}

/-! ## Addresses -/

/-- The addresses of `n` words from `a` on. -/
def addrs (a : BitVec w) : Nat → List (BitVec w)
  | 0 => []
  | n + 1 => a :: addrs (a + 4) n

/-- There are `n` addresses. -/
@[simp] theorem length_addrs (a : BitVec w) (n : Nat) : (addrs a n).length = n := by
  induction n generalizing a with
  | zero => rfl
  | succ n ih => rw [addrs, List.length_cons, ih]

/-- The word after the first one, as an offset from the first. -/
theorem next_offset (a : BitVec w) (i : Nat) :
    a + 4 + BitVec.ofNat w (4 * i) = a + BitVec.ofNat w (4 * (i + 1)) := by
  rw [BitVec.add_assoc, Nat.mul_succ, Nat.add_comm (4 * i), BitVec.ofNat_add]
  rfl

/-- The addresses lie four bytes apart. -/
theorem mem_addrs {a x : BitVec w} {n : Nat} :
    x ∈ addrs a n ↔ ∃ i < n, x = a + BitVec.ofNat w (4 * i) := by
  induction n generalizing a with
  | zero => simp [addrs]
  | succ n ih =>
      rw [addrs, List.mem_cons, ih]
      constructor
      · rintro (rfl | ⟨i, hi, rfl⟩)
        · exact ⟨0, Nat.succ_pos n, by simp⟩
        · exact ⟨i + 1, Nat.succ_lt_succ hi, next_offset a i⟩
      · rintro ⟨_ | i, hi, rfl⟩
        · exact Or.inl (by simp)
        · exact Or.inr ⟨i, Nat.lt_of_succ_lt_succ hi, (next_offset a i).symm⟩

/-- The addresses of a range that does not wrap around. -/
theorem toNat_of_mem_addrs {a x : BitVec w} {n : Nat} (h : a.toNat + 4 * n ≤ 2 ^ w)
    (hx : x ∈ addrs a n) : a.toNat ≤ x.toNat ∧ x.toNat < a.toNat + 4 * n := by
  obtain ⟨i, hi, rfl⟩ := mem_addrs.mp hx
  rw [BitVec.toNat_add, BitVec.toNat_ofNat, Nat.mod_eq_of_lt (a := 4 * i) (by omega),
    Nat.mod_eq_of_lt (by omega)]
  omega

/-- The addresses of two ranges that lie one behind the other. -/
theorem addrs_add (a : BitVec w) (n k : Nat) :
    addrs a (n + k) = addrs a n ++ addrs (a + BitVec.ofNat w (4 * n)) k := by
  induction n generalizing a with
  | zero => simp [addrs]
  | succ n ih =>
      rw [Nat.succ_add, addrs, addrs, ih, List.cons_append, next_offset]

/-- A range that does not wrap around has every address once. -/
theorem nodup_addrs (a : BitVec w) {n : Nat} (h : 4 * n ≤ 2 ^ w) : (addrs a n).Nodup := by
  induction n generalizing a with
  | zero => exact List.nodup_nil
  | succ n ih =>
      refine List.nodup_cons.mpr ⟨fun hmem => ?_, ih (a + 4) (by omega)⟩
      obtain ⟨i, hi, heq⟩ := mem_addrs.mp hmem
      -- `a` cannot be one of the words behind it
      have hzero : BitVec.ofNat w (4 + 4 * i) = 0 := by
        rw [BitVec.add_assoc] at heq
        rw [BitVec.ofNat_add]
        exact BitVec.self_eq_add_right.mp heq
      have hmod := congrArg BitVec.toNat hzero
      rw [BitVec.toNat_ofNat, Nat.mod_eq_of_lt (by omega)] at hmod
      simp at hmod

/-! ## Load and store multiple -/

/-- The `n` words from address `a` on. -/
def loadWords (mem : BitVec w → α) (a : BitVec w) (n : Nat) : List α := (addrs a n).map mem

/-- Store the words of a list from address `a` on. -/
def storeWords (mem : BitVec w → α) (a : BitVec w) : List α → BitVec w → α
  | [] => mem
  | x :: xs => storeWords (Function.update mem a x) (a + 4) xs

/-- As many words are loaded as were asked for. -/
@[simp] theorem length_loadWords (mem : BitVec w → α) (a : BitVec w) (n : Nat) :
    (loadWords mem a n).length = n := by
  rw [loadWords, List.length_map, length_addrs]

/-- Words are loaded from their own addresses only. -/
theorem loadWords_congr {mem mem' : BitVec w → α} {a : BitVec w} {n : Nat}
    (h : ∀ x ∈ addrs a n, mem' x = mem x) : loadWords mem' a n = loadWords mem a n :=
  List.map_congr_left h

/-- Words that lie one behind the other are loaded one behind the other. -/
theorem loadWords_add (mem : BitVec w → α) (a : BitVec w) (n k : Nat) :
    loadWords mem a (n + k) = loadWords mem a n ++ loadWords mem (a + BitVec.ofNat w (4 * n)) k := by
  rw [loadWords, addrs_add, List.map_append]
  rfl

/-- **Frame**: a store changes the words at its own addresses only. -/
theorem storeWords_of_notMem {mem : BitVec w → α} {a x : BitVec w} {ws : List α}
    (h : x ∉ addrs a ws.length) : storeWords mem a ws x = mem x := by
  induction ws generalizing mem a with
  | nil => rfl
  | cons v ws ih =>
      rw [List.length_cons, addrs, List.mem_cons, not_or] at h
      rw [storeWords, ih h.2]
      exact Function.update_of_ne h.1 _ _

/-- **Read back**: what was stored is loaded. -/
theorem loadWords_storeWords {mem : BitVec w → α} {a : BitVec w} {ws : List α}
    (h : 4 * ws.length ≤ 2 ^ w) : loadWords (storeWords mem a ws) a ws.length = ws := by
  induction ws generalizing mem a with
  | nil => rfl
  | cons v ws ih =>
      have hnd := nodup_addrs a h
      rw [List.length_cons] at h
      rw [List.length_cons, addrs] at hnd
      obtain ⟨hfirst, -⟩ := List.nodup_cons.mp hnd
      have hv : storeWords mem a (v :: ws) a = v := by
        rw [storeWords, storeWords_of_notMem hfirst]
        exact Function.update_self ..
      have hws : loadWords (storeWords mem a (v :: ws)) (a + 4) ws.length = ws := ih (by omega)
      rw [List.length_cons, loadWords, addrs, List.map_cons, hv]
      exact congrArg (v :: ·) hws

/-- Stores to different addresses commute. -/
theorem update_storeWords {mem : BitVec w → α} {a b : BitVec w} {v : α} {ws : List α}
    (h : b ∉ addrs a ws.length) :
    Function.update (storeWords mem a ws) b v = storeWords (Function.update mem b v) a ws := by
  induction ws generalizing mem a with
  | nil => rfl
  | cons x ws ih =>
      rw [List.length_cons, addrs, List.mem_cons, not_or] at h
      rw [storeWords, storeWords, ih h.2, Function.update_comm (Ne.symm h.1)]

/-- Words that lie one behind the other are stored one behind the other. -/
theorem storeWords_append (mem : BitVec w → α) (a : BitVec w) (xs ys : List α) :
    storeWords mem a (xs ++ ys)
      = storeWords (storeWords mem a xs) (a + BitVec.ofNat w (4 * xs.length)) ys := by
  induction xs generalizing mem a with
  | nil => simp [storeWords]
  | cons x xs ih => rw [List.cons_append, storeWords, storeWords, ih, next_offset, List.length_cons]

/-- **A frame stored from the top**: the words behind may be stored before the words in front. -/
theorem storeWords_append_of_le (mem : BitVec w → α) (a : BitVec w) (xs ys : List α)
    (h : 4 * (xs.length + ys.length) ≤ 2 ^ w) :
    storeWords (storeWords mem (a + BitVec.ofNat w (4 * xs.length)) ys) a xs
      = storeWords mem a (xs ++ ys) := by
  induction xs generalizing mem a with
  | nil => simp [storeWords]
  | cons x xs ih =>
      have hnd := nodup_addrs a h
      rw [List.length_cons, Nat.succ_add, addrs, addrs_add] at hnd
      rw [List.length_cons, Nat.succ_add] at h
      have hx : a ∉ addrs (a + 4 + BitVec.ofNat w (4 * xs.length)) ys.length := by
        intro hmem
        exact (List.nodup_cons.mp hnd).1 (List.mem_append_right _ hmem)
      rw [List.length_cons, ← next_offset, storeWords, update_storeWords hx, List.cons_append,
        storeWords]
      exact ih _ _ (by omega)

/-! ## Register files -/

variable [DecidableEq ι]

/-- Give the registers of a list the words of a list. -/
def assign (file : ι → α) : List ι → List α → ι → α
  | r :: rs, x :: xs => assign (Function.update file r x) rs xs
  | _, _ => file

/-- **Frame**: the registers that are not listed stay. -/
theorem assign_of_notMem {file : ι → α} {rs : List ι} {xs : List α} {q : ι} (h : q ∉ rs) :
    assign file rs xs q = file q := by
  induction rs generalizing file xs with
  | nil => cases xs <;> rfl
  | cons r rs ih =>
      rw [List.mem_cons, not_or] at h
      cases xs with
      | nil => rfl
      | cons x xs =>
          rw [assign, ih h.2]
          exact Function.update_of_ne h.1 _ _

/-- **Read back**: distinct registers hold the words they were given. -/
theorem map_assign {file : ι → α} {rs : List ι} {xs : List α} (hnd : rs.Nodup)
    (hlen : rs.length = xs.length) : rs.map (assign file rs xs) = xs := by
  induction rs generalizing file xs with
  | nil => exact (List.length_eq_zero_iff.mp hlen.symm).symm
  | cons r rs ih =>
      cases xs with
      | nil => cases hlen
      | cons x xs =>
          obtain ⟨hr, hnd⟩ := List.nodup_cons.mp hnd
          have hx : assign (Function.update file r x) rs xs r = x := by
            rw [assign_of_notMem hr]
            exact Function.update_self ..
          rw [List.map_cons, assign, hx, ih hnd (Nat.succ.inj hlen)]

end WordMemory
