import Mathlib.Data.Nat.ModEq

/-! # Rings that keep the last items of a history

A ring of `n` slots that is written round and round keeps the last `n` items of what was written.

* **`recent n h`** — the last `n` items of the history `h`, oldest first.
* **`Holds buf h`** — each of these items lies in the slot of its index modulo `n`.
* **`holds_push`** — writing the slot after the newest one.
* **`Holds.read_partial`**, **`Holds.read_full`** — where the `i`-th oldest item is found before and
  after the ring first fills. -/

namespace HistoryRing

universe u

variable {α : Type u} {n : Nat} {buf : Vector α n} {h : List α} {x : α}

/-! ## The last items -/

/-- The last `n` items of a history. -/
def recent (n : Nat) (h : List α) : List α := h.drop (h.length - n)

/-- Nothing is recent in an empty history. -/
@[simp] theorem recent_nil : recent n ([] : List α) = [] := List.drop_nil

/-- There are `n` of them once the history is that long. -/
@[simp] theorem length_recent : (recent n h).length = min h.length n := by
  unfold recent
  rw [List.length_drop]
  omega

/-- A short history is kept whole. -/
theorem recent_of_le (hn : h.length ≤ n) : recent n h = h := by
  unfold recent
  rw [Nat.sub_eq_zero_of_le hn, List.drop_zero]

/-- The recent entries are the last ones of the history. -/
theorem getElem?_recent (i : Nat) : (recent n h)[i]? = h[h.length - n + i]? := by
  unfold recent
  rw [List.getElem?_drop]

/-! ## The slots -/

/-- **The ring holds the last items of `h`**, item `j` in slot `j % n`. -/
def Holds (buf : Vector α n) (h : List α) : Prop :=
  ∀ j < h.length, h.length ≤ j + n → buf[j % n]? = h[j]?

/-- Any ring holds an empty history. -/
theorem holds_nil (buf : Vector α n) : Holds buf [] := by
  intro j hj
  exact absurd hj (Nat.not_lt_zero j)

/-- **Writing behind the newest item.** The slot written is the one of the oldest item of a full
ring, which falls out of the last `n`. -/
theorem holds_push (hb : Holds buf h) {k : Nat} (hk : k < n) (hkh : k = h.length % n) :
    Holds (buf.set k x hk) (h ++ [x]) := by
  intro j hj hnear
  rw [List.length_append, List.length_singleton] at hj hnear
  rcases Nat.lt_succ_iff_lt_or_eq.mp hj with hold | rfl
  · -- an older item: less than `n` behind, so in another slot
    have hne : k ≠ j % n := by
      intro heq
      have hmod : j ≡ h.length [MOD n] := (heq.symm.trans hkh)
      have hdvd : n ∣ h.length - j := (Nat.modEq_iff_dvd' hold.le).mp hmod
      have hle : n ≤ h.length - j := Nat.le_of_dvd (by omega) hdvd
      omega
    rw [Vector.getElem?_set_ne hk hne, List.getElem?_append_left hold]
    exact hb j hold (by omega)
  · rw [← hkh, Vector.getElem?_set_self hk, List.getElem?_concat_length]

/-- Before the ring is full, the `i`-th oldest item is in slot `i`. -/
theorem Holds.read_partial (hb : Holds buf h) (hlen : h.length < n) {i : Nat}
    (hi : i < h.length) : buf[i]? = (recent n h)[i]? := by
  have hslot := hb i hi (by omega)
  rw [Nat.mod_eq_of_lt (by omega)] at hslot
  rw [recent_of_le hlen.le]
  exact hslot

/-- In a full ring it is `i` slots after the one to be written next. -/
theorem Holds.read_full (hb : Holds buf h) (hlen : n ≤ h.length) {i : Nat} (hi : i < n) :
    buf[(h.length % n + i) % n]? = (recent n h)[i]? := by
  have hslot := hb (h.length - n + i) (by omega) (by omega)
  have hpos : (h.length % n + i) % n = (h.length - n + i) % n := by
    have hsum : h.length + i = h.length - n + i + n := by omega
    rw [Nat.mod_add_mod, hsum, Nat.add_mod_right]
  rw [hpos, hslot, getElem?_recent]

end HistoryRing
