import Mathlib.Algebra.BigOperators.Group.List.Basic
import Mathlib.Data.List.Nodup

/-! # Lists of differences

A queue of deadlines can be kept as a list in which every entry stores only the distance from the
entry before it. The deadline of an entry is then a prefix sum:

* **`due d l t`** — the sum of the distances `d` over `l` up to and including `t`.
* **`due_splice`** — an entry that is put in, or taken out, moves no other deadline as long as the entry
  behind it makes up for the distance.
* **`due_eq_zero_iff`** — in natural numbers, what is due now is the run of zero distances in front. -/

namespace DeltaList

universe u v

variable {α : Type u} {M : Type v} [DecidableEq α] [AddCommMonoid M] {d e : α → M} {l r : List α}
  {t x : α}

/-- **The deadline of an entry**: the sum of the distances up to and including it. -/
def due (d : α → M) : List α → α → M
  | [], _ => 0
  | a :: l, t => if a = t then d a else d a + due d l t

/-- The first timer is due after its own difference. -/
theorem due_cons_self (d : α → M) (l : List α) (t : α) : due d (t :: l) t = d t := if_pos rfl

/-- Every other timer is due that much later. -/
theorem due_cons_of_ne (d : α → M) (l : List α) {a : α} (h : a ≠ t) :
    due d (a :: l) t = d a + due d l t := if_neg h

/-- Deadlines only read the distances in the list. -/
theorem due_congr (h : ∀ x ∈ l, e x = d x) : due e l t = due d l t := by
  induction l with
  | nil => rfl
  | cons a l ih =>
      have ha : e a = d a := h a (by simp)
      have hl : due e l t = due d l t := ih fun x hx => h x (by simp [hx])
      rw [due, due, ha, hl]

/-- An entry of the first part does not see the second. -/
theorem due_append_of_mem (h : t ∈ l) : due d (l ++ r) t = due d l t := by
  induction l with
  | nil => simp at h
  | cons a l ih =>
      rw [List.cons_append, due, due]
      split
      · rfl
      · next hne =>
          have ht : t ∈ l := by
            rcases List.mem_cons.mp h with rfl | ht
            · exact absurd rfl hne
            · exact ht
          rw [ih ht]

/-- An entry of the second part waits for the whole first part. -/
theorem due_append_of_not_mem (h : t ∉ l) : due d (l ++ r) t = (l.map d).sum + due d r t := by
  induction l with
  | nil => simp
  | cons a l ih =>
      simp only [List.mem_cons, not_or] at h
      rw [List.cons_append, due_cons_of_ne _ _ (Ne.symm h.1), ih h.2, List.map_cons, List.sum_cons,
        add_assoc]

/-- The deadline of an entry in the middle. -/
theorem due_mid (h : t ∉ l) : due d (l ++ t :: r) t = (l.map d).sum + d t := by
  rw [due_append_of_not_mem h, due_cons_self]

/-- **Putting an entry in, or taking it out.** The distances `e` belong to the list with `t`, the
distances `d` to the one without; they differ only behind `t`, by the distance of `t`. -/
theorem due_splice (hl : ∀ y ∈ l, e y = d y) (hr : ∀ y ∈ r.tail, e y = d y)
    (hhead : ∀ y ∈ r.head?, d y = e t + e y) (hx : x ≠ t) (hmem : x ∈ l ++ r) :
    due e (l ++ t :: r) x = due d (l ++ r) x := by
  by_cases hxl : x ∈ l
  · rw [due_append_of_mem hxl, due_append_of_mem hxl, due_congr hl]
  · have hsum : (l.map e).sum = (l.map d).sum := by rw [List.map_congr_left hl]
    rw [due_append_of_not_mem hxl, due_append_of_not_mem hxl, due_cons_of_ne _ _ (Ne.symm hx), hsum]
    congr 1
    cases r with
    | nil => simp [hxl] at hmem
    | cons i r =>
        have hi : d i = e t + e i := hhead i rfl
        rw [due, due, hi]
        split
        · rfl
        · have hrest : due e r x = due d r x := due_congr hr
          rw [hrest, add_assoc]

/-- **Counting down**: one less at the head is one less for everybody. -/
theorem due_countDown [One M] {h : α} (hh : e h + 1 = d h) (hl : ∀ y ∈ l, e y = d y) :
    due e (h :: l) x + 1 = due d (h :: l) x := by
  rw [due, due]
  split
  · exact hh
  · rw [due_congr hl, ← hh, add_right_comm]

/-! ## Natural numbers -/

section Nat

variable {d e : α → ℕ}

/-- No entry is due before its own distance has passed. -/
theorem le_due (h : t ∈ l) : d t ≤ due d l t := by
  induction l with
  | nil => simp at h
  | cons a l ih =>
      rw [due]
      split
      · next hat =>
          subst hat
          exact Nat.le_refl _
      · next hat =>
          have ht : t ∈ l := by
            rcases List.mem_cons.mp h with rfl | ht
            · exact absurd rfl hat
            · exact ht
          have := ih ht
          omega

/-- A run of zero distances in front delays nobody. -/
theorem due_drop_zeros (hz : ∀ y ∈ l, d y = 0) (hx : x ∉ l) : due d (l ++ r) x = due d r x := by
  have hsum : (l.map d).sum = 0 := by
    refine List.sum_eq_zero fun n hn => ?_
    obtain ⟨y, hy, rfl⟩ := List.mem_map.mp hn
    exact hz y hy
  rw [due_append_of_not_mem hx, hsum, Nat.zero_add]

/-- **What is due now** is the run of zero distances in front. -/
theorem due_eq_zero_iff (hx : x ∈ l) (hnd : l.Nodup) :
    due d l x = 0 ↔ x ∈ l.takeWhile fun y => decide (d y = 0) := by
  induction l with
  | nil => simp at hx
  | cons a l ih =>
      obtain ⟨hal, hnd⟩ := List.nodup_cons.mp hnd
      rw [due, List.takeWhile_cons]
      by_cases hxa : a = x
      · subst hxa
        by_cases hz : d a = 0
        · simp [hz]
        · simp [hz]
      · have hxl : x ∈ l := by
          rcases List.mem_cons.mp hx with rfl | hxl
          · exact absurd rfl hxa
          · exact hxl
        by_cases hz : d a = 0
        · simp [hz, hxa, Ne.symm hxa, ih hxl hnd]
        · simp [hz, hxa]

end Nat

end DeltaList
