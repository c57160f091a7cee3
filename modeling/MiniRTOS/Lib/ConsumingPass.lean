import Mathlib.Data.List.Basic
import Mathlib.Data.List.Nodup

/-! # One pass over waiters that consume

A level is offered to the elements of a list in turn. An element that the level satisfies is served: it
sees the level it finds and leaves a new one to the elements behind it. The others stay.

* **`served`, `left`, `level`** — who is served and with which level, who stays, what is left over.
* **`served_append`, `left_append`, `level_append`** — a pass over two lists is two passes.
* **`exists_cause`** — whoever the level satisfied at first and not in its turn lost that to somebody
  served ahead of it. -/

namespace ConsumingPass

variable {τ β : Type*} (sat : τ → β → Bool) (leaves : τ → β → β)

/-- The elements that are served, each with the level it finds. -/
def served : β → List τ → List (τ × β)
  | _, [] => []
  | b, t :: l => if sat t b then (t, b) :: served (leaves t b) l else served b l

/-- The elements that stay. -/
def left : β → List τ → List τ
  | _, [] => []
  | b, t :: l => if sat t b then left (leaves t b) l else t :: left b l

/-- The level after the pass. -/
def level : β → List τ → β
  | b, [] => b
  | b, t :: l => if sat t b then level (leaves t b) l else level b l

variable {sat leaves} {sat' : τ → β → Bool} {leaves' : τ → β → β} {b : β} {t : τ} {l l' : List τ}

/-! ## One element -/

/-- A first element that is satisfied is served. -/
theorem served_cons_pos (h : sat t b = true) :
    served sat leaves b (t :: l) = (t, b) :: served sat leaves (leaves t b) l := by
  rw [served, if_pos h]

/-- One that is not is passed. -/
theorem served_cons_neg (h : sat t b = false) :
    served sat leaves b (t :: l) = served sat leaves b l := by
  rw [served, if_neg (by simp [h])]

/-- A first element that is served does not stay. -/
theorem left_cons_pos (h : sat t b = true) :
    left sat leaves b (t :: l) = left sat leaves (leaves t b) l := by
  rw [left, if_pos h]

/-- One that is not served stays. -/
theorem left_cons_neg (h : sat t b = false) :
    left sat leaves b (t :: l) = t :: left sat leaves b l := by
  rw [left, if_neg (by simp [h])]

/-- A first element that is served sets the level to what it leaves. -/
theorem level_cons_pos (h : sat t b = true) :
    level sat leaves b (t :: l) = level sat leaves (leaves t b) l := by
  rw [level, if_pos h]

/-- One that is not leaves it. -/
theorem level_cons_neg (h : sat t b = false) :
    level sat leaves b (t :: l) = level sat leaves b l := by
  rw [level, if_neg (by simp [h])]

/-! ## Passes compose -/

/-- Serving two lists in a row. -/
theorem served_append : served sat leaves b (l ++ l')
    = served sat leaves b l ++ served sat leaves (level sat leaves b l) l' := by
  induction l generalizing b with
  | nil => rfl
  | cons t l ih =>
      rw [List.cons_append]
      cases h : sat t b with
      | true => rw [served_cons_pos h, served_cons_pos h, level_cons_pos h, ih, List.cons_append]
      | false => rw [served_cons_neg h, served_cons_neg h, level_cons_neg h, ih]

/-- Who stays of two lists in a row. -/
theorem left_append : left sat leaves b (l ++ l')
    = left sat leaves b l ++ left sat leaves (level sat leaves b l) l' := by
  induction l generalizing b with
  | nil => rfl
  | cons t l ih =>
      rw [List.cons_append]
      cases h : sat t b with
      | true => rw [left_cons_pos h, left_cons_pos h, level_cons_pos h, ih]
      | false => rw [left_cons_neg h, left_cons_neg h, level_cons_neg h, ih, List.cons_append]

/-- The level after two lists in a row. -/
theorem level_append : level sat leaves b (l ++ l')
    = level sat leaves (level sat leaves b l) l' := by
  induction l generalizing b with
  | nil => rfl
  | cons t l ih =>
      rw [List.cons_append]
      cases h : sat t b with
      | true => rw [level_cons_pos h, level_cons_pos h, ih]
      | false => rw [level_cons_neg h, level_cons_neg h, ih]

/-! ## Who is served -/

/-- Only the elements of the list matter. -/
theorem pass_congr (hs : ∀ t ∈ l, sat t = sat' t) (hl : ∀ t ∈ l, leaves t = leaves' t) (b : β) :
    served sat leaves b l = served sat' leaves' b l ∧ left sat leaves b l = left sat' leaves' b l ∧
      level sat leaves b l = level sat' leaves' b l := by
  induction l generalizing b with
  | nil => exact ⟨rfl, rfl, rfl⟩
  | cons t l ih =>
      have hs' := hs t (List.mem_cons_self ..)
      have hl' := hl t (List.mem_cons_self ..)
      have ih' := ih (fun x hx => hs x (List.mem_cons_of_mem _ hx))
        fun x hx => hl x (List.mem_cons_of_mem _ hx)
      obtain ⟨h₁, h₂, h₃⟩ := ih' b
      obtain ⟨g₁, g₂, g₃⟩ := ih' (leaves t b)
      refine ⟨?_, ?_, ?_⟩
      · rw [served, served, g₁, h₁, hs', hl']
      · rw [left, left, g₂, h₂, hs', hl']
      · rw [level, level, g₃, h₃, hs', hl']

/-- The served elements keep their order. -/
theorem served_sublist : ((served sat leaves b l).map Prod.fst).Sublist l := by
  induction l generalizing b with
  | nil => exact List.Sublist.refl _
  | cons t l ih =>
      cases h : sat t b with
      | true =>
          rw [served_cons_pos h, List.map_cons]
          exact ih.cons_cons t
      | false =>
          rw [served_cons_neg h]
          exact ih.cons t

/-- So do those that stay. -/
theorem left_sublist : (left sat leaves b l).Sublist l := by
  induction l generalizing b with
  | nil => exact List.Sublist.refl _
  | cons t l ih =>
      cases h : sat t b with
      | true =>
          rw [left_cons_pos h]
          exact ih.cons t
      | false =>
          rw [left_cons_neg h]
          exact ih.cons_cons t

/-- A served element is satisfied by the level it finds. -/
theorem sat_of_served {p : τ × β} (h : p ∈ served sat leaves b l) : sat p.1 p.2 = true := by
  induction l generalizing b with
  | nil => cases h
  | cons t l ih =>
      cases ht : sat t b with
      | true =>
          rw [served_cons_pos ht] at h
          rcases List.mem_cons.mp h with rfl | h
          · exact ht
          · exact ih h
      | false =>
          rw [served_cons_neg ht] at h
          exact ih h

/-- Those that stay are those that are not served, in the same order. -/
theorem left_eq_filter [DecidableEq τ] (hnd : l.Nodup) :
    left sat leaves b l = l.filter fun t => decide (t ∉ (served sat leaves b l).map Prod.fst) := by
  induction l generalizing b with
  | nil => rfl
  | cons t l ih =>
      obtain ⟨ht, hnd⟩ := List.nodup_cons.mp hnd
      cases h : sat t b with
      | true =>
          rw [left_cons_pos h, served_cons_pos h, ih hnd, List.map_cons, List.filter_cons_of_neg (by simp)]
          refine List.filter_congr fun x hx => ?_
          have hxt : x ≠ t := fun hxt => ht (hxt ▸ hx)
          simp [hxt]
      | false =>
          have hout : t ∉ (served sat leaves b l).map Prod.fst := fun hm => ht (served_sublist.subset hm)
          rw [left_cons_neg h, served_cons_neg h, List.filter_cons_of_pos (by simpa using hout),
            ih hnd]

/-- The final level is what the served elements leave, one after the other. -/
theorem level_eq_foldl : level sat leaves b l
    = ((served sat leaves b l).map Prod.fst).foldl (fun b t => leaves t b) b := by
  induction l generalizing b with
  | nil => rfl
  | cons t l ih =>
      cases h : sat t b with
      | true => rw [level_cons_pos h, served_cons_pos h, List.map_cons, List.foldl_cons, ih]
      | false => rw [level_cons_neg h, served_cons_neg h, ih]

/-! ## Levels along the pass -/

section Order

variable {r : β → β → Prop} (hrefl : ∀ b, r b b) (htrans : ∀ a b c, r a b → r b c → r a c)
  (hleaves : ∀ t b, r (leaves t b) b)

include hrefl htrans hleaves

/-- Every served element finds a level below the offer. -/
theorem served_below {p : τ × β} (h : p ∈ served sat leaves b l) : r p.2 b := by
  induction l generalizing b with
  | nil => cases h
  | cons t l ih =>
      cases ht : sat t b with
      | true =>
          rw [served_cons_pos ht] at h
          rcases List.mem_cons.mp h with rfl | h
          · exact hrefl b
          · exact htrans _ _ _ (ih h) (hleaves t b)
      | false =>
          rw [served_cons_neg ht] at h
          exact ih h

end Order

/-- **Somebody took it.** An element that the offer satisfies, and what is left over after `l` does not,
stops being satisfied when some element of `l` is served. -/
theorem exists_cause (h : sat t b = true) (h' : sat t (level sat leaves b l) = false) :
    ∃ p ∈ served sat leaves b l, sat t p.2 = true ∧ sat t (leaves p.1 p.2) = false := by
  induction l generalizing b with
  | nil => cases h.symm.trans h'
  | cons u l ih =>
      cases hu : sat u b with
      | true =>
          rw [level_cons_pos hu] at h'
          rw [served_cons_pos hu]
          cases hafter : sat t (leaves u b) with
          | true =>
              obtain ⟨p, hp, hcause⟩ := ih hafter h'
              exact ⟨p, List.mem_cons_of_mem _ hp, hcause⟩
          | false => exact ⟨(u, b), List.mem_cons_self .., h, hafter⟩
      | false =>
          rw [level_cons_neg hu] at h'
          rw [served_cons_neg hu]
          exact ih h h'

/-- An element between two parts of the list stays exactly when the level it finds does not satisfy
it. -/
theorem mem_left_iff (hnd : (l ++ t :: l').Nodup) :
    t ∈ left sat leaves b (l ++ t :: l') ↔ sat t (level sat leaves b l) = false := by
  obtain ⟨-, hnd', hdisj⟩ := List.nodup_append.mp hnd
  have hfront : t ∉ l := fun ht => hdisj t ht t (List.mem_cons_self ..) rfl
  have hback : t ∉ l' := (List.nodup_cons.mp hnd').1
  rw [left_append, List.mem_append]
  cases h : sat t (level sat leaves b l) with
  | true =>
      rw [left_cons_pos h]
      refine iff_of_false ?_ (by simp)
      rintro (hm | hm)
      · exact hfront (left_sublist.subset hm)
      · exact hback (left_sublist.subset hm)
  | false =>
      rw [left_cons_neg h]
      exact iff_of_true (Or.inr (List.mem_cons_self ..)) rfl

end ConsumingPass
