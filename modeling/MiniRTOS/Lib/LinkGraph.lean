import Mathlib.Data.Finset.Card
import MiniRTOS.Lib.Links

/-! # Graphs of pointers

A pointer field makes a graph in which every node has at most one successor. A path in it that ends
repeats no node. A path that does not end goes round a cycle, but a walk that clears the pointers it
follows ends even then, since the nodes that it can reach are finitely many.

* **`Path.nodup`** — a path that ends repeats no node.
* **`ClosedUnder`** — a finite set of nodes that no pointer leaves.
* **`linkCount_clear_lt`** — the measure of a walk that clears its pointers. -/

namespace PtrList

universe u

variable {α : Type u} {nx : α → Option α} {l r : List α} {t : α}

/-- The rest of a path, from one of its nodes on. -/
theorem Path.drop_append {q : Option α} (h : Path nx (l ++ r) q) : Path nx r q :=
  ((path_append ..).mp h).2

/-- **A path that ends repeats no node**: what comes after a node depends on the node only. -/
theorem Path.nodup (h : Path nx l none) : l.Nodup := by
  induction l with
  | nil => exact List.nodup_nil
  | cons a l ih =>
      apply List.nodup_cons.mpr
      constructor
      · intro ha
        obtain ⟨l₁, l₂, rfl⟩ := List.append_of_mem ha
        have hagain : Path nx (a :: l₂) none := h.2.drop_append
        have heq : a :: (l₁ ++ a :: l₂) = a :: l₂ := h.unique hagain rfl
        have hlen := congrArg List.length heq
        simp only [List.length_cons, List.length_append] at hlen
        omega
      · exact ih h.2

/-- The nodes of a doubly linked list that ends are distinct. -/
theorem Links.Seg.nodup {s : Links α} {p : Option α} (h : s.Seg p l none) : l.Nodup := h.path.nodup

/-! ## Closed sets -/

variable {S : Finset α}

/-- **No pointer leaves `S`.** -/
def ClosedUnder (nx : α → Option α) (S : Finset α) : Prop := ∀ x ∈ S, ∀ y ∈ nx x, y ∈ S

/-- A path that starts in the set stays in it. -/
theorem ClosedUnder.path_subset {q : Option α} (h : ClosedUnder nx S) (hp : Path nx l q)
    (hhead : ∀ x ∈ l.head?, x ∈ S) : ∀ x ∈ l, x ∈ S := by
  induction l with
  | nil =>
      intro x hx
      cases hx
  | cons a l ih =>
      have ha : a ∈ S := hhead a rfl
      intro x hx
      rcases List.mem_cons.mp hx with rfl | hx
      · exact ha
      · apply ih hp.2 ?_ x hx
        intro y hy
        apply h a ha
        rw [hp.1, Option.mem_def.mp hy]
        rfl

section Finite

variable [DecidableEq α]

/-- A path that starts in the set is no longer than the set is large. -/
theorem ClosedUnder.length_le_card (h : ClosedUnder nx S) (hp : Path nx l none)
    (hhead : ∀ x ∈ l.head?, x ∈ S) : l.length ≤ S.card := by
  rw [← List.toFinset_card_of_nodup hp.nodup]
  apply Finset.card_le_card
  intro x hx
  exact h.path_subset hp hhead x (List.mem_toFinset.mp hx)

/-- A pointer redirected within the set. -/
theorem ClosedUnder.update {v : Option α} (h : ClosedUnder nx S) (hv : ∀ y ∈ v, y ∈ S) :
    ClosedUnder (Function.update nx t v) S := by
  intro x hx y hy
  rw [Function.update_apply] at hy
  split at hy
  · exact hv y hy
  · exact h x hx y hy

/-- A node joins the set, with its pointer cleared. -/
theorem ClosedUnder.insert_clear (h : ClosedUnder nx S) :
    ClosedUnder (Function.update nx t none) (insert t S) := by
  intro x hx y hy
  rw [Function.update_apply] at hy
  split at hy
  · cases hy
  · next hne =>
      rcases Finset.mem_insert.mp hx with rfl | hx
      · exact absurd rfl hne
      · exact Finset.mem_insert_of_mem (h x hx y hy)

/-- The nodes of a set whose pointer is not null. -/
def linkCount (nx : α → Option α) (S : Finset α) : Nat := (S.filter fun x => (nx x).isSome).card

/-- **Clearing a pointer** of the set leaves fewer. -/
theorem linkCount_clear_lt (ht : t ∈ S) (h : (nx t).isSome) :
    linkCount (Function.update nx t none) S < linkCount nx S := by
  apply Finset.card_lt_card
  rw [Finset.ssubset_iff_of_subset]
  · refine ⟨t, Finset.mem_filter.mpr ⟨ht, h⟩, ?_⟩
    rw [Finset.mem_filter, Function.update_self]
    rintro ⟨-, hnone⟩
    cases hnone
  · intro x hx
    obtain ⟨hxS, hsome⟩ := Finset.mem_filter.mp hx
    rw [Function.update_apply] at hsome
    split at hsome
    · cases hsome
    · exact Finset.mem_filter.mpr ⟨hxS, hsome⟩

end Finite

end PtrList
