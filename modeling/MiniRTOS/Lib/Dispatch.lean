import Mathlib.Data.Set.Insert
import Mathlib.Logic.Function.Basic
import Mathlib.Order.Basic

/-! # Priority dispatch

What a preemptive scheduler has to look at: which task is current, which tasks are ready, and how
urgent each task is. A smaller priority is more urgent. A scheduler is on time while no ready task is
more urgent than the current one.

* **`Outranked`** — a ready task is more urgent than the current one.
* **`wake`**, **`setPrio`** — the two ways in which a task can come to outrank the current one.
* **`outranked_wake`**, **`outranked_setPrio_self`**, **`outranked_setPrio_of_ne`** — who does, after
  such a step from a state where nobody did. -/

universe u v

/-- The part of a scheduler's state that decides who should run. -/
structure Dispatch (τ : Type u) (π : Type v) where
  /-- The task that has the CPU. -/
  current : Option τ
  /-- The tasks that wait for it. -/
  ready : Set τ
  /-- How urgent each task is; smaller is more urgent. -/
  prio : τ → π

namespace Dispatch

variable {τ : Type u} {π : Type v} {d : Dispatch τ π} {c t : τ} {p : π} {W V : Set τ}

/-- **A ready task is more urgent than the current one.** -/
def Outranked [LT π] (d : Dispatch τ π) : Prop :=
  ∃ c ∈ d.current, ∃ t ∈ d.ready, d.prio t < d.prio c

/-- Tasks become ready. -/
def wake (d : Dispatch τ π) (W : Set τ) : Dispatch τ π := { d with ready := d.ready ∪ W }

/-- A task gets another priority. -/
def setPrio [DecidableEq τ] (d : Dispatch τ π) (t : τ) (p : π) : Dispatch τ π :=
  { d with prio := Function.update d.prio t p }

/-- Waking nobody changes nothing. -/
@[simp] theorem wake_empty (d : Dispatch τ π) : d.wake ∅ = d := by
  unfold wake
  rw [Set.union_empty]

/-- Waking twice wakes both sets. -/
theorem wake_wake (d : Dispatch τ π) (W V : Set τ) : (d.wake W).wake V = d.wake (W ∪ V) := by
  unfold wake
  rw [Set.union_assoc]

section
variable [LT π]

/-- Who outranks the current task when that one is known. -/
theorem outranked_iff (hc : d.current = some c) : d.Outranked ↔ ∃ t ∈ d.ready, d.prio t < d.prio c := by
  simp [Outranked, hc]

/-- **Waking tasks.** A task that outranks the current one did so before, or was woken. -/
theorem outranked_wake (hc : d.current = some c) :
    (d.wake W).Outranked ↔ d.Outranked ∨ ∃ t ∈ W, d.prio t < d.prio c := by
  rw [outranked_iff hc, outranked_iff (d := d.wake W) hc]
  constructor
  · rintro ⟨t, ht | ht, hlt⟩
    · exact Or.inl ⟨t, ht, hlt⟩
    · exact Or.inr ⟨t, ht, hlt⟩
  · rintro (⟨t, ht, hlt⟩ | ⟨t, ht, hlt⟩)
    · exact ⟨t, Or.inl ht, hlt⟩
    · exact ⟨t, Or.inr ht, hlt⟩

variable [DecidableEq τ]

/-- **Changing another task's priority.** Only that task can outrank the current one. -/
theorem outranked_setPrio_of_ne (hc : d.current = some c) (hne : t ≠ c) (h : ¬ d.Outranked) :
    (d.setPrio t p).Outranked ↔ t ∈ d.ready ∧ p < d.prio c := by
  rw [outranked_iff hc] at h
  rw [outranked_iff (d := d.setPrio t p) hc]
  have hself : (d.setPrio t p).prio t = p := Function.update_self ..
  have hother : ∀ x, x ≠ t → (d.setPrio t p).prio x = d.prio x :=
    fun x hx => Function.update_of_ne hx _ _
  rw [hother c hne.symm]
  constructor
  · rintro ⟨x, hx, hlt⟩
    by_cases hxt : x = t
    · subst hxt
      exact ⟨hx, hself ▸ hlt⟩
    · exact absurd ⟨x, hx, hother x hxt ▸ hlt⟩ h
  · rintro ⟨ht, hlt⟩
    exact ⟨t, ht, hself.symm ▸ hlt⟩

end

/-- **Changing the current task's priority.** Any other ready task can outrank it afterwards. -/
theorem outranked_setPrio_self [Preorder π] [DecidableEq τ] (hc : d.current = some c) :
    (d.setPrio c p).Outranked ↔ ∃ t ∈ d.ready, t ≠ c ∧ d.prio t < p := by
  rw [outranked_iff (d := d.setPrio c p) hc]
  have hself : (d.setPrio c p).prio c = p := Function.update_self ..
  have hother : ∀ x, x ≠ c → (d.setPrio c p).prio x = d.prio x :=
    fun x hx => Function.update_of_ne hx _ _
  rw [hself]
  constructor
  · rintro ⟨t, ht, hlt⟩
    have hne : t ≠ c := by
      rintro rfl
      exact lt_irrefl _ (hself ▸ hlt)
    exact ⟨t, ht, hne, hother t hne ▸ hlt⟩
  · rintro ⟨t, ht, hne, hlt⟩
    exact ⟨t, ht, (hother t hne).symm ▸ hlt⟩

end Dispatch
