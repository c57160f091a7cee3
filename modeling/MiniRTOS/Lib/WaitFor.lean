import Mathlib.Data.Fintype.Card
import Mathlib.Data.Set.Finite.Basic
import Mathlib.Logic.Relation

/-! # Agents that wait for each other

An agent waits for resources, and a resource has at most one owner. An agent that waits for a resource
waits for its owner, who may wait in turn.

* **`Edge waits owner a b`** — `a` waits for a resource that `b` owns.
* **`Ranked waits owner rank`** — every agent waits only for resources that rank above all it owns.
* **`Ranked.acyclic`** — then nobody waits for itself, not even through others.
* **`exists_end`** — among finitely many agents every chain of waits comes to an end. -/

namespace WaitFor

universe u v w

variable {α : Type u} {ρ : Type v} {β : Type w} [Preorder β]
variable {waits waits' : α → ρ → Prop} {owner owner' : ρ → Option α} {rank : ρ → β}

/-- **Who waits for whom.** -/
def Edge (waits : α → ρ → Prop) (owner : ρ → Option α) (a b : α) : Prop :=
  ∃ r, waits a r ∧ owner r = some b

/-- **The order of the resources**: whoever waits for one owns only lower ones. -/
def Ranked (waits : α → ρ → Prop) (owner : ρ → Option α) (rank : ρ → β) : Prop :=
  ∀ a r r', waits a r → owner r' = some a → rank r' < rank r

/-- Nobody waits at first. -/
theorem ranked_of_idle (h : ∀ a r, ¬ waits a r) : Ranked waits owner rank :=
  fun a r _ hw => absurd hw (h a r)

/-- **One step keeps the order**, when a new wait is in order and nobody who goes on waiting gets a
resource. -/
theorem Ranked.step (h : Ranked waits owner rank)
    (hnew : ∀ a r, waits' a r → waits a r ∨ ∀ r', owner' r' = some a → rank r' < rank r)
    (hold : ∀ a r r', waits a r → waits' a r → owner' r' = some a → owner r' = some a) :
    Ranked waits' owner' rank := by
  intro a r r' hw ho
  rcases hnew a r hw with hw₀ | hlt
  · exact h a r r' hw₀ (hold a r r' hw₀ hw ho)
  · exact hlt r' ho

/-- Along a chain of waits the resources get higher. -/
theorem Ranked.rank_le {a b : α} (h : Ranked waits owner rank)
    (hab : Relation.TransGen (Edge waits owner) a b) :
    ∃ r r', waits a r ∧ owner r' = some b ∧ rank r ≤ rank r' := by
  induction hab with
  | single hab =>
      obtain ⟨r, hw, ho⟩ := hab
      exact ⟨r, r, hw, ho, le_rfl⟩
  | tail _ hbc ih =>
      obtain ⟨r, r', hw, ho, hle⟩ := ih
      obtain ⟨r'', hw'', ho''⟩ := hbc
      exact ⟨r, r'', hw, ho'', hle.trans (h _ r'' r' hw'' ho).le⟩

/-- **Nobody waits for itself**, at once or through others. -/
theorem Ranked.acyclic (h : Ranked waits owner rank) (a : α) :
    ¬ Relation.TransGen (Edge waits owner) a a := by
  intro haa
  obtain ⟨r, r', hw, ho, hle⟩ := h.rank_le haa
  exact lt_irrefl _ (hle.trans_lt (h a r r' hw ho))

/-- **Chains come to an end**: without cycles, and among finitely many agents. -/
theorem exists_end {e : α → α → Prop} {S : Set α} (hS : S.Finite) (hstay : ∀ a ∈ S, ∀ b, e a b → b ∈ S)
    (hac : ∀ a, ¬ Relation.TransGen e a a) {a : α} (ha : a ∈ S) :
    ∃ b ∈ S, Relation.ReflTransGen e a b ∧ ∀ c, ¬ e b c := by
  have hwf : WellFounded fun x y : S => Relation.TransGen e y.1 x.1 := by
    have hfin : Finite S := hS.to_subtype
    have htrans : IsTrans S fun x y => Relation.TransGen e y.1 x.1 :=
      ⟨fun _ _ _ hxy hyz => hyz.trans hxy⟩
    have hirrefl : Std.Irrefl fun x y : S => Relation.TransGen e y.1 x.1 := ⟨fun x hx => hac x.1 hx⟩
    exact Finite.wellFounded_of_trans_of_irrefl _
  -- by induction from the ends of the chains on
  have hall : ∀ x : S, ∃ b ∈ S, Relation.ReflTransGen e x.1 b ∧ ∀ c, ¬ e b c := by
    intro x
    induction x using hwf.induction with
    | _ x ih =>
      by_cases hx : ∃ y, e x.1 y
      · obtain ⟨y, hxy⟩ := hx
        obtain ⟨b, hb, hyb, hend⟩ := ih ⟨y, hstay x.1 x.2 y hxy⟩ (.single hxy)
        exact ⟨b, hb, .head hxy hyb, hend⟩
      · exact ⟨x.1, x.2, .refl, fun c hc => hx ⟨c, hc⟩⟩
  exact hall ⟨a, ha⟩

end WaitFor
