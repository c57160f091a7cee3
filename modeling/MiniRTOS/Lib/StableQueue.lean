import Mathlib.Order.Lattice

/-! # Queues by rank, first come first served among equals

The members of a queue carry a rank, the smaller one first, and a stamp that says when they came.

* **`Ahead rank stamp a b`** — `a` goes before `b`: it has a smaller rank, or the same one and came
  earlier.
* **`pairwise_insert`** — a newcomer that is put behind the members of smaller or equal rank, and in
  front of the first one of larger rank, keeps the queue in order.
* **`rank_head_le`** — the first member has the smallest rank.
* **`idxOf_add_countP`** — the place of a member goes up by the arrivals ahead of it and down by the
  departures ahead of it. -/

namespace StableQueue

universe u v

variable {α : Type u} {β : Type v} [LinearOrder β] {rank rank' : α → β} {stamp stamp' : α → Nat}

/-- **The order of a queue.** -/
def Ahead (rank : α → β) (stamp : α → Nat) (a b : α) : Prop :=
  rank a < rank b ∨ rank a = rank b ∧ stamp a < stamp b

/-- The order can be decided. -/
instance decidableAhead (a b : α) : Decidable (Ahead rank stamp a b) :=
  inferInstanceAs (Decidable (_ ∨ _))

/-- Who is ahead ranks no higher. -/
theorem Ahead.rank_le {a b : α} (h : Ahead rank stamp a b) : rank a ≤ rank b :=
  h.elim le_of_lt fun he => he.1.le

/-- A part of a queue, with the ranks and stamps of its members unchanged, is in order. -/
theorem pairwise_of_sublist {l l' : List α} (h : l.Pairwise (Ahead rank stamp)) (hl : l'.Sublist l)
    (hrank : ∀ a ∈ l', rank' a = rank a) (hstamp : ∀ a ∈ l', stamp' a = stamp a) :
    l'.Pairwise (Ahead rank' stamp') := by
  refine (h.sublist hl).imp_of_mem fun {a b} ha hb hab => ?_
  rw [Ahead, hrank a ha, hrank b hb, hstamp a ha, hstamp b hb]
  exact hab

/-- **Insertion.** -/
theorem pairwise_insert {l r : List α} {c : α} (h : (l ++ r).Pairwise (Ahead rank stamp))
    (hfront : ∀ x ∈ l, rank x ≤ rank c) (hback : ∀ x ∈ r.head?, rank c < rank x)
    (hlate : ∀ x ∈ l, stamp x < stamp c) : (l ++ c :: r).Pairwise (Ahead rank stamp) := by
  obtain ⟨hl, hr, hlr⟩ := List.pairwise_append.mp h
  -- the members behind have at least the rank of the first one of them
  have hbehind : ∀ x ∈ r, Ahead rank stamp c x := by
    cases r with
    | nil => exact fun x hx => by cases hx
    | cons b r =>
        have hcb := hback b rfl
        intro x hx
        rcases List.mem_cons.mp hx with rfl | hx
        · exact .inl hcb
        · exact .inl (hcb.trans_le (List.rel_of_pairwise_cons hr hx).rank_le)
  refine List.pairwise_append.mpr ⟨hl, List.pairwise_cons.mpr ⟨hbehind, hr⟩, fun a ha b hb => ?_⟩
  rcases List.mem_cons.mp hb with rfl | hb
  · exact (hfront a ha).lt_or_eq.imp id fun he => ⟨he, hlate a ha⟩
  · exact hlr a ha b hb

/-- **The first member has the smallest rank.** -/
theorem rank_head_le {a : α} {l : List α} (h : (a :: l).Pairwise (Ahead rank stamp)) :
    ∀ b ∈ a :: l, rank a ≤ rank b := by
  intro b hb
  rcases List.mem_cons.mp hb with rfl | hb
  · exact le_rfl
  · exact (List.rel_of_pairwise_cons h hb).rank_le

/-! ## Places -/

/-- The order has one direction. -/
theorem Ahead.asymm {a b : α} (h : Ahead rank stamp a b) : ¬ Ahead rank stamp b a := by
  rintro (hlt | ⟨heq, hlt⟩)
  · exact absurd hlt (not_lt_of_ge h.rank_le)
  · rcases h with hlt' | ⟨-, hlt'⟩
    · exact absurd hlt' heq.not_gt
    · exact absurd hlt (Nat.lt_asymm hlt')

variable [DecidableEq α]

/-- **The place of a member** is the number of those that go before it. -/
theorem idxOf_eq_countP {l : List α} {t : α} (h : l.Pairwise (Ahead rank stamp)) (ht : t ∈ l) :
    l.idxOf t = l.countP fun x => decide (Ahead rank stamp x t) := by
  induction l with
  | nil => cases ht
  | cons a l ih =>
      obtain ⟨ha, hl⟩ := List.pairwise_cons.mp h
      by_cases hat : a = t
      · subst hat
        have hnone : l.countP (fun x => decide (Ahead rank stamp x a)) = 0 :=
          List.countP_eq_zero.mpr fun x hx => by simpa using (ha x hx).asymm
        have hself : ¬ Ahead rank stamp a a := fun haa => haa.asymm haa
        rw [List.idxOf_cons_self, List.countP_cons, hnone, if_neg (by simpa using hself)]
      · have htl : t ∈ l := (List.mem_cons.mp ht).resolve_left (Ne.symm hat)
        have hplace : (a :: l).idxOf t = l.idxOf t + 1 := by
          rw [List.idxOf_cons, beq_false_of_ne hat, cond_false]
        rw [hplace, List.countP_cons, ih hl htl, if_pos (by simpa using ha t htl)]

/-- Two lists without repetition count the same members that they share. -/
theorem countP_add_countP {l l' : List α} (hl : l.Nodup) (hl' : l'.Nodup) (p : α → Bool) :
    l'.countP p + l.countP (fun x => p x && decide (x ∉ l'))
      = l.countP p + l'.countP fun x => p x && decide (x ∉ l) := by
  have hshared : (l.filter (· ∈ l')).countP p = (l'.filter (· ∈ l)).countP p := by
    refine List.Perm.countP_eq p ((List.perm_ext_iff_of_nodup (hl.filter _) (hl'.filter _)).mpr ?_)
    intro x
    simp only [List.mem_filter, decide_eq_true_eq]
    exact and_comm
  have hsplit : ∀ a b : List α, a.countP p
      = (a.filter (· ∈ b)).countP p + a.countP fun x => p x && decide (x ∉ b) := by
    intro a b
    rw [List.countP_eq_countP_filter_add a p fun x => decide (x ∈ b)]
    simp only [List.countP_eq_length_filter, List.filter_filter, decide_not]
  rw [hsplit l' l, hsplit l l', hshared]
  omega

/-- **Places.** The queue changes from `l` to `l'`, in order both times and with the ranks and stamps of
its members unchanged. The place of a member that stays goes up by those who came ahead of it, and down
by those who left from ahead of it. -/
theorem idxOf_add_countP {l l' : List α} {t : α} (h : l.Pairwise (Ahead rank stamp))
    (h' : l'.Pairwise (Ahead rank' stamp')) (hrank : ∀ x ∈ l, rank' x = rank x)
    (hstamp : ∀ x ∈ l, stamp' x = stamp x) (ht : t ∈ l) (ht' : t ∈ l') :
    l'.idxOf t + l.countP (fun x => decide (Ahead rank stamp x t) && decide (x ∉ l'))
      = l.idxOf t + l'.countP fun x => decide (Ahead rank' stamp' x t) && decide (x ∉ l) := by
  have hnodup : l.Nodup := h.imp fun {a b} hab hne => by
    subst hne
    exact hab.asymm hab
  have hnodup' : l'.Nodup := h'.imp fun {a b} hab hne => by
    subst hne
    exact hab.asymm hab
  have hahead : ∀ x ∈ l, Ahead rank' stamp' x t ↔ Ahead rank stamp x t := fun x hx => by
    rw [Ahead, Ahead, hrank x hx, hrank t ht, hstamp x hx, hstamp t ht]
  have hleft : l.countP (fun x => decide (Ahead rank' stamp' x t) && decide (x ∉ l'))
      = l.countP fun x => decide (Ahead rank stamp x t) && decide (x ∉ l') :=
    List.countP_congr fun x hx => by simp [hahead x hx]
  have hplace : l.countP (fun x => decide (Ahead rank' stamp' x t))
      = l.countP fun x => decide (Ahead rank stamp x t) :=
    List.countP_congr fun x hx => by simp [hahead x hx]
  rw [idxOf_eq_countP h ht, idxOf_eq_countP h' ht', ← hplace, ← hleft]
  exact countP_add_countP hnodup hnodup' _

end StableQueue
