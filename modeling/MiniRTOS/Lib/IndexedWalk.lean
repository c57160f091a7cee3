import Mathlib.Data.List.Nodup

/-! # Walking a list by index while it changes

A loop visits `l[0]`, `l[1]`, … and compares its index with the current length, while every visit may
edit the list. Edits behind the index shift the rest under it, so entries are missed or visited again;
edits ahead of it do no harm.

* **`walk`** — the loop, with the entries that it has visited, oldest first.
* **`walk_isSome`** — a bounded list is walked in a bounded number of visits.
* **`visited_eq`** — as long as the visits leave the part up to the index alone, the entries visited are
  the list as it is in the end.
* **`visited_of_erase`** — an entry that removes itself hides its successor, if it has one. -/

namespace IndexedWalk

universe u

variable {α : Type u} {edit : List α → α → List α → List α} {i n : Nat} {visited l : List α}

/-- **The loop** at index `i`: `edit visited x l` is what the visit of `x` makes of `l`. -/
def walk (edit : List α → α → List α → List α) :
    Nat → Nat → List α → List α → Option (List α × List α)
  | 0, i, visited, l => if i < l.length then none else some (visited, l)
  | n + 1, i, visited, l =>
      match l[i]? with
      | none => some (visited, l)
      | some x => walk edit n (i + 1) (visited ++ [x]) (edit visited x l)

/-- Past the end. -/
theorem walk_of_le (h : l.length ≤ i) : walk edit n i visited l = some (visited, l) := by
  cases n with
  | zero => exact if_neg (Nat.not_lt.mpr h)
  | succ n => rw [walk, List.getElem?_eq_none h]

/-- One visit. -/
theorem walk_succ {x : α} (h : l[i]? = some x) :
    walk edit (n + 1) i visited l = walk edit n (i + 1) (visited ++ [x]) (edit visited x l) := by
  rw [walk, h]

/-- **The walk ends** when the edits keep the list within a bound. -/
theorem walk_isSome {P : List α → Prop} {b : Nat} (hb : ∀ l, P l → l.length ≤ b)
    (hedit : ∀ visited x l, P l → P (edit visited x l)) (hl : P l) (hn : b ≤ i + n) :
    ∃ r, walk edit n i visited l = some r ∧ P r.2 ∧ r.1.length ≤ visited.length + n := by
  induction n generalizing i visited l with
  | zero => exact ⟨_, walk_of_le (Nat.le_trans (hb l hl) hn), hl, Nat.le_refl _⟩
  | succ n ih =>
      cases hx : l[i]? with
      | none => exact ⟨_, walk_of_le (List.getElem?_eq_none_iff.mp hx), hl, Nat.le_add_right _ _⟩
      | some x =>
          rw [walk_succ hx]
          have hroom : b ≤ i + 1 + n := by omega
          obtain ⟨r, hr, hP, hlen⟩ := @ih (i + 1) (visited ++ [x]) _ (hedit visited x l hl) hroom
          refine ⟨r, hr, hP, ?_⟩
          rw [List.length_append, List.length_singleton] at hlen
          omega

/-- What has been visited stays visited. -/
theorem prefix_of_walk {r : List α × List α} (h : walk edit n i visited l = some r) :
    visited <+: r.1 := by
  induction n generalizing i visited l with
  | zero =>
      rw [walk] at h
      split at h
      · cases h
      · obtain rfl := Option.some.inj h
        exact List.prefix_refl _
  | succ n ih =>
      rw [walk] at h
      split at h
      · obtain rfl := Option.some.inj h
        exact List.prefix_refl _
      · exact (List.prefix_append _ _).trans (ih h)

/-- **Edits ahead of the index do no harm.** When each visit of the walk leaves the entries up to its
own, those that have been visited are the list up to the index, and in the end all of it. -/
theorem visited_eq {P : List α → Prop} {r : List α × List α} {rest : List α}
    (h : walk edit n visited.length visited (visited ++ rest) = some r) (hP : P (visited ++ rest))
    (hedit : ∀ i x rest, r.1[i]? = some x → P (r.1.take i ++ x :: rest) →
      ∃ rest', edit (r.1.take i) x (r.1.take i ++ x :: rest) = r.1.take i ++ x :: rest' ∧
        P (r.1.take i ++ x :: rest')) : r.1 = r.2 := by
  induction n generalizing visited rest with
  | zero =>
      rw [walk] at h
      split at h
      · cases h
      · next hlt =>
          obtain rfl := Option.some.inj h
          rw [List.length_append] at hlt
          rw [List.length_eq_zero_iff.mp (by omega : rest.length = 0), List.append_nil]
  | succ n ih =>
      cases rest with
      | nil =>
          rw [walk_of_le (by simp)] at h
          obtain rfl := Option.some.inj h
          exact (List.append_nil _).symm
      | cons x rest =>
          rw [walk_succ (x := x) (by simp)] at h
          obtain ⟨later, hlater⟩ := prefix_of_walk h
          have htake : r.1.take visited.length = visited := by simp [← hlater]
          have hx : r.1[visited.length]? = some x := by simp [← hlater]
          have hvisit := hedit visited.length x rest hx
          rw [htake] at hvisit
          obtain ⟨rest', hr, hP'⟩ := hvisit hP
          have hlen : visited.length + 1 = (visited ++ [x]).length := by simp
          rw [hr, hlen, List.append_cons visited x rest'] at h
          exact ih h (List.append_cons .. ▸ hP')

/-- Visits that edit nothing. -/
theorem walk_through (n : Nat) (front visited rest : List α) {part : List α}
    (hedit : ∀ x ∈ part, ∀ visited l, edit visited x l = l) :
    walk edit (part.length + n) front.length visited (front ++ (part ++ rest))
      = walk edit n (front ++ part).length (visited ++ part) (front ++ part ++ rest) := by
  induction part generalizing front visited with
  | nil => simp
  | cons x part ih =>
      have hfuel : (x :: part).length + n = (part.length + n) + 1 := by simp; omega
      have hlen : front.length + 1 = (front ++ [x]).length := by simp
      rw [hfuel, walk_succ (x := x) (by simp), hedit x List.mem_cons_self, hlen, List.cons_append,
        List.append_cons front x (part ++ rest), ih _ _ fun y hy => hedit y (List.mem_cons_of_mem x hy)]
      simp

/-- **An entry that removes itself hides its successor**, if it has one: the visit moves the successor under
the index. -/
theorem visited_of_erase [DecidableEq α] {part rest : List α} {x : α} (hnd : (part ++ x :: rest).Nodup)
    (hedit : ∀ visited z l, edit visited z l = if z = x then l.erase x else l)
    (hn : part.length + (rest.tail.length + 1) ≤ n) :
    walk edit n 0 [] (part ++ x :: rest) = some (part ++ x :: rest.tail, part ++ rest) := by
  obtain ⟨-, hxs, hdisj⟩ := List.nodup_append.mp hnd
  have hx : x ∉ part := fun hx => hdisj x hx x List.mem_cons_self rfl
  have hpart : ∀ z ∈ part, ∀ visited l, edit visited z l = l := fun z hz visited l => by
    rw [hedit, if_neg]
    rintro rfl
    exact hx hz
  have hrest : ∀ z ∈ rest.tail, ∀ visited l, edit visited z l = l := fun z hz visited l => by
    rw [hedit, if_neg]
    rintro rfl
    exact (List.nodup_cons.mp hxs).1 (List.mem_of_mem_tail hz)
  have herase : (part ++ x :: rest).erase x = part ++ rest := by
    rw [List.erase_append_right _ hx, List.erase_cons_head]
  -- up to `x`, and then `x`
  obtain ⟨m, rfl⟩ := Nat.exists_eq_add_of_le hn
  have hbefore := walk_through (rest.tail.length + m + 1) [] [] (x :: rest) hpart
  simp only [List.length_nil, List.nil_append] at hbefore
  have hfuel : part.length + (rest.tail.length + 1) + m = part.length + (rest.tail.length + m + 1) := by
    omega
  rw [hfuel, hbefore, walk_succ (x := x) (by simp), hedit, if_pos rfl, herase]
  cases rest with
  | nil => exact walk_of_le (by simp)
  | cons y rest =>
      -- on from the place behind `y`
      have hafter := walk_through m (part ++ [y]) (part ++ [x]) [] hrest
      simp only [List.tail_cons, List.append_nil, List.length_append, List.length_cons,
        List.length_nil, Nat.zero_add, List.append_assoc, List.cons_append, List.nil_append] at hafter ⊢
      rw [hafter, walk_of_le (by simp)]

end IndexedWalk
