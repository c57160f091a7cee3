import Mathlib.Data.Int.GCD
import Mathlib.Data.List.Rotate
import Mathlib.Data.Nat.ModEq

/-! # Taking turns around a ring

A list without repetitions whose head has the turn. Passing the turn rotates the list by one. When the
turn is passed `d` times between two looks, `n` looks at a ring of `n` members see each of them once
exactly when `d` and `n` have no common factor.

* **`head?_rotate_eq_some_iff`** — who has the turn after `j` passes.
* **`visits_once_iff`** — the looks at `d, 2 * d, …, n * d` passes. -/

namespace RoundRobin

universe u

variable {α : Type u} {l : List α} {a : α} {d i j n : Nat}

/-- Who has the turn after `j` passes. -/
theorem head?_rotate_eq_some_iff (hnd : l.Nodup) (hi : i < l.length) (j : Nat) :
    (l.rotate j).head? = some l[i] ↔ j % l.length = i := by
  have hpos : 0 < l.length := Nat.zero_lt_of_lt hi
  have hj : j % l.length < l.length := Nat.mod_lt _ hpos
  rw [← List.rotate_mod, List.head?_rotate hj, List.getElem?_eq_getElem hj, Option.some.injEq,
    hnd.getElem_inj_iff]

/-- Passing the turn once more. -/
theorem rotate_add_one_of_cons {r : List α} (h : l.rotate j = a :: r) : l.rotate (j + 1) = r ++ [a] := by
  rw [← List.rotate_rotate, h, List.rotate_cons_succ, List.rotate_zero]

/-- A stride without a common factor meets every remainder once in `n` steps. -/
theorem existsUnique_mul_mod (hd : Nat.Coprime d n) (hi : i < n) :
    ∃! m, (1 ≤ m ∧ m ≤ n) ∧ d * m % n = i := by
  have hn : n ≠ 0 := Nat.ne_zero_of_lt hi
  obtain ⟨m, hm, hmi⟩ := Nat.exists_mul_mod_eq_of_coprime i hd hn
  rw [Nat.mod_eq_of_lt hi] at hmi
  -- the remainder 0 is met at the end of the round, not at its start
  have hex : ∃ m', (1 ≤ m' ∧ m' ≤ n) ∧ d * m' % n = i := by
    rcases Nat.eq_zero_or_pos m with rfl | hpos
    · refine ⟨n, ⟨Nat.one_le_iff_ne_zero.mpr hn, le_rfl⟩, ?_⟩
      rw [Nat.mul_mod_left]
      simpa using hmi
    · exact ⟨m, ⟨hpos, hm.le⟩, hmi⟩
  obtain ⟨m', ⟨hlo, hhi⟩, hm'⟩ := hex
  refine ⟨m', ⟨⟨hlo, hhi⟩, hm'⟩, ?_⟩
  rintro m'' ⟨⟨hlo', hhi'⟩, hm''⟩
  have hmod : d * m'' ≡ d * m' [MOD n] := hm''.trans hm'.symm
  have hcancel : m'' ≡ m' [MOD n] := Nat.ModEq.cancel_left_of_coprime hd.symm hmod
  rcases Nat.lt_or_ge m'' n with hlt | hge
  · rcases Nat.lt_or_ge m' n with hlt' | hge'
    · exact hcancel.eq_of_lt_of_lt hlt hlt'
    · obtain rfl := Nat.le_antisymm hhi hge'
      have hzero : m'' % m' = 0 := by rw [hcancel, Nat.mod_self]
      rw [Nat.mod_eq_of_lt hlt] at hzero
      omega
  · obtain rfl := Nat.le_antisymm hhi' hge
    rcases Nat.lt_or_ge m' m'' with hlt' | hge'
    · have hzero : m' % m'' = 0 := by rw [← hcancel, Nat.mod_self]
      rw [Nat.mod_eq_of_lt hlt'] at hzero
      omega
    · omega

/-- A stride with a common factor meets the remainder 0 twice. -/
theorem coprime_of_existsUnique_zero (hn : 0 < n)
    (h : ∃! m, (1 ≤ m ∧ m ≤ n) ∧ d * m % n = 0) : Nat.Coprime d n := by
  obtain ⟨m, -, huniq⟩ := h
  have hg : 0 < Nat.gcd d n := Nat.gcd_pos_of_pos_right d hn
  obtain ⟨e, he⟩ := Nat.gcd_dvd_right d n
  obtain ⟨f, hf⟩ := Nat.gcd_dvd_left d n
  have hepos : 0 < e := Nat.pos_of_ne_zero fun h0 => by simp [h0] at he; omega
  have hen : e ≤ n := by
    conv_rhs => rw [he]
    exact Nat.le_mul_of_pos_left e hg
  have hend : n = m := huniq n ⟨⟨hn, le_rfl⟩, Nat.mul_mod_left ..⟩
  have hpart : e = m := by
    refine huniq e ⟨⟨hepos, hen⟩, ?_⟩
    have hmul : d * e = f * n := by
      calc d * e = Nat.gcd d n * f * e := by rw [← hf]
        _ = f * (Nat.gcd d n * e) := by rw [Nat.mul_comm _ f, Nat.mul_assoc]
        _ = f * n := by rw [← he]
    rw [hmul, Nat.mul_mod_left]
  have hen' : e = n := hpart.trans hend.symm
  have hone : Nat.gcd d n * n = 1 * n := by rw [one_mul]; conv_rhs => rw [he, hen']
  exact Nat.eq_of_mul_eq_mul_right hn hone

/-- **Taking turns.** Looking `n` times, with `d` passes before each look, sees every member of a ring of
`n` exactly once if and only if `d` and `n` are coprime. -/
theorem visits_once_iff (hnd : l.Nodup) (hpos : 0 < l.length) (d : Nat) :
    (∀ a ∈ l, ∃! m, (1 ≤ m ∧ m ≤ l.length) ∧ (l.rotate (d * m)).head? = some a) ↔
      Nat.Coprime d l.length := by
  constructor
  · intro h
    refine coprime_of_existsUnique_zero hpos ?_
    simpa only [head?_rotate_eq_some_iff hnd hpos] using h l[0] (List.getElem_mem hpos)
  · intro hd a ha
    obtain ⟨i, hi, rfl⟩ := List.getElem_of_mem ha
    simp only [head?_rotate_eq_some_iff hnd hi]
    exact existsUnique_mul_mod hd hi

end RoundRobin
