import Mathlib.Data.List.TakeWhile
import MiniRTOS.Lib.Tiling

/-! # First fit with immediate coalescing

An allocator is a function on the list of blocks that tile its region:

* **`alloc hdr slack n bs`** — the first free block of at least `n` bytes goes to use, and what is left
  of it is cut off when it is large enough.
* **`free hdr p bs`** — the used block whose data is at `p` is freed and joined with its free neighbours.
* **`resize hdr slack p n bs`** — the block stays when it is large enough; otherwise a new one is
  allocated before the old one is freed.

The tilings such an allocator reaches are coalesced. Two results are about these in general:

* **`Tiling.Tiles.eq_of_used`** — a coalesced tiling is determined by its used blocks, so the free list
  does not remember the order of the calls.
* **`Tiling.Coalesced.exists_fit`** — how many free bytes are enough for a request, however they are
  spread. -/

namespace FirstFit

open Tiling

variable {hdr slack a z n p : Nat} {b : Block} {bs bs' l r : List Block} {P : Block → Bool}

/-! ## Searching -/

/-- The first block with a property, and the blocks on both sides of it. -/
def splitFirst (P : Block → Bool) (bs : List Block) : Option (List Block × Block × List Block) :=
  match bs.dropWhile fun b => !P b with
  | [] => none
  | b :: r => some (bs.takeWhile fun b => !P b, b, r)

/-- Without a block that has the property, none is found. -/
theorem splitFirst_eq_none (h : ∀ b ∈ bs, P b = false) : splitFirst P bs = none := by
  have hdrop : (bs.dropWhile fun b => !P b) = [] :=
    List.dropWhile_eq_nil_iff.mpr fun b hb => by simp [h b hb]
  rw [splitFirst, hdrop]

/-- The first block that has the property is found. -/
theorem splitFirst_append (hl : ∀ x ∈ l, P x = false) (hb : P b = true) :
    splitFirst P (l ++ b :: r) = some (l, b, r) := by
  have hskip : ∀ x ∈ l, (!P x) = true := fun x hx => by simp [hl x hx]
  have hdrop : ((l ++ b :: r).dropWhile fun b => !P b) = b :: r := by
    rw [List.dropWhile_append_of_pos hskip, List.dropWhile_cons_of_neg (by simp [hb])]
  have htake : ((l ++ b :: r).takeWhile fun b => !P b) = l := by
    rw [List.takeWhile_append_of_pos hskip, List.takeWhile_cons_of_neg (by simp [hb]), List.append_nil]
  rw [splitFirst, hdrop, htake]

/-! ## The allocator -/

/-- The block is free and has room for `n` bytes. -/
def fits (n : Nat) (b : Block) : Bool := !b.used && decide (n ≤ b.size)

/-- The block is in use, and its data is at `p`. -/
def owns (hdr p : Nat) (b : Block) : Bool := b.used && decide (b.data hdr = p)

/-- **Allocation.** -/
def alloc (hdr slack n : Nat) (bs : List Block) : List Block × Option Nat :=
  match splitFirst (fits n) bs with
  | none => (bs, none)
  | some (l, b, r) => (take hdr slack n l b r, some (b.data hdr))

/-- **Release.** -/
def free (hdr p : Nat) (bs : List Block) : List Block :=
  match splitFirst (owns hdr p) bs with
  | none => bs
  | some (l, b, r) => release hdr l b r

/-- **Reallocation.** -/
def resize (hdr slack p n : Nat) (bs : List Block) : List Block × Option Nat :=
  match splitFirst (owns hdr p) bs with
  | none => (bs, none)
  | some (_, b, _) =>
      if n ≤ b.size then (bs, some p)
      else
        match alloc hdr slack n bs with
        | (bs, none) => (bs, none)
        | (bs, some q) => (free hdr p bs, some q)

/-- Without a free block that is large enough, nothing is allocated. -/
theorem alloc_eq_none (h : ∀ b ∈ bs, b.used = true ∨ b.size < n) :
    alloc hdr slack n bs = (bs, none) := by
  rw [alloc, splitFirst_eq_none fun b hb => ?_]
  rw [fits]
  rcases h b hb with hu | hn
  · simp [hu]
  · simp [hn]

/-- The first free block that is large enough is taken. -/
theorem alloc_append (hl : ∀ x ∈ l, x.used = true ∨ x.size < n) (hb : b.used = false)
    (hn : n ≤ b.size) :
    alloc hdr slack n (l ++ b :: r) = (take hdr slack n l b r, some (b.data hdr)) := by
  rw [alloc, splitFirst_append (fun x hx => ?_) (by simp [fits, hb, hn])]
  rw [fits]
  rcases hl x hx with hu | hn
  · simp [hu]
  · simp [hn]

/-- In a tiling a used block is found by its data. -/
theorem splitFirst_owns (h : Tiles hdr a (l ++ b :: r) z) (hpos : 0 < hdr) (hb : b.used = true) :
    splitFirst (owns hdr (b.data hdr)) (l ++ b :: r) = some (l, b, r) := by
  refine splitFirst_append (fun x hx => ?_) (by simp [owns, hb])
  have hlt : x.addr < b.addr := by
    obtain ⟨hl, -⟩ := tiles_mid.mp h
    have hend := (hl.bounds hx).2
    rw [Block.finish] at hend
    omega
  have hne : x.data hdr ≠ b.data hdr := by
    simp only [Block.data]
    omega
  simp [owns, hne]

/-- The block at the pointer is released. -/
theorem free_append (h : Tiles hdr a (l ++ b :: r) z) (hpos : 0 < hdr) (hb : b.used = true) :
    free hdr (b.data hdr) (l ++ b :: r) = release hdr l b r := by
  rw [free, splitFirst_owns h hpos hb]

end FirstFit

namespace Tiling

variable {hdr a z n : Nat} {b : Block} {bs bs' l r : List Block}

/-! ## Coalesced tilings -/

/-- What stands behind a free block of a coalesced list is used. -/
theorem head_used (h : Coalesced (b :: bs)) (hb : b.used = false) : ∀ q ∈ bs.head?, q.used = true :=
  ((coalesced_mid (l := []) hb).mp h).2.2.2

/-- A used block that stands first is not in use behind a free one. -/
theorem used_ne_free {c : Block} (hpos : 0 < hdr) (h : Tiles hdr a (c :: r) z) (hc : c.used = false)
    (hb : b.addr = a) (hl : (b :: l) = (c :: r).filter Block.used) : False := by
  obtain ⟨hca, hr⟩ := h
  have hmem : b ∈ (c :: r).filter Block.used := hl ▸ List.mem_cons_self ..
  obtain ⟨hmem, hu⟩ := List.mem_filter.mp hmem
  rcases List.mem_cons.mp hmem with rfl | hmem
  · rw [hc] at hu
    cases hu
  · have hlt := (hr.bounds hmem).1
    rw [Block.finish] at hlt
    omega

/-- Coalesced tilings with the same used blocks in the same order are the same. -/
theorem Tiles.eq_of_filter (h : Tiles hdr a bs z) (hpos : 0 < hdr) (h' : Tiles hdr a bs' z)
    (hc : Coalesced bs) (hc' : Coalesced bs')
    (hused : bs.filter Block.used = bs'.filter Block.used) : bs = bs' := by
  induction bs generalizing a bs' with
  | nil =>
      cases bs' with
      | nil => rfl
      | cons b' r' =>
          have hle := h'.length_mul_le
          have haz : a = z := h
          rw [List.length_cons, Nat.succ_mul] at hle
          omega
  | cons b r ih =>
      cases bs' with
      | nil =>
          have hle := h.length_mul_le
          have haz : a = z := h'
          rw [List.length_cons, Nat.succ_mul] at hle
          omega
      | cons b' r' =>
          have htail : Coalesced r := hc.tail
          have htail' : Coalesced r' := hc'.tail
          cases hu : b.used with
          | true =>
              cases hu' : b'.used with
              | true =>
                  rw [List.filter_cons_of_pos hu, List.filter_cons_of_pos hu'] at hused
                  obtain ⟨rfl, hrest⟩ := List.cons.inj hused
                  rw [ih h.2 h'.2 htail htail' hrest]
              | false =>
                  rw [List.filter_cons_of_pos hu] at hused
                  exact (used_ne_free hpos h' hu' h.1 hused).elim
          | false =>
              cases hu' : b'.used with
              | true =>
                  rw [List.filter_cons_of_pos hu'] at hused
                  exact (used_ne_free hpos h hu h'.1 hused.symm).elim
              | false =>
                  have hrest : r.filter Block.used = r'.filter Block.used := by
                    rwa [List.filter_cons_of_neg (by simp [hu]), List.filter_cons_of_neg (by simp [hu'])]
                      at hused
                  -- both free blocks end where the same used block begins, or at the end of the region
                  have hend : b.finish hdr = b'.finish hdr := by
                    have hq := head_used hc hu
                    have hq' := head_used hc' hu'
                    cases r with
                    | nil =>
                        cases r' with
                        | nil => exact h.2.trans h'.2.symm
                        | cons c' r' =>
                            rw [List.filter_cons_of_pos (hq' c' rfl)] at hrest
                            cases hrest
                    | cons c r =>
                        cases r' with
                        | nil =>
                            rw [List.filter_cons_of_pos (hq c rfl)] at hrest
                            cases hrest
                        | cons c' r' =>
                            rw [List.filter_cons_of_pos (hq c rfl), List.filter_cons_of_pos (hq' c' rfl)]
                              at hrest
                            obtain ⟨rfl, -⟩ := List.cons.inj hrest
                            exact h.2.1.symm.trans h'.2.1
                  have hbb : b = b' := by
                    have haddr : b.addr = b'.addr := h.1.trans h'.1.symm
                    have hsize : b.size = b'.size := by
                      simp only [Block.finish] at hend
                      omega
                    cases b
                    cases b'
                    simp_all
                  subst hbb
                  rw [ih h.2 h'.2 htail htail' hrest]

/-- **A coalesced tiling is determined by its used blocks.** -/
theorem Tiles.eq_of_used (h : Tiles hdr a bs z) (hpos : 0 < hdr) (h' : Tiles hdr a bs' z)
    (hc : Coalesced bs) (hc' : Coalesced bs') (hused : ∀ b : Block, b.used = true → (b ∈ bs ↔ b ∈ bs')) :
    bs = bs' := by
  have hnodup : ∀ {cs : List Block}, Tiles hdr a cs z → cs.Nodup := fun ht =>
    List.Nodup.of_map _ ((ht.sorted hpos).imp Nat.ne_of_lt)
  have hmem : ∀ b, b ∈ bs.filter Block.used ↔ b ∈ bs'.filter Block.used := by
    intro b
    rw [List.mem_filter, List.mem_filter]
    exact and_congr_left fun hu => hused b hu
  have hperm : (bs.filter Block.used).Perm (bs'.filter Block.used) :=
    (List.perm_ext_iff_of_nodup ((hnodup h).filter _) ((hnodup h').filter _)).mpr hmem
  refine h.eq_of_filter hpos h' hc hc' ?_
  -- both lists are in the order of the addresses
  refine hperm.eq_of_pairwise (fun b c _ _ hbc hcb => ?_) (h.pairwise.filter _) (h'.pairwise.filter _)
  simp only [Block.finish] at hbc hcb
  omega

/-! ## Fragmentation -/

/-- The data bytes of the used blocks. -/
def usedBytes (bs : List Block) : Nat := ((bs.filter Block.used).map Block.size).sum

/-- How many blocks are in use. -/
def usedCount (bs : List Block) : Nat := bs.countP Block.used

/-- How many blocks are free. -/
def freeCount (bs : List Block) : Nat := bs.countP fun b => !b.used

/-- **Between two free blocks there is a used one.** -/
theorem Coalesced.freeCount_le (h : Coalesced bs) : freeCount bs ≤ usedCount bs + 1 ∧
    ((∀ q ∈ bs.head?, q.used = true) → freeCount bs ≤ usedCount bs) := by
  induction bs with
  | nil => simp [freeCount]
  | cons b bs ih =>
      obtain ⟨hle, hle'⟩ := ih h.tail
      simp only [freeCount, usedCount, List.countP_cons] at hle hle' ⊢
      cases hu : b.used with
      | true =>
          refine ⟨?_, fun _ => ?_⟩
          all_goals
            simp only [Bool.not_true, Bool.false_eq_true, if_false, if_true]
            omega
      | false =>
          have hrest := hle' (head_used h hu)
          refine ⟨?_, fun hq => ?_⟩
          · simp only [Bool.not_false, Bool.false_eq_true, if_false, if_true]
            omega
          · rw [hq b rfl] at hu
            cases hu

/-- A region whose free blocks are all small is small. -/
theorem Tiles.le_of_small (h : Tiles hdr a bs z) (hn : 0 < n)
    (hsmall : ∀ b ∈ bs, b.used = true ∨ b.size < n) :
    z ≤ a + usedBytes bs + hdr * usedCount bs + freeCount bs * (hdr + n - 1) := by
  induction bs generalizing a with
  | nil =>
      have haz : a = z := h
      omega
  | cons b bs ih =>
      obtain ⟨rfl, hbs⟩ := h
      obtain ⟨hb, hsmall⟩ := List.forall_mem_cons.mp hsmall
      have hle := ih hbs hsmall
      rw [Block.finish] at hle
      simp only [usedBytes, usedCount, freeCount, List.countP_cons] at hle ⊢
      cases hu : b.used with
      | true =>
          rw [List.filter_cons_of_pos hu, List.map_cons, List.sum_cons]
          simp only [Bool.not_true, Bool.false_eq_true, if_false, if_true, Nat.mul_add, Nat.add_mul]
          omega
      | false =>
          have hlt : b.size < n := hb.resolve_left (by simp [hu])
          rw [List.filter_cons_of_neg (by simp [hu])]
          simp only [Bool.not_false, Bool.false_eq_true, if_false, if_true, Nat.mul_add, Nat.add_mul]
          omega

/-- **A request that fits however the free bytes are spread**: with `k` used blocks there are at most
`k + 1` free ones, and one of these is large enough when the region is larger than all of them could be
otherwise. -/
theorem Coalesced.exists_fit (hc : Coalesced bs) (h : Tiles hdr a bs z) (hn : 0 < n)
    (hroom : a + usedBytes bs + hdr * usedCount bs + (usedCount bs + 1) * (hdr + n - 1) < z) :
    ∃ b ∈ bs, b.used = false ∧ n ≤ b.size := by
  by_contra hnone
  have hsmall : ∀ b ∈ bs, b.used = true ∨ b.size < n := by
    intro b hb
    by_contra hb'
    obtain ⟨hu, hle⟩ := not_or.mp hb'
    exact hnone ⟨b, hb, by simpa using hu, Nat.le_of_not_lt hle⟩
  have hle := h.le_of_small hn hsmall
  have hcount : freeCount bs * (hdr + n - 1) ≤ (usedCount bs + 1) * (hdr + n - 1) :=
    Nat.mul_le_mul_right _ hc.freeCount_le.1
  omega

end Tiling
