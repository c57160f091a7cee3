import Mathlib.Algebra.Ring.Nat
import Mathlib.Data.List.Chain
import Mathlib.Data.List.Nodup
import Mathlib.Algebra.BigOperators.Group.List.Basic

/-! # Blocks that tile an interval

The layout of a region of memory that is cut into blocks, each a header of `hdr` bytes followed by
its data:

* **`Tiles hdr a bs z`** — the blocks of `bs` lie one behind the other, the first one starts at `a`
  and the last one ends at `z`.
* **`Coalesced bs`** — of two neighbours at least one is in use.
* **`take hdr slack n l b r`** — put the free block `b` between `l` and `r` to use for `n` bytes and
  cut the rest off when it is large enough.
* **`release hdr l b r`** — free the block `b` between `l` and `r` and join it with free neighbours.

Distinct blocks of a tiling share no byte, and a coalesced tiling without used blocks is one
block. -/

namespace Tiling

/-- A block: the address of its header, the number of data bytes behind the header, and whether it
is in use. -/
structure Block where
  /-- The address of the header. -/
  addr : Nat
  /-- The number of data bytes. -/
  size : Nat
  /-- Whether the block is in use. -/
  used : Bool
deriving DecidableEq, Repr

namespace Block

/-- The address of the first data byte. -/
def data (hdr : Nat) (b : Block) : Nat := b.addr + hdr

/-- The address just behind the block. -/
def finish (hdr : Nat) (b : Block) : Nat := b.addr + hdr + b.size

/-- One free block in the place of `b` and the block behind it. -/
def join (hdr : Nat) (b c : Block) : Block := ⟨b.addr, b.size + hdr + c.size, false⟩

/-- The front part of a block, with `n` data bytes and in use. -/
def front (b : Block) (n : Nat) : Block := ⟨b.addr, n, true⟩

/-- The free rest of a block behind its front part of `n` bytes. -/
def rest (hdr : Nat) (b : Block) (n : Nat) : Block := ⟨b.addr + hdr + n, b.size - n - hdr, false⟩

end Block

variable {hdr a z : Nat} {b c : Block} {bs l r : List Block}

/-- **A tiling** of the addresses from `a` up to `z`. -/
def Tiles (hdr : Nat) : Nat → List Block → Nat → Prop
  | a, [], z => a = z
  | a, b :: bs, z => b.addr = a ∧ Tiles hdr (b.finish hdr) bs z

/-- No blocks tile the empty range. -/
@[simp] theorem tiles_nil : Tiles hdr a [] z ↔ a = z := Iff.rfl

/-- A first block starts where the range does, and the rest follow it. -/
theorem tiles_cons : Tiles hdr a (b :: bs) z ↔ b.addr = a ∧ Tiles hdr (b.finish hdr) bs z := Iff.rfl

/-- Of two neighbours at least one is in use. -/
def Coalesced (bs : List Block) : Prop := bs.IsChain fun b c => b.used = true ∨ c.used = true

/-- The data bytes of the free blocks. -/
def freeBytes (bs : List Block) : Nat := ((bs.filter fun b => !b.used).map Block.size).sum

/-! ## Positions -/

/-- A tiling splits at any block. -/
theorem tiles_append : Tiles hdr a (l ++ r) z ↔ ∃ m, Tiles hdr a l m ∧ Tiles hdr m r z := by
  induction l generalizing a with
  | nil => simp
  | cons b l ih =>
      rw [List.cons_append, tiles_cons, ih]
      constructor
      · rintro ⟨hb, m, hl, hr⟩
        exact ⟨m, ⟨hb, hl⟩, hr⟩
      · rintro ⟨m, ⟨hb, hl⟩, hr⟩
        exact ⟨hb, m, hl, hr⟩

/-- A tiling around one of its blocks. -/
theorem tiles_mid : Tiles hdr a (l ++ b :: r) z ↔
    Tiles hdr a l b.addr ∧ Tiles hdr (b.finish hdr) r z := by
  rw [tiles_append]
  constructor
  · rintro ⟨m, hl, rfl, hr⟩
    exact ⟨hl, hr⟩
  · rintro ⟨hl, hr⟩
    exact ⟨b.addr, hl, rfl, hr⟩

/-- A tiling goes upwards. -/
theorem Tiles.le (h : Tiles hdr a bs z) : a ≤ z := by
  induction bs generalizing a with
  | nil => exact Nat.le_of_eq h
  | cons b bs ih =>
      obtain ⟨rfl, h⟩ := h
      have := ih h
      rw [Block.finish] at this
      omega

/-- Every block of a tiling lies inside. -/
theorem Tiles.bounds (h : Tiles hdr a bs z) (hb : b ∈ bs) : a ≤ b.addr ∧ b.finish hdr ≤ z := by
  obtain ⟨l, r, rfl⟩ := List.append_of_mem hb
  obtain ⟨hl, hr⟩ := tiles_mid.mp h
  exact ⟨hl.le, hr.le⟩

/-- **Blocks do not overlap**: each one ends before the next ones begin. -/
theorem Tiles.pairwise (h : Tiles hdr a bs z) : bs.Pairwise fun b c => b.finish hdr ≤ c.addr := by
  induction bs generalizing a with
  | nil => exact .nil
  | cons b bs ih =>
      obtain ⟨rfl, h⟩ := h
      exact List.pairwise_cons.mpr ⟨fun c hc => (h.bounds hc).1, ih h⟩

/-- The addresses of a tiling increase. -/
theorem Tiles.sorted (h : Tiles hdr a bs z) (hpos : 0 < hdr) :
    (bs.map Block.addr).Pairwise (· < ·) := by
  rw [List.pairwise_map]
  refine h.pairwise.imp fun hbc => ?_
  rw [Block.finish] at hbc
  omega

/-- Two blocks of a tiling with the same address are the same block. -/
theorem Tiles.eq_of_addr (h : Tiles hdr a bs z) (hpos : 0 < hdr) (hb : b ∈ bs) (hc : c ∈ bs)
    (heq : b.addr = c.addr) : b = c :=
  List.inj_on_of_nodup_map ((h.sorted hpos).imp Nat.ne_of_lt) hb hc heq

/-- Two different blocks of a tiling lie apart. -/
theorem Tiles.apart (h : Tiles hdr a bs z) (hb : b ∈ bs) (hc : c ∈ bs) (hne : b ≠ c) :
    b.finish hdr ≤ c.addr ∨ c.finish hdr ≤ b.addr := by
  have hsym : Std.Symm fun b c : Block => b.finish hdr ≤ c.addr ∨ c.finish hdr ≤ b.addr :=
    ⟨fun _ _ h => h.symm⟩
  have hp : bs.Pairwise fun b c => b.finish hdr ≤ c.addr ∨ c.finish hdr ≤ b.addr :=
    h.pairwise.imp Or.inl
  exact hp.forall hb hc hne

/-- There is room for the headers. -/
theorem Tiles.length_mul_le (h : Tiles hdr a bs z) : a + bs.length * hdr ≤ z := by
  induction bs generalizing a with
  | nil =>
      rw [tiles_nil] at h
      simp [h]
  | cons b bs ih =>
      obtain ⟨rfl, h⟩ := h
      have := ih h
      rw [Block.finish] at this
      rw [List.length_cons, Nat.succ_mul]
      omega

/-! ## Cutting and joining -/

/-- A block may be replaced by one of the same extent. -/
theorem Tiles.replace (h : Tiles hdr a (l ++ b :: r) z) (haddr : c.addr = b.addr)
    (hsize : c.size = b.size) : Tiles hdr a (l ++ c :: r) z := by
  rw [tiles_mid] at h ⊢
  rw [Block.finish, haddr, hsize]
  exact h

/-- **Cutting a block** keeps the tiling. -/
theorem Tiles.split {n : Nat} (h : Tiles hdr a (l ++ b :: r) z) (hn : n + hdr ≤ b.size) :
    Tiles hdr a (l ++ b.front n :: b.rest hdr n :: r) z := by
  obtain ⟨hl, hr⟩ := tiles_mid.mp h
  refine tiles_mid.mpr ⟨hl, rfl, ?_⟩
  have hend : (b.rest hdr n).finish hdr = b.finish hdr := by
    simp only [Block.rest, Block.finish]
    omega
  rwa [hend]

/-- **Joining two neighbours** keeps the tiling. -/
theorem Tiles.join (h : Tiles hdr a (l ++ b :: c :: r) z) : Tiles hdr a (l ++ b.join hdr c :: r) z := by
  obtain ⟨hl, hc, hr⟩ := tiles_mid.mp h
  refine tiles_mid.mpr ⟨hl, ?_⟩
  have hend : (b.join hdr c).finish hdr = c.finish hdr := by
    simp only [Block.join, Block.finish] at hc ⊢
    omega
  rwa [hend]

/-- **A coalesced tiling without used blocks is one block.** -/
theorem Tiles.eq_single (h : Tiles hdr a bs z) (hc : Coalesced bs) (hlt : a < z)
    (hfree : ∀ b ∈ bs, b.used = false) : bs = [⟨a, z - a - hdr, false⟩] := by
  match bs, h, hc with
  | [], h, _ => exact absurd (tiles_nil.mp h) (Nat.ne_of_lt hlt)
  | [b], hone, _ =>
      obtain ⟨hb, hend⟩ := hone
      have hu := hfree b (by simp)
      obtain ⟨_, n, _⟩ := b
      simp only [tiles_nil, Block.finish] at hb hu hend
      subst hb hu hend
      congr
      omega
  | b :: c :: bs, _, hc =>
      have hb := hfree b (by simp)
      have hc' := hfree c (by simp)
      rw [Coalesced, List.isChain_cons_cons, hb, hc'] at hc
      simp at hc

/-! ## Taking and releasing a block -/

/-- Put a block to use, and cut off what is left of it when more than `slack` bytes are. -/
def take (hdr slack n : Nat) (l : List Block) (b : Block) (r : List Block) : List Block :=
  if n + hdr + slack ≤ b.size then l ++ b.front n :: b.rest hdr n :: r
  else l ++ b.front b.size :: r

/-- The free bytes that taking a block uses up, a new header included. -/
def Block.taken (hdr slack n : Nat) (b : Block) : Nat :=
  if n + hdr + slack ≤ b.size then n + hdr else b.size

/-- Join a block with a free block before it. -/
def joinPrev (hdr : Nat) (l : List Block) (b : Block) : List Block × Block :=
  match l.getLast? with
  | none => (l, b)
  | some p => if p.used then (l, b) else (l.dropLast, p.join hdr b)

/-- Joining with the previous block looks at the last one only. -/
theorem joinPrev_concat (hdr : Nat) (l : List Block) (p b : Block) :
    joinPrev hdr (l ++ [p]) b = if p.used then (l ++ [p], b) else (l, p.join hdr b) := by
  simp [joinPrev]

/-- Join a block with a free block behind it. -/
def joinNext (hdr : Nat) (b : Block) : List Block → Block × List Block
  | [] => (b, [])
  | q :: r => if q.used then (b, q :: r) else (b.join hdr q, r)

/-- The block, free. -/
def Block.freed (b : Block) : Block := { b with used := false }

/-- A freed block stays free when it is joined. -/
theorem joinPrev_freed (hdr : Nat) (l : List Block) (b : Block) :
    (joinPrev hdr l b.freed).2.used = false := by
  rcases List.eq_nil_or_concat' l with rfl | ⟨l, p, rfl⟩
  · rfl
  · rw [joinPrev_concat]
    split <;> rfl

/-- Free a block and join it with its free neighbours. -/
def release (hdr : Nat) (l : List Block) (b : Block) (r : List Block) : List Block :=
  let prev := joinPrev hdr l b.freed
  let next := joinNext hdr prev.2 r
  prev.1 ++ next.1 :: next.2

/-- The neighbours of a free block in a coalesced list are in use. -/
theorem coalesced_mid (hb : b.used = false) : Coalesced (l ++ b :: r) ↔
    Coalesced l ∧ Coalesced r ∧ (∀ p ∈ l.getLast?, p.used = true) ∧ ∀ q ∈ r.head?, q.used = true := by
  rw [Coalesced, List.isChain_append, List.isChain_cons]
  simp only [hb, Bool.false_eq_true, false_or, or_false, List.head?_cons, Option.mem_some_iff,
    forall_eq']
  constructor
  · rintro ⟨hl, ⟨hq, hr⟩, hp⟩
    exact ⟨hl, hr, hp, hq⟩
  · rintro ⟨hl, hr, hp, hq⟩
    exact ⟨hl, ⟨hq, hr⟩, hp⟩

/-- A used block separates its neighbours. -/
theorem coalesced_used (hb : b.used = true) :
    Coalesced (l ++ b :: r) ↔ Coalesced l ∧ Coalesced r := by
  rw [Coalesced, List.isChain_append, List.isChain_cons]
  simp [hb, Coalesced]

/-- **Taking a free block keeps the list coalesced.** -/
theorem Coalesced.take {slack n : Nat} (h : Coalesced (l ++ b :: r)) (hb : b.used = false) :
    Coalesced (take hdr slack n l b r) := by
  obtain ⟨hl, hr, hp, hq⟩ := (coalesced_mid hb).mp h
  rw [Tiling.take]
  split
  · refine (coalesced_used rfl).mpr ⟨hl, ?_⟩
    have hrest : Coalesced ([] ++ b.rest hdr n :: r) :=
      (coalesced_mid rfl).mpr ⟨.nil, hr, by simp, hq⟩
    exact hrest
  · exact (coalesced_used rfl).mpr ⟨hl, hr⟩

/-- Joining with the block before keeps the tiling. -/
theorem Tiles.joinPrev (h : Tiles hdr a (l ++ b :: r) z) :
    Tiles hdr a ((joinPrev hdr l b).1 ++ (joinPrev hdr l b).2 :: r) z := by
  rcases List.eq_nil_or_concat' l with rfl | ⟨l, p, rfl⟩
  · exact h
  · rw [joinPrev_concat]
    split
    · exact h
    · rw [List.append_assoc] at h
      exact h.join

/-- Joining with the block behind keeps the tiling. -/
theorem Tiles.joinNext (h : Tiles hdr a (l ++ b :: r) z) :
    Tiles hdr a (l ++ (joinNext hdr b r).1 :: (joinNext hdr b r).2) z := by
  cases r with
  | nil => exact h
  | cons q r =>
      rw [Tiling.joinNext]
      split
      · exact h
      · exact h.join

/-- **Releasing keeps the tiling.** -/
theorem Tiles.release (h : Tiles hdr a (l ++ b :: r) z) : Tiles hdr a (release hdr l b r) z := by
  have hfreed : Tiles hdr a (l ++ b.freed :: r) z := h.replace rfl rfl
  exact hfreed.joinPrev.joinNext

/-- After a join the block before is in use, and what precedes it is coalesced. -/
theorem coalesced_joinPrev (hdr : Nat) (h : Coalesced l) (hb : b.used = false) :
    Coalesced (joinPrev hdr l b).1 ∧ (∀ p ∈ (joinPrev hdr l b).1.getLast?, p.used = true) ∧
      (joinPrev hdr l b).2.used = false := by
  rcases List.eq_nil_or_concat' l with rfl | ⟨l, p, rfl⟩
  · exact ⟨.nil, by simp [joinPrev], hb⟩
  · rw [joinPrev_concat]
    split
    · next hp => exact ⟨h, by simpa using hp, hb⟩
    · next hp =>
        obtain ⟨hl, -, hlast, -⟩ := (coalesced_mid (by simpa using hp)).mp h
        exact ⟨hl, hlast, rfl⟩

/-- After a join the block behind is in use, and what follows it is coalesced. -/
theorem coalesced_joinNext (hdr : Nat) (h : Coalesced r) (hb : b.used = false) :
    Coalesced (joinNext hdr b r).2 ∧ (∀ q ∈ (joinNext hdr b r).2.head?, q.used = true) ∧
      (joinNext hdr b r).1.used = false := by
  cases r with
  | nil => exact ⟨.nil, by simp [joinNext], hb⟩
  | cons q r =>
      rw [joinNext]
      split
      · next hq => exact ⟨h, by simpa using hq, hb⟩
      · next hq =>
          have hmid : Coalesced ([] ++ q :: r) := h
          obtain ⟨-, hr, -, hhead⟩ := (coalesced_mid (by simpa using hq)).mp hmid
          exact ⟨hr, hhead, rfl⟩

/-- **Releasing a used block keeps the list coalesced.** -/
theorem Coalesced.release (h : Coalesced (l ++ b :: r)) (hb : b.used = true) :
    Coalesced (release hdr l b r) := by
  obtain ⟨hl, hr⟩ := (coalesced_used hb).mp h
  obtain ⟨hl', hp, hfree⟩ := coalesced_joinPrev hdr (b := b.freed) hl rfl
  obtain ⟨hr', hq, hfree'⟩ := coalesced_joinNext hdr hr hfree
  exact (coalesced_mid hfree').mpr ⟨hl', hr', hp, hq⟩

/-- **Releasing undoes taking**: the block in front is joined with the rest that was split off, and with
nothing else when no two free blocks were neighbours. -/
theorem exists_release_take (hdr slack n : Nat) (h : Coalesced (l ++ b :: r)) (hb : b.used = false) :
    ∃ f r', take hdr slack n l b r = l ++ f :: r' ∧ f.addr = b.addr ∧ f.used = true ∧
      release hdr l f r' = l ++ b :: r := by
  obtain ⟨-, -, hlast, hhead⟩ := (coalesced_mid hb).mp h
  -- the block before is in use
  have hprev : ∀ x : Block, joinPrev hdr l x = (l, x) := by
    intro x
    rcases List.eq_nil_or_concat' l with rfl | ⟨l, p, rfl⟩
    · rfl
    · rw [joinPrev_concat, if_pos (hlast p List.getLast?_concat)]
  rw [take]
  split
  · next hn =>
      refine ⟨b.front n, b.rest hdr n :: r, rfl, rfl, rfl, ?_⟩
      have hjoin : (b.front n).freed.join hdr (b.rest hdr n) = b := by
        have hsize : n + hdr + (b.size - n - hdr) = b.size := by omega
        simp only [Block.join, Block.freed, Block.front, Block.rest, hsize]
        rw [← hb]
      have hnext : joinNext hdr (b.front n).freed (b.rest hdr n :: r) = (b, r) := by
        rw [joinNext, if_neg (by simp [Block.rest]), hjoin]
      rw [release, hprev]
      simp only [hnext]
  · refine ⟨b.front b.size, r, rfl, rfl, rfl, ?_⟩
    have hfreed : (b.front b.size).freed = b := by
      simp only [Block.freed, Block.front]
      rw [← hb]
    have hnext : joinNext hdr b r = (b, r) := by
      cases r with
      | nil => rfl
      | cons q r => rw [joinNext, if_pos (hhead q rfl)]
    rw [release, hprev, hfreed]
    simp only [hnext]

/-! ## Used blocks -/

/-- The used blocks after a block was taken. -/
theorem mem_take_used {slack n : Nat} (hb : b.used = false) {x : Block} (hx : x.used = true) :
    x ∈ take hdr slack n l b r ↔ x ∈ l ++ b :: r ∨
      x = b.front (if n + hdr + slack ≤ b.size then n else b.size) := by
  have hxb : x ≠ b := fun h => by simp [h, hb] at hx
  have hxr : x ≠ b.rest hdr n := fun h => by simp [h, Block.rest] at hx
  rw [take]
  split
  · simp only [List.mem_append, List.mem_cons, hxb, hxr, false_or]
    tauto
  · simp only [List.mem_append, List.mem_cons, hxb, false_or]
    tauto

/-- The used blocks after a block was released. -/
theorem mem_release_used {x : Block} (hx : x.used = true) :
    x ∈ release hdr l b r ↔ x ∈ l ++ r := by
  have hprev : x ∈ (joinPrev hdr l b.freed).1 ↔ x ∈ l := by
    rcases List.eq_nil_or_concat' l with rfl | ⟨l, p, rfl⟩
    · exact Iff.rfl
    · rw [joinPrev_concat]
      split
      · exact Iff.rfl
      · next hp =>
          have hxp : x ≠ p := fun h => hp (h ▸ hx)
          simp [hxp]
  have hnext : ∀ y : Block, y.used = false →
      (x ∈ (joinNext hdr y r).1 :: (joinNext hdr y r).2 ↔ x ∈ r) := by
    intro y hy
    have hxy : x ≠ y := fun h => by simp [h, hy] at hx
    cases r with
    | nil => simp [joinNext, hxy]
    | cons q r =>
        rw [joinNext]
        split
        · simp [hxy]
        · next hq =>
            have hxq : x ≠ q := fun h => hq (h ▸ hx)
            have hxj : x ≠ y.join hdr q := fun h => by simp [h, Block.join] at hx
            simp [hxq, hxj]
  rw [release, List.mem_append, hprev, hnext _ (joinPrev_freed hdr l b), List.mem_append]

/-! ## Granularity -/

/-- Every block is a multiple of `k` bytes long. -/
def Granular (k : Nat) (bs : List Block) : Prop := ∀ b ∈ bs, k ∣ b.size

/-- The sizes of a first block and the rest are multiples. -/
theorem granular_cons {k : Nat} : Granular k (b :: bs) ↔ k ∣ b.size ∧ Granular k bs :=
  List.forall_mem_cons

/-- The sizes of both parts are multiples. -/
theorem granular_append {k : Nat} : Granular k (l ++ r) ↔ Granular k l ∧ Granular k r :=
  List.forall_mem_append

/-- **The blocks of a granular tiling start at multiples**, when the region and the headers do not
shift them. -/
theorem Tiles.dvd_addr {k : Nat} (h : Tiles hdr a bs z) (ha : k ∣ a) (hhdr : k ∣ hdr)
    (hg : Granular k bs) (hb : b ∈ bs) : k ∣ b.addr := by
  induction bs generalizing a with
  | nil => cases hb
  | cons d bs ih =>
      obtain ⟨rfl, hrest⟩ := h
      obtain ⟨hd, hg⟩ := granular_cons.mp hg
      rcases List.mem_cons.mp hb with rfl | hb
      · exact ha
      · apply ih hrest ?_ hg hb
        exact Nat.dvd_add (Nat.dvd_add ha hhdr) hd

/-- Taking a multiple out of a granular list leaves one. -/
theorem Granular.take {k slack n : Nat} (h : Granular k (l ++ b :: r)) (hn : k ∣ n)
    (hhdr : k ∣ hdr) : Granular k (take hdr slack n l b r) := by
  obtain ⟨hl, hb⟩ := granular_append.mp h
  obtain ⟨hb, hr⟩ := granular_cons.mp hb
  rw [Tiling.take]
  split
  · apply granular_append.mpr
    refine ⟨hl, granular_cons.mpr ⟨hn, granular_cons.mpr ⟨?_, hr⟩⟩⟩
    exact Nat.dvd_sub (Nat.dvd_sub hb hn) hhdr
  · exact granular_append.mpr ⟨hl, granular_cons.mpr ⟨hb, hr⟩⟩

/-- A join of two blocks is a multiple when both and the header between them are. -/
theorem Block.dvd_size_join {k : Nat} (hb : k ∣ b.size) (hhdr : k ∣ hdr) (hc : k ∣ c.size) :
    k ∣ (b.join hdr c).size :=
  Nat.dvd_add (Nat.dvd_add hb hhdr) hc

/-- **Releasing a block of a granular list leaves one.** -/
theorem Granular.release {k : Nat} (h : Granular k (l ++ b :: r)) (hhdr : k ∣ hdr) :
    Granular k (release hdr l b r) := by
  obtain ⟨hl, hb⟩ := granular_append.mp h
  obtain ⟨hb, hr⟩ := granular_cons.mp hb
  -- the join to the left, and then the one to the right of what it gives
  have hprev : Granular k (Tiling.joinPrev hdr l b.freed).1 ∧
      k ∣ (Tiling.joinPrev hdr l b.freed).2.size := by
    rcases List.eq_nil_or_concat' l with rfl | ⟨l, p, rfl⟩
    · exact ⟨hl, hb⟩
    · rw [joinPrev_concat]
      obtain ⟨hl', hp⟩ := granular_append.mp hl
      split
      · exact ⟨hl, hb⟩
      · exact ⟨hl', Block.dvd_size_join (hp p (by simp)) hhdr hb⟩
  have hnext : ∀ x : Block, k ∣ x.size →
      Granular k ((Tiling.joinNext hdr x r).1 :: (Tiling.joinNext hdr x r).2) := by
    intro x hx
    cases r with
    | nil => exact granular_cons.mpr ⟨hx, hr⟩
    | cons q r =>
        obtain ⟨hq, hr'⟩ := granular_cons.mp hr
        rw [Tiling.joinNext]
        split
        · exact granular_cons.mpr ⟨hx, hr⟩
        · exact granular_cons.mpr ⟨Block.dvd_size_join hx hhdr hq, hr'⟩
  exact granular_append.mpr ⟨hprev.1, hnext _ hprev.2⟩

/-! ## Free bytes -/

/-- There is no space in no blocks. -/
@[simp] theorem freeBytes_nil : freeBytes [] = 0 := rfl

/-- The space in a first block and the rest. -/
theorem freeBytes_cons (b : Block) (bs : List Block) :
    freeBytes (b :: bs) = (if b.used then 0 else b.size) + freeBytes bs := by
  cases hu : b.used <;> simp [freeBytes, hu]

/-- The space in both parts. -/
theorem freeBytes_append (l r : List Block) : freeBytes (l ++ r) = freeBytes l + freeBytes r := by
  simp [freeBytes]

/-- Taking uses up free bytes. -/
theorem freeBytes_take {slack n : Nat} (hb : b.used = false) :
    freeBytes (take hdr slack n l b r) + b.taken hdr slack n = freeBytes (l ++ b :: r) := by
  rw [take, Block.taken, freeBytes_append, freeBytes_cons, hb]
  split
  · rw [freeBytes_append, freeBytes_cons, freeBytes_cons]
    simp only [Block.front, Block.rest, Bool.false_eq_true, if_false, if_true]
    omega
  · rw [freeBytes_append, freeBytes_cons]
    simp only [Block.front, Bool.false_eq_true, if_false, if_true]
    omega

/-- How many of the neighbours are free. -/
def freeNeighbours (l r : List Block) : Nat :=
  l.getLast?.elim 0 (fun p => if p.used then 0 else 1)
    + r.head?.elim 0 (fun q => if q.used then 0 else 1)

/-- **Releasing gives back** the bytes of the block and one header for each free neighbour. -/
theorem freeBytes_release (hb : b.used = true) : freeBytes (release hdr l b r)
    = freeBytes (l ++ b :: r) + b.size + hdr * freeNeighbours l r := by
  -- merging to the left brings back one header when the left neighbour is free
  have hprev : freeBytes (joinPrev hdr l b.freed).1 + (joinPrev hdr l b.freed).2.size
      = freeBytes l + b.size + hdr * l.getLast?.elim 0 fun p => if p.used then 0 else 1 := by
    rcases List.eq_nil_or_concat' l with rfl | ⟨l, p, rfl⟩
    · simp [joinPrev, Block.freed]
    · rw [joinPrev_concat, List.getLast?_concat, freeBytes_append, freeBytes_cons]
      cases hu : p.used with
      | true => simp [Block.freed, freeBytes_append, freeBytes_cons, hu]
      | false =>
          simp only [Block.join, Block.freed, hu, Bool.false_eq_true, if_false, Option.elim_some,
            freeBytes_nil, Nat.mul_one]
          omega
  -- and to the right in the same way, whatever the left merge has made of the block
  have hnext : ∀ x : Block, x.used = false → (joinNext hdr x r).1.used = false ∧
      (joinNext hdr x r).1.size + freeBytes (joinNext hdr x r).2
      = x.size + freeBytes r + hdr * r.head?.elim 0 fun q => if q.used then 0 else 1 := by
    intro x hx
    cases r with
    | nil => exact ⟨hx, by simp [joinNext]⟩
    | cons q r =>
        rw [joinNext, List.head?_cons, freeBytes_cons]
        cases hu : q.used with
        | true => exact ⟨hx, by simp [freeBytes_cons, hu]⟩
        | false =>
            refine ⟨rfl, ?_⟩
            simp only [Block.join, hu, Bool.false_eq_true, if_false, Option.elim_some, Nat.mul_one]
            omega
  obtain ⟨hused, hsum⟩ := hnext _ (joinPrev_freed hdr l b)
  rw [release, freeBytes_append, freeBytes_append, freeBytes_cons, freeBytes_cons, hused, hb,
    freeNeighbours, Nat.mul_add]
  simp only [Bool.false_eq_true, if_false, if_true]
  omega

/-- No free block is larger than all of them together. -/
theorem size_le_freeBytes (hb : b ∈ bs) (hu : b.used = false) : b.size ≤ freeBytes bs := by
  obtain ⟨l, r, rfl⟩ := List.append_of_mem hb
  rw [freeBytes_append, freeBytes_cons, hu]
  simp only [Bool.false_eq_true, if_false]
  omega

/-- The free bytes of a tiling fit in it. -/
theorem Tiles.freeBytes_le (h : Tiles hdr a bs z) : a + freeBytes bs ≤ z := by
  induction bs generalizing a with
  | nil => exact Nat.le_of_eq h
  | cons b bs ih =>
      obtain ⟨rfl, h⟩ := h
      have := ih h
      rw [freeBytes_cons]
      rw [Block.finish] at this
      split <;> omega

end Tiling
