import Mathlib.Data.List.TakeWhile
import MiniRTOS.Lib.DeltaList
import MiniRTOS.Kernel.Frames
import MiniRTOS.Kernel.TimerLists

/-! # When timers expire

The ticks stored in the active list are differences, so the time a timer has left is a prefix sum. This
file follows the time left through every call and through the tick. `prv_timer_insert_sorted` compares
the new period with the differences themselves: this finds the right place only in front of the second
timer of the list. -/

namespace MiniRTOS

open PtrList Runs DeltaList

variable {s s' : Timers} {t x : TimerId} {A B : List TimerId} {fuel : Nat}

/-! ## Time left -/

/-- The ticks stored with every timer. -/
def Timers.gap (s : Timers) : TimerId → Nat := fun x => (s.rem x).toNat

/-- **The time left** of a timer in the active list. -/
def Timers.due (s : Timers) (A : List TimerId) (x : TimerId) : Nat := DeltaList.due s.gap A x

/-- The time left of a timer, when it is active. -/
def Timers.timeLeft (s : Timers) (A : List TimerId) (x : TimerId) : Option Nat :=
  if x ∈ A then some (s.due A x) else none

/-- **A list of differences that counts down**: the first timer has ticks left, and the prefix sums do
not wrap. -/
structure Spaced (s : Timers) (A : List TimerId) : Prop where
  /-- The active list. -/
  list : IsList s.nexts s.activeTimerList A
  /-- No timer twice. -/
  nodup : A.Nodup
  /-- The first timer has not expired. -/
  head : ∀ x ∈ A.head?, 0 < s.gap x
  /-- The prefix sums are 32-bit values. -/
  bound : ∀ x ∈ A, s.due A x < 2 ^ 32

/-- The active list with its flags and periods. -/
structure OnTime (s : Timers) (A : List TimerId) : Prop extends Spaced s A where
  /-- The flags. -/
  flags : ∀ x, (s.timer x).active = true ↔ x ∈ A
  /-- The periods. -/
  periods : ∀ x ∈ A, (s.timer x).period ≠ 0

/-- What is read of a state: the links and ticks of the listed timers. -/
theorem Spaced.congr (s' : Timers) (h : Spaced s A) (hn : ∀ y ∈ A, s'.nexts y = s.nexts y)
    (hl : s'.activeTimerList = s.activeTimerList) (hg : ∀ y ∈ A, s'.gap y = s.gap y) :
    Spaced s' A ∧ ∀ y, s'.due A y = s.due A y := by
  have hdue : ∀ y, s'.due A y = s.due A y := fun y => due_congr hg
  refine ⟨⟨⟨hl.trans h.list.head, h.list.path.congr hn⟩, h.nodup, fun y hy => ?_, fun y hy => ?_⟩, hdue⟩
  · rw [hg y (List.mem_of_mem_head? hy)]
    exact h.head y hy
  · rw [hdue]
    exact h.bound y hy

/-! ## Taking a timer out -/

/-- **Removing a timer** moves nobody else's expiry. -/
theorem Spaced.remove (h : Spaced s A) (ht : t ∈ A)
    (hs : prvTimerRemoveFromActive fuel s t = some s') :
    Spaced s' (A.erase t) ∧ SameSettings s s' ∧ ∀ x ∈ A.erase t, s'.due (A.erase t) x = s.due A x := by
  obtain ⟨pre, post, rfl⟩ := List.append_of_mem ht
  have hrem := prvTimerRemoveFromActive_spec h.list h.nodup hs
  obtain ⟨-, hndpost, hdisj⟩ := List.nodup_append.mp h.nodup
  have htpre : t ∉ pre := fun hp => hdisj t hp t (by simp) rfl
  have htpost : t ∉ post := (List.nodup_cons.mp hndpost).1
  have herase : (pre ++ t :: post).erase t = pre ++ post := by
    rw [List.erase_append_right _ htpre, List.erase_cons_head]
  rw [herase]
  -- the timer behind `t` gets the ticks of `t`, and the sum does not wrap
  have hnext : ∀ y ∈ post.head?, s'.gap y = s.gap t + s.gap y := by
    intro y hy
    have hypost := List.mem_of_mem_head? hy
    have hlt := h.bound y (by simp [hypost])
    have hypre : y ∉ pre := fun hp => hdisj y hp y (by simp [hypost]) rfl
    have hty : t ≠ y := fun e => htpost (e ▸ hypost)
    have hle : s.gap y ≤ DeltaList.due s.gap post y := le_due hypost
    rw [Timers.due, due_append_of_not_mem hypre, due_cons_of_ne _ _ hty] at hlt
    rw [Timers.gap, hrem.next y hy, BitVec.toNat_add, Nat.mod_eq_of_lt, Nat.add_comm]
    · rfl
    · simp only [Timers.gap] at hlt hle
      omega
  have hsame : ∀ y, post.head? ≠ some y → s'.gap y = s.gap y := fun y hy => by
    rw [Timers.gap, Timers.gap, hrem.others y hy]
  have hnd : (pre ++ post).Nodup :=
    h.nodup.sublist (List.Sublist.append_left (List.sublist_cons_self ..) _)
  have hdue : ∀ x ∈ pre ++ post, s'.due (pre ++ post) x = s.due (pre ++ t :: post) x := by
    intro x hx
    have hxt : x ≠ t := by
      rintro rfl
      exact (List.mem_append.mp hx).elim htpre htpost
    refine (due_splice (fun y hy => ?_) (fun y hy => ?_) (fun y hy => hnext y hy) hxt hx).symm
    · refine (hsame y fun hh => ?_).symm
      exact hdisj y hy y (by simp [List.mem_of_mem_head? hh]) rfl
    · refine (hsame y fun hh => ?_).symm
      cases post with
      | nil => cases hh
      | cons i post =>
          obtain rfl : i = y := Option.some.inj hh
          exact (List.nodup_cons.mp (List.nodup_cons.mp hndpost).2).1 hy
  refine ⟨⟨hrem.list, hnd, fun x hx => ?_, fun x hx => ?_⟩, hrem.settings, hdue⟩
  · cases pre with
    | nil =>
        have hpos := h.head t rfl
        rw [hnext x hx]
        exact Nat.lt_of_lt_of_le hpos (Nat.le_add_right ..)
    | cons a pre =>
        obtain rfl : a = x := Option.some.inj hx
        rw [hsame a fun hh => hdisj a (by simp) a (by simp [List.mem_of_mem_head? hh]) rfl]
        exact h.head a rfl
  · rw [hdue x hx]
    refine h.bound x ?_
    simp only [List.mem_append, List.mem_cons] at hx ⊢
    tauto

/-! ## Putting a timer in -/

/-- **The right distance**: with the ticks before it, the stored ticks make up `p`, and the timer behind
has as many. -/
theorem Inserted.due {pre post : List TimerId} {p : Nat} (h : Inserted s s' t pre post)
    (hnd : (pre ++ post).Nodup) (ht : t ∉ pre ++ post) (hsum : (pre.map s.gap).sum + s'.gap t = p)
    (hle : ∀ i ∈ post.head?, s'.gap t ≤ s.gap i) :
    s'.due (pre ++ t :: post) t = p ∧
      ∀ x ∈ pre ++ post, s'.due (pre ++ t :: post) x = s.due (pre ++ post) x := by
  obtain ⟨-, hndpost, hdisj⟩ := List.nodup_append.mp hnd
  have htpre : t ∉ pre := fun hp => ht (by simp [hp])
  have hsame : ∀ y, y ≠ t → post.head? ≠ some y → s'.gap y = s.gap y := fun y hy hi => by
    rw [Timers.gap, Timers.gap, h.others y hy hi]
  have hpre : ∀ y ∈ pre, s'.gap y = s.gap y := by
    intro y hy
    refine hsame y (fun e => htpre (e ▸ hy)) fun hh => ?_
    exact hdisj y hy y (List.mem_of_mem_head? hh) rfl
  refine ⟨?_, fun x hx => ?_⟩
  · rw [Timers.due, due_mid htpre, List.map_congr_left hpre, hsum]
  · refine due_splice hpre (fun y hy => ?_) (fun y hy => ?_) (fun e => ht (e ▸ hx)) hx
    · cases post with
      | nil => cases hy
      | cons i post =>
          refine hsame y (fun e => ht (by rw [← e]; simp [List.mem_of_mem_tail hy])) fun hh => ?_
          obtain rfl : i = y := Option.some.inj hh
          exact (List.nodup_cons.mp hndpost).1 hy
    · have hge := hle y hy
      simp only [Timers.gap] at hge ⊢
      rw [h.next y hy, BitVec.toNat_sub_of_le hge]
      omega

/-- **Where the comparison with differences is right**: `p` is less than the time left of the first
timer, or than the time between the first and the second, or there is no second. -/
def InsertsAt (due : TimerId → Nat) (p : Nat) : List TimerId → Prop
  | b₁ :: b₂ :: _ => p < due b₁ ∨ due b₁ + p < due b₂
  | _ => True

/-- The place does not depend on how the due times are written. -/
theorem InsertsAt.congr {d d' : TimerId → Nat} {p : Nat} (h : InsertsAt d p B)
    (hd : ∀ x ∈ B, d' x = d x) : InsertsAt d' p B := by
  match B, h, hd with
  | [], _, _ => trivial
  | [_], _, _ => trivial
  | b₁ :: b₂ :: _, h, hd =>
      show p < d' b₁ ∨ d' b₁ + p < d' b₂
      rw [hd b₁ (by simp), hd b₂ (by simp)]
      exact h

/-- The timer in front of the place found, when that place is right. -/
theorem Inserted.sum_of_insertsAt {pre post : List TimerId} (h : Inserted s s' t pre post)
    (hnd : (pre ++ post).Nodup) (hright : InsertsAt (s.due (pre ++ post)) (s.gap t) (pre ++ post)) :
    (pre.map s.gap).sum + s'.gap t = s.gap t ∧ ∀ i ∈ post.head?, s'.gap t ≤ s.gap i := by
  cases pre with
  -- in front of everything: nothing is subtracted
  | nil =>
      have hself : s'.gap t = s.gap t := by rw [Timers.gap, h.self]; rfl
      refine ⟨by simp [hself], fun i hi => ?_⟩
      rw [hself]
      exact Nat.le_of_lt (h.after i hi)
  | cons b₁ pre =>
      have hb₁ : s.gap b₁ ≤ s.gap t := Nat.le_of_not_lt (h.before b₁ (by simp))
      cases pre with
      -- behind one timer: the source subtracts that timer's delta, which is also its due time
      | nil =>
          have hself : s'.gap t = s.gap t - s.gap b₁ := by
            rw [Timers.gap, h.self]
            exact BitVec.toNat_sub_of_le hb₁
          refine ⟨by simp [hself]; omega, fun i hi => ?_⟩
          have hlt : s.gap t < s.gap i := h.after i hi
          omega
      | cons b₂ pre =>
          -- behind the second timer the comparison would have stopped earlier
          exfalso
          have hb₂ : s.gap b₂ ≤ s.gap t := Nat.le_of_not_lt (h.before b₂ (by simp))
          have hne : b₁ ≠ b₂ := by
            rintro rfl
            simp at hnd
          have hdue₁ : s.due (b₁ :: b₂ :: pre ++ post) b₁ = s.gap b₁ := due_cons_self ..
          have hdue₂ : s.due (b₁ :: b₂ :: pre ++ post) b₂ = s.gap b₁ + s.gap b₂ := by
            rw [Timers.due, List.cons_append, due_cons_of_ne _ _ hne, List.cons_append, due_cons_self]
          rcases hright with hlt | hlt
          · rw [hdue₁] at hlt
            omega
          · rw [hdue₁, hdue₂] at hlt
            omega

/-- **Inserting a timer at the right place**: it expires after the ticks it was given, and nobody else's
expiry moves. -/
theorem Spaced.insert (h : Spaced s B) (ht : t ∉ B) (hpos : 0 < s.gap t)
    (hright : InsertsAt (s.due B) (s.gap t) B)
    (hs : prvTimerInsertSorted fuel s t = some s') :
    ∃ A', Spaced s' A' ∧ SameSettings s s' ∧ (∀ x, x ∈ A' ↔ x = t ∨ x ∈ B) ∧
      s'.due A' t = s.gap t ∧ ∀ x ∈ B, s'.due A' x = s.due B x := by
  obtain ⟨pre, post, rfl, hins⟩ := prvTimerInsertSorted_spec h.list h.nodup ht hs
  -- where the comparison stops is where the due times say, so the deltas add up to the period
  obtain ⟨hsum, hle⟩ := hins.sum_of_insertsAt h.nodup hright
  obtain ⟨hself, hothers⟩ := hins.due h.nodup ht hsum hle
  have hmem : ∀ x, x ∈ pre ++ t :: post ↔ x = t ∨ x ∈ pre ++ post := by
    intro x
    simp only [List.mem_append, List.mem_cons]
    tauto
  have hnd : (pre ++ t :: post).Nodup :=
    List.perm_middle.nodup_iff.mpr (List.nodup_cons.mpr ⟨ht, h.nodup⟩)
  refine ⟨pre ++ t :: post, ⟨hins.list, hnd, fun x hx => ?_, fun x hx => ?_⟩, hins.settings, hmem, hself,
    hothers⟩
  · cases pre with
    | nil =>
        obtain rfl : t = x := Option.some.inj hx
        have hdue : s'.gap t = s.gap t := by simpa using hsum
        rw [hdue]
        exact hpos
    | cons a pre =>
        obtain rfl : a = x := Option.some.inj hx
        have hat : a ≠ t := fun e => ht (by simp [e])
        have hpost : post.head? ≠ some a := fun hh =>
          (List.nodup_append.mp h.nodup).2.2 a (by simp) a (List.mem_of_mem_head? hh) rfl
        rw [Timers.gap, hins.others a hat hpost]
        exact h.head a rfl
  · rcases (hmem x).mp hx with rfl | hx
    · rw [hself]
      exact (s.rem x).isLt
    · rw [hothers x hx]
      exact h.bound x hx

/-! ## Calls -/

/-- **What a call about `t` does**: all other timers keep their settings and their time left. -/
structure CallEffect (s s' : Timers) (A A' : List TimerId) (t : TimerId) : Prop where
  /-- The list counts down. -/
  onTime : OnTime s' A'
  /-- The others keep their time. -/
  others : ∀ x, x ≠ t → s'.timeLeft A' x = s.timeLeft A x
  /-- The others keep their settings. -/
  settings : ∀ x, x ≠ t →
    (s'.timer x).period = (s.timer x).period ∧ (s'.timer x).type = (s.timer x).type

/-- **Arming**: `t` is out of the list, its control block gets the ticks of its period and the active
flag, and it is put in. -/
theorem OnTime.arm {s₁ : Timers} {v : Timer} (h : OnTime s A) (h₁ : Spaced s₁ (A.erase t))
    (hset : SameSettings s s₁) (hdue : ∀ x ∈ A.erase t, s₁.due (A.erase t) x = s.due A x)
    (hs : prvTimerInsertSorted fuel (s₁.set t v) t = some s') (hact : v.active = true)
    (hrem : v.remaining = v.period) (hpos : v.period ≠ 0)
    (hright : InsertsAt (s.due A) v.period.toNat (A.erase t)) :
    ∃ A', CallEffect s s' A A' t ∧ s'.timeLeft A' t = some (s'.timer t).period.toNat := by
  set s₂ := s₁.set t v with hs₂
  have hself₂ : s₂.timer t = v := Function.update_self ..
  have hother : ∀ x, x ≠ t → s₂.timer x = s₁.timer x := fun x hx => Function.update_of_ne hx ..
  have htA : t ∉ A.erase t := h.nodup.not_mem_erase
  have hne : ∀ y ∈ A.erase t, y ≠ t := fun y hy e => htA (e ▸ hy)
  -- writing the timer's own record touches none of the ones in the list
  obtain ⟨h₂, hdue₂⟩ := h₁.congr s₂
    (fun y hy => by simp only [Timers.nexts, hother y (hne y hy)]) rfl
    (fun y hy => by simp only [Timers.gap, Timers.rem, hother y (hne y hy)])
  have hgap : s₂.gap t = v.period.toNat := by
    rw [Timers.gap, Timers.rem, hself₂, hrem]
  have hgpos : 0 < s₂.gap t := by
    rw [hgap]
    exact Nat.pos_of_ne_zero fun e => hpos (BitVec.eq_of_toNat_eq e)
  have hdueA : ∀ x ∈ A.erase t, s₂.due (A.erase t) x = s.due A x :=
    fun x hx => (hdue₂ x).trans (hdue x hx)
  have hright₂ : InsertsAt (s₂.due (A.erase t)) (s₂.gap t) (A.erase t) := by
    rw [hgap]
    exact hright.congr hdueA
  obtain ⟨A', h', hset', hmem, hself, hothers⟩ :=
    h₂.insert htA hgpos hright₂ hs
  have hmemA : ∀ x, x ≠ t → (x ∈ A' ↔ x ∈ A) := by
    intro x hx
    rw [hmem, List.mem_erase_of_ne hx]
    simp [hx]
  refine ⟨A', ⟨⟨h', fun x => ?_, fun x hx => ?_⟩, fun x hx => ?_, fun x hx => ?_⟩, ?_⟩
  · rw [hset'.active]
    by_cases hx : x = t
    · simp [hx, hself₂, hact, hmem]
    · rw [hother x hx, hset.active, h.flags, hmemA x hx]
  · rw [hset'.period]
    by_cases hxt : x = t
    · rw [hxt, hself₂]
      exact hpos
    · rw [hother x hxt, hset.period]
      exact h.periods x ((hmemA x hxt).mp hx)
  · unfold Timers.timeLeft
    by_cases hxA : x ∈ A
    · have hxe := (List.mem_erase_of_ne hx).mpr hxA
      rw [if_pos ((hmemA x hx).mpr hxA), if_pos hxA, hothers x hxe, hdueA x hxe]
    · rw [if_neg (mt (hmemA x hx).mp hxA), if_neg hxA]
  · rw [hset'.period, hset'.type, hother x hx, hset.period, hset.type]
    exact ⟨rfl, rfl⟩
  · rw [Timers.timeLeft, if_pos ((hmem t).mpr (Or.inl rfl)), hself, hgap, hset'.period, hself₂]

/-- A timer taken out of the list if it is active. -/
theorem OnTime.takeOut {s₁ : Timers} (h : OnTime s A)
    (hs : (if (s.timer t).active then prvTimerRemoveFromActive fuel s t else some s) = some s₁) :
    Spaced s₁ (A.erase t) ∧ SameSettings s s₁ ∧
      ∀ x ∈ A.erase t, s₁.due (A.erase t) x = s.due A x := by
  split at hs
  · next hact => exact h.toSpaced.remove ((h.flags t).mp hact) hs
  · next hact =>
      obtain rfl := Option.some.inj hs
      have ht : t ∉ A := fun ht => hact ((h.flags t).mpr ht)
      rw [List.erase_of_not_mem ht]
      exact ⟨h.toSpaced, .refl s, fun _ _ => rfl⟩

/-- Nothing happens to the list. -/
theorem OnTime.callEffect (h : OnTime s A) : CallEffect s s A A t :=
  ⟨h, fun _ _ => rfl, fun _ _ => ⟨rfl, rfl⟩⟩

/-- Stopping a timer leaves the others on time. -/
theorem OnTime.stopTimer (h : OnTime s A) (hs : stopTimer fuel s t = some s') :
    ∃ A', CallEffect s s' A A' t := by
  unfold MiniRTOS.stopTimer at hs
  split at hs
  · next hact =>
      obtain ⟨s₁, hrem, hs⟩ := Option.bind_eq_some_iff.mp hs
      obtain rfl := Option.some.inj hs
      obtain ⟨h₁, hset, hdue⟩ := h.toSpaced.remove ((h.flags t).mp hact) hrem
      obtain ⟨h₂, hdue₂⟩ := h₁.congr (s₁.setActive t false) (fun y _ => by rw [nexts_setActive]) rfl
        (fun y _ => by rw [Timers.gap, rem_setActive]; rfl)
      have htA : t ∉ A.erase t := h.nodup.not_mem_erase
      have hmem : ∀ x, x ≠ t → (x ∈ A.erase t ↔ x ∈ A) := fun x hx => List.mem_erase_of_ne hx
      refine ⟨A.erase t, ⟨h₂, fun x => ?_, fun x hx => ?_⟩, fun x hx => ?_, fun x hx => ?_⟩
      · rw [active_setActive, hset.active]
        by_cases hx : x = t
        · simp [hx, htA]
        · simp [hx, h.flags, hmem x hx]
      · rw [period_setActive, hset.period]
        exact h.periods x (List.mem_of_mem_erase hx)
      · unfold Timers.timeLeft
        by_cases hxA : x ∈ A
        · have hxe := (hmem x hx).mpr hxA
          rw [if_pos hxe, if_pos hxA, hdue₂, hdue x hxe]
        · rw [if_neg (mt (hmem x hx).mp hxA), if_neg hxA]
      · rw [period_setActive, type_setActive, hset.period, hset.type]
        exact ⟨rfl, rfl⟩
  · obtain rfl := Option.some.inj hs
    exact ⟨A, h.callEffect⟩

/-- A timer started in its right place is due after its period. -/
theorem OnTime.startTimer (h : OnTime s A) (hpos : (s.timer t).period ≠ 0)
    (hright : InsertsAt (s.due A) (s.timer t).period.toNat (A.erase t))
    (hs : startTimer fuel s t = some s') :
    ∃ A', CallEffect s s' A A' t ∧ s'.timeLeft A' t = some (s'.timer t).period.toNat := by
  obtain ⟨s₁, hout, hs⟩ := Option.bind_eq_some_iff.mp hs
  obtain ⟨h₁, hset, hdue⟩ := h.takeOut hout
  have hwrite : (s₁.setRemaining t (s₁.timer t).period).setActive t true
      = s₁.set t { s₁.timer t with remaining := (s₁.timer t).period, active := true } := by
    simp [Timers.setRemaining, Timers.setActive, Timers.set]
  rw [hwrite] at hs
  rw [← hset.period] at hpos hright
  exact h.arm h₁ hset hdue hs rfl rfl hpos hright

/-- So is one that is reset. -/
theorem OnTime.resetTimer (h : OnTime s A)
    (hright : (s.timer t).active = true →
      InsertsAt (s.due A) (s.timer t).period.toNat (A.erase t))
    (hs : resetTimer fuel s t = some s') :
    ∃ A', CallEffect s s' A A' t ∧
      ((s'.timer t).active = true → s'.timeLeft A' t = some (s'.timer t).period.toNat) := by
  unfold MiniRTOS.resetTimer at hs
  split at hs
  · next hact =>
      obtain ⟨s₁, hrem, hs⟩ := Option.bind_eq_some_iff.mp hs
      have ht := (h.flags t).mp hact
      have hpos := h.periods t ht
      obtain ⟨h₁, hset, hdue⟩ := h.toSpaced.remove ht hrem
      rw [← hset.period] at hpos hright
      obtain ⟨A', heff, hself⟩ :=
        h.arm h₁ hset hdue hs ((hset.active t).trans hact) rfl hpos (hright hact)
      exact ⟨A', heff, fun _ => hself⟩
  · next hact =>
      obtain rfl := Option.some.inj hs
      exact ⟨A, h.callEffect, fun ha => absurd ha hact⟩

/-- So is one with a new period. -/
theorem OnTime.changePeriodTimer {p : BitVec 32} (h : OnTime s A) (hp : p ≠ 0)
    (hright : (s.timer t).active = true → InsertsAt (s.due A) p.toNat (A.erase t))
    (hs : changePeriodTimer fuel s t p = some s') :
    ∃ A', CallEffect s s' A A' t ∧
      ((s'.timer t).active = true → s'.timeLeft A' t = some (s'.timer t).period.toNat) := by
  set s₀ := s.setPeriod t p with hs₀
  have hother : ∀ x, x ≠ t → s₀.timer x = s.timer x := fun x hx => Function.update_of_ne hx ..
  have hself : s₀.timer t = { s.timer t with period := p } := Function.update_self ..
  have hgap : s₀.gap = s.gap := by
    funext x
    rw [Timers.gap, Timers.gap, hs₀, rem_setPeriod]
  obtain ⟨hspaced, hdue₀⟩ := h.toSpaced.congr s₀ (fun y _ => by rw [hs₀, nexts_setPeriod]) rfl
    (fun y _ => by rw [hgap])
  have h₀ : OnTime s₀ A := by
    refine ⟨hspaced, fun x => by rw [hs₀, active_setPeriod, h.flags], fun x hx => ?_⟩
    by_cases hxt : x = t
    · rw [hxt, hself]
      exact hp
    · rw [hother x hxt]
      exact h.periods x hx
  -- what holds against the state with the new period holds against the one before
  have hback : ∀ A', CallEffect s₀ s' A A' t → CallEffect s s' A A' t := by
    intro A' heff
    refine ⟨heff.onTime, fun x hx => ?_, fun x hx => ?_⟩
    · rw [heff.others x hx, Timers.timeLeft, Timers.timeLeft, hdue₀]
    · rw [← hother x hx]
      exact heff.settings x hx
  unfold MiniRTOS.changePeriodTimer at hs
  rw [← hs₀] at hs
  dsimp only at hs
  split at hs
  · next hact =>
      obtain ⟨s₁, hrem, hs⟩ := Option.bind_eq_some_iff.mp hs
      obtain ⟨h₁, hset, hdue⟩ := h₀.toSpaced.remove ((h₀.flags t).mp hact) hrem
      have hper : (s₁.timer t).period = p := by rw [hset.period, hself]
      have hwrite : s₁.setRemaining t p = s₁.set t { s₁.timer t with remaining := p } := rfl
      rw [hwrite] at hs
      have hact' : (s.timer t).active = true := by rw [← active_setPeriod s t p]; exact hact
      obtain ⟨A', heff, hleft⟩ := h₀.arm h₁ hset hdue hs ((hset.active t).trans hact) hper.symm
        (by rw [hper]; exact hp)
        (by rw [hper]; exact (hright hact').congr fun x _ => hdue₀ x)
      exact ⟨A', hback A' heff, fun _ => hleft⟩
  · next hact =>
      obtain rfl := Option.some.inj hs
      exact ⟨A, hback A h₀.callEffect, fun ha => absurd ha hact⟩

/-! ## The tick -/

/-- The timers of the active list that a tick leaves in place. -/
def Timers.staying (s : Timers) (A : List TimerId) : List TimerId :=
  A.dropWhile fun t => decide ((countDown s).rem t = 0)

/-- The timers that expire come first. -/
theorem expiring_append_staying (s : Timers) (A : List TimerId) :
    s.expiring A ++ s.staying A = A := List.takeWhile_append_dropWhile

/-- Ticks as natural numbers are used up with the 32-bit ones. -/
theorem gap_eq_zero_iff : s.gap x = 0 ↔ s.rem x = 0 :=
  ⟨fun h => BitVec.eq_of_toNat_eq h, fun h => by rw [Timers.gap, h]; rfl⟩

/-- **Counting down** takes a tick from the first timer, and so from everybody. -/
theorem Spaced.counted {a : TimerId} (h : Spaced s (a :: A)) :
    (∀ x, x ≠ a → (countDown s).gap x = s.gap x) ∧ (countDown s).gap a + 1 = s.gap a ∧
      ∀ x, (countDown s).due (a :: A) x + 1 = s.due (a :: A) x := by
  have hlist : s.activeTimerList = some a := h.list.head
  have hrem : (countDown s).rem = Function.update s.rem a (s.rem a - 1) := by
    rw [countDown, hlist]
    exact rem_setRemaining ..
  have hother : ∀ x, x ≠ a → (countDown s).gap x = s.gap x := by
    intro x hx
    rw [Timers.gap, hrem, Function.update_of_ne hx]
    rfl
  have hself : (countDown s).gap a + 1 = s.gap a := by
    have hpos : 0 < s.gap a := h.head a rfl
    have hone : (1 : BitVec 32) ≤ s.rem a := hpos
    rw [Timers.gap, hrem, Function.update_self, BitVec.toNat_sub_of_le hone]
    exact Nat.sub_add_cancel hpos
  refine ⟨hother, hself, fun x => due_countDown hself fun y hy => hother y ?_⟩
  rintro rfl
  exact (List.nodup_cons.mp h.nodup).1 hy

/-- **The timers that expire** are those with one tick left. -/
theorem Spaced.mem_expiring (h : Spaced s A) : x ∈ s.expiring A ↔ x ∈ A ∧ s.due A x = 1 := by
  cases A with
  | nil => simp [Timers.expiring]
  | cons a A =>
      obtain ⟨-, -, hdue⟩ := h.counted
      have hpred : (fun y => decide ((countDown s).rem y = 0))
          = fun y => decide ((countDown s).gap y = 0) := by
        funext y
        rw [decide_eq_decide]
        exact gap_eq_zero_iff.symm
      have hx : x ∈ a :: A → (x ∈ s.expiring (a :: A) ↔ s.due (a :: A) x = 1) := by
        intro hx
        rw [Timers.expiring, hpred, ← due_eq_zero_iff hx h.nodup, ← hdue x]
        show (countDown s).due (a :: A) x = 0 ↔ _
        omega
      constructor
      · intro hz
        have hmem : x ∈ a :: A := (List.takeWhile_sublist _).subset hz
        exact ⟨hmem, (hx hmem).mp hz⟩
      · rintro ⟨hmem, hone⟩
        exact (hx hmem).mpr hone

/-- A timer that stays has one tick less. -/
theorem Spaced.due_staying (h : Spaced s A) (hx : x ∈ s.staying A) :
    (countDown s).due (s.staying A) x + 1 = s.due A x := by
  cases A with
  | nil => simp [Timers.staying] at hx
  | cons a A =>
      obtain ⟨-, -, hdue⟩ := h.counted
      have hsplit := expiring_append_staying s (a :: A)
      have hnd := h.nodup
      rw [← hsplit] at hnd
      have hxe : x ∉ s.expiring (a :: A) := fun hz => (List.nodup_append.mp hnd).2.2 x hz x hx rfl
      have hzeros : ∀ y ∈ s.expiring (a :: A), (countDown s).gap y = 0 := by
        intro y hy
        have hz := List.mem_takeWhile_imp (p := fun y => decide ((countDown s).rem y = 0)) hy
        exact gap_eq_zero_iff.mpr (of_decide_eq_true hz)
      have hdrop := due_drop_zeros (d := (countDown s).gap) (r := s.staying (a :: A)) hzeros hxe
      rw [hsplit] at hdrop
      rw [← hdue x]
      exact congrArg (· + 1) hdrop.symm

/-- The time left after a tick. -/
def afterTick (type : TimerType) (period : Nat) : Option Nat → Option Nat
  | none => none
  | some n =>
      if n = 1 then
        match type with
        | .autoReload => some period
        | .oneShot => none
      else some (n - 1)

/-- A timer that does not expire has a tick less to go. -/
theorem afterTick_of_ne {type : TimerType} {p n : Nat} (h : n ≠ 1) :
    afterTick type p (some n) = some (n - 1) := if_neg h

/-- **What a tick does**: everybody has one tick less, the timers that had one tick left expire once,
and auto-reload timers among them start again. -/
structure TickEffect (s s' : Timers) (A A' ts : List TimerId) : Prop where
  /-- The list counts down. -/
  onTime : OnTime s' A'
  /-- The timers that expire. -/
  expired : ∀ x, ts.count x = if s.timeLeft A x = some 1 then 1 else 0
  /-- The time left. -/
  left : ∀ x, s'.timeLeft A' x
    = afterTick (s.timer x).type (s.timer x).period.toNat (s.timeLeft A x)
  /-- The settings. -/
  settings : ∀ x, (s'.timer x).period = (s.timer x).period ∧ (s'.timer x).type = (s.timer x).type

/-- The state of the loop of `os_timer_tick`: `B` is what is left of the active list, with the ticks of
`s₀`. -/
structure Sweep (s₀ s : Timers) (B : List TimerId) : Prop where
  /-- The active list. -/
  list : IsList s.nexts s.activeTimerList B
  /-- No timer twice. -/
  nodup : B.Nodup
  /-- The flags. -/
  flags : ∀ x, (s.timer x).active = true ↔ x ∈ B
  /-- The ticks. -/
  rem : s.rem = s₀.rem
  /-- The settings. -/
  settings : ∀ x, (s.timer x).period = (s₀.timer x).period ∧ (s.timer x).type = (s₀.timer x).type
  /-- The kernel. -/
  kernel : s.kernel = s₀.kernel

/-- The sweep takes a one-shot timer off the list. -/
theorem Sweep.expireOneShot {s₀ : Timers} (h : Sweep s₀ s (t :: B)) :
    Sweep s₀ (expireOneShot s t) B := by
  obtain ⟨htB, hnd⟩ := List.nodup_cons.mp h.nodup
  refine ⟨⟨?_, ?_⟩, hnd, fun x => ?_, by rw [rem_expireOneShot, h.rem], fun x => ?_, h.kernel⟩
  · show s.nexts t = B.head?
    simpa using h.list.path.1
  · refine h.list.path.2.congr fun x hx => ?_
    rw [nexts_expireOneShot, Function.update_of_ne]
    rintro rfl
    exact htB hx
  · rw [active_expireOneShot]
    by_cases hx : x = t
    · simp [hx, htB]
    · simpa [hx] using h.flags x
  · rw [period_expireOneShot, type_expireOneShot]
    exact h.settings x

/-- The rest of the loop, when it expires one-shot timers only. -/
theorem Sweep.expireLoop {walk : Nat} {s₀ : Timers} {ts : List TimerId} (h : Sweep s₀ s B)
    (hty : ∀ t ∈ B.takeWhile fun t => decide (s.rem t = 0), (s.timer t).type = .oneShot)
    (hs : expireLoop walk fuel s = some (ts, s')) :
    ts = (B.takeWhile fun t => decide (s.rem t = 0)) ∧
      Sweep s₀ s' (B.dropWhile fun t => decide (s.rem t = 0)) :=
  expireLoop_oneShot (P := fun s B => Sweep s₀ s B) (fun _ _ h => h.list)
    (fun _ _ _ h => h.expireOneShot) h hty hs

/-- The first timer that stays has ticks left. -/
theorem staying_head (s : Timers) (A : List TimerId) :
    ∀ x ∈ (s.staying A).head?, 0 < (countDown s).gap x := by
  intro x hx
  have hne := List.head?_dropWhile_not (fun t => decide ((countDown s).rem t = 0)) A
  rw [Timers.staying] at hx
  rw [Option.mem_def.mp hx] at hne
  have hrem : (countDown s).rem x ≠ 0 := by simpa using hne
  exact Nat.pos_of_ne_zero fun hz => hrem (gap_eq_zero_iff.mp hz)

/-- **Reloads that keep the list**: a timer that expires and is auto-reload is the first of the list,
the expired list is empty, and at most one timer stays, with no more ticks than the period. Then the
timer is put at the end of the list, and the null pointer that the expired list writes into its `next`
is the one it has. -/
def ReloadsLast (s : Timers) (A : List TimerId) : Prop :=
  ∀ t ∈ s.expiring A, (s.timer t).type = .autoReload →
    A.head? = some t ∧ s.expiredList = none ∧ (s.staying A).length ≤ 1 ∧
      ∀ r ∈ s.staying A, s.gap r ≤ (s.timer t).period.toNat

/-- How the effect of a tick is read off the final list. -/
theorem OnTime.tickEffect {A' ts : List TimerId} (h : OnTime s A)
    (hlist : IsList s'.nexts s'.activeTimerList A') (hnd : A'.Nodup)
    (hflags : ∀ x, (s'.timer x).active = true ↔ x ∈ A') (hts : ts = s.expiring A)
    (hmem : ∀ x, x ∈ A' ↔ x ∈ s.staying A ∨ x ∈ s.expiring A ∧ (s.timer x).type = .autoReload)
    (hhead : ∀ x ∈ A'.head?, 0 < s'.gap x)
    (hstay : ∀ x ∈ s.staying A, s'.due A' x = (countDown s).due (s.staying A) x)
    (hreload : ∀ x ∈ s.expiring A, (s.timer x).type = .autoReload →
      s'.due A' x = (s.timer x).period.toNat)
    (hset : ∀ x, (s'.timer x).period = (s.timer x).period ∧ (s'.timer x).type = (s.timer x).type) :
    TickEffect s s' A A' ts := by
  have hsplit := expiring_append_staying s A
  have hnd₀ := h.nodup
  rw [← hsplit] at hnd₀
  obtain ⟨hndz, -, hdisj⟩ := List.nodup_append.mp hnd₀
  have hin : ∀ x, x ∈ A ↔ x ∈ s.expiring A ∨ x ∈ s.staying A := fun x => by
    rw [← List.mem_append, hsplit]
  -- what is one tick away is what the loop expires
  have hone : ∀ x, s.timeLeft A x = some 1 ↔ x ∈ s.expiring A := by
    intro x
    rw [h.toSpaced.mem_expiring, Timers.timeLeft]
    split
    · next hx => simp [hx]
    · next hx => simp [hx]
  have hA' : ∀ x ∈ A', x ∈ A := by
    intro x hx
    rw [hin]
    rcases (hmem x).mp hx with hx | hx
    · exact Or.inr hx
    · exact Or.inl hx.1
  have hstayA : ∀ x ∈ s.staying A, s'.due A' x + 1 = s.due A x := fun x hx => by
    rw [hstay x hx, h.toSpaced.due_staying hx]
  refine ⟨⟨⟨hlist, hnd, hhead, fun x hx => ?_⟩, hflags, fun x hx => ?_⟩, fun x => ?_, fun x => ?_, hset⟩
  · rcases (hmem x).mp hx with hx | ⟨hx, hty⟩
    · have hlt := h.bound x ((hin x).mpr (Or.inr hx))
      have := hstayA x hx
      omega
    · rw [hreload x hx hty]
      exact (s.timer x).period.isLt
  · rw [(hset x).1]
    exact h.periods x (hA' x hx)
  · rw [hts]
    by_cases hx : x ∈ s.expiring A
    · rw [if_pos ((hone x).mpr hx), List.count_eq_one_of_mem hndz hx]
    · rw [if_neg (mt (hone x).mp hx), List.count_eq_zero_of_not_mem hx]
  · by_cases hx : x ∈ A
    · rcases (hin x).mp hx with hz | hr
      · rw [(hone x).mpr hz, Timers.timeLeft]
        have hxr : x ∉ s.staying A := fun hr => hdisj x hz x hr rfl
        cases hty : (s.timer x).type with
        | autoReload =>
            rw [if_pos ((hmem x).mpr (Or.inr ⟨hz, hty⟩)), hreload x hz hty]
            rfl
        | oneShot =>
            refine if_neg fun hx' => ?_
            rcases (hmem x).mp hx' with hr | hr
            · exact hxr hr
            · rw [hty] at hr
              cases hr.2
      · have hxz : x ∉ s.expiring A := fun hz => hdisj x hz x hr rfl
        have hdue := hstayA x hr
        have hne : s.due A x ≠ 1 := fun e => hxz (h.toSpaced.mem_expiring.mpr ⟨hx, e⟩)
        rw [Timers.timeLeft, Timers.timeLeft, if_pos ((hmem x).mpr (Or.inl hr)), if_pos hx,
          afterTick_of_ne hne, ← hdue, Nat.add_sub_cancel]
    · rw [Timers.timeLeft, Timers.timeLeft, if_neg fun hx' => hx (hA' x hx'), if_neg hx]
      rfl

/-- The loop of the tick begins with the whole list. -/
theorem OnTime.sweep (h : OnTime s A) : Sweep (countDown s) (countDown s) A := by
  have hset := settings_countDown s
  refine ⟨⟨(activeTimerList_countDown s).trans h.list.head, ?_⟩, h.nodup, fun x => ?_, rfl,
    fun _ => ⟨rfl, rfl⟩, rfl⟩
  · rw [nexts_countDown]
    exact h.list.path
  · rw [hset.active, h.flags]

/-- **The tick without reloads.** -/
theorem OnTime.tick_oneShot {ts : List TimerId} (h : OnTime s A)
    (hty : ∀ t ∈ s.expiring A, (s.timer t).type = .oneShot)
    (hs : expireLoop fuel fuel (countDown s) = some (ts, s')) :
    TickEffect s s' A (s.staying A) ts := by
  have hset := settings_countDown s
  obtain ⟨hts, hend⟩ := h.sweep.expireLoop (fun t ht => (hset.type t).trans (hty t ht)) hs
  have hgap : s'.gap = (countDown s).gap := by
    funext x
    rw [Timers.gap, Timers.gap, hend.rem]
  have hnever : ∀ x ∈ s.expiring A, (s.timer x).type ≠ .autoReload := fun x hx => by
    rw [hty x hx]
    decide
  refine h.tickEffect hend.list hend.nodup hend.flags hts (fun x => ?_) (fun x hx => ?_) (fun x hx => ?_)
    (fun x hx ha => absurd ha (hnever x hx)) fun x => ?_
  · exact ⟨Or.inl, fun hx => hx.elim id fun hz => absurd hz.2 (hnever x hz.1)⟩
  · rw [hgap]
    exact staying_head s A x hx
  · rw [Timers.due, hgap]
    rfl
  · rw [(hend.settings x).1, (hend.settings x).2, hset.period, hset.type]
    exact ⟨rfl, rfl⟩

/-- A list of zeros and at most one further entry adds up to its last entry. -/
theorem sum_eq_last {g : TimerId → Nat} {z r : List TimerId} (hz : ∀ y ∈ z, g y = 0)
    (hr : r.length ≤ 1) {w : TimerId} (hw : w ∈ (z ++ r).getLast?) : ((z ++ r).map g).sum = g w := by
  have hsum : (z.map g).sum = 0 := by
    refine List.sum_eq_zero fun n hn => ?_
    obtain ⟨y, hy, rfl⟩ := List.mem_map.mp hn
    exact hz y hy
  rw [List.map_append, List.sum_append, hsum]
  match r, hr with
  | [], _ =>
      rw [List.append_nil] at hw
      simp [hz w (List.mem_of_getLast? hw)]
  | [y], _ =>
      rw [List.getLast?_concat] at hw
      simp [Option.some.inj hw]

/-- **A reloaded timer** at the end of a list of zeros and at most one further timer: it is put last
and gets the rest of its period. -/
theorem reload_last {a : TimerId} {z r : List TimerId}
    (hlist : IsList s.nexts s.activeTimerList (z ++ r)) (hnd : (z ++ r).Nodup) (ha : a ∉ z ++ r)
    (hz : ∀ y ∈ z, s.gap y = 0) (hr : r.length ≤ 1) (hle : ∀ y ∈ r, s.gap y ≤ s.gap a)
    (hs : prvTimerInsertSorted fuel s a = some s') :
    Inserted s s' a (z ++ r) [] ∧ s'.due (z ++ r ++ [a]) a = s.gap a := by
  obtain ⟨pre, post, hsplit, hins⟩ := prvTimerInsertSorted_spec hlist hnd ha hs
  have hall : ∀ y ∈ z ++ r, s.gap y ≤ s.gap a := by
    intro y hy
    rcases List.mem_append.mp hy with hy | hy
    · rw [hz y hy]
      exact Nat.zero_le _
    · exact hle y hy
  -- everything left is due no later than a whole period, so the walk runs off the end
  obtain rfl : post = [] := by
    cases post with
    | nil => rfl
    | cons y post =>
        have hlt : s.gap a < s.gap y := hins.after y rfl
        exact absurd hlt (Nat.not_lt.mpr (hall y (by rw [hsplit]; simp)))
  rw [List.append_nil] at hsplit
  subst hsplit
  -- of the deltas in front at most the last is nonzero, and that one is subtracted
  have hsum : ((z ++ r).map s.gap).sum + s'.gap a = s.gap a := by
    have hself := hins.self
    cases hlast : (z ++ r).getLast? with
    | none =>
        rw [hlast] at hself
        have hnil : z ++ r = [] := List.getLast?_eq_none_iff.mp hlast
        simp [hnil, Timers.gap, hself, Timers.remBehind]
    | some w =>
        rw [hlast] at hself
        have hw := hall w (List.mem_of_getLast? hlast)
        have hgap : s'.gap a = s.gap a - s.gap w := by
          rw [Timers.gap, hself]
          exact BitVec.toNat_sub_of_le hw
        rw [sum_eq_last hz hr hlast, hgap]
        omega
  have hdue := hins.due (p := s.gap a) (by rw [List.append_nil]; exact hnd)
    (by rw [List.append_nil]; exact ha) hsum (by simp)
  exact ⟨hins, hdue.1⟩

/-- The state in which the tick re-inserts an auto-reload timer. -/
def reinserting (s : Timers) (a : TimerId) : Timers :=
  (({ s with activeTimerList := s.nexts a } : Timers).setRemaining a (s.timer a).period).setNext a none

/-- An auto-reload timer is inserted again before it is put on the expired list. -/
theorem expireTimer_reload (hauto : (s.timer t).type = .autoReload) :
    expireTimer fuel s t = (prvTimerInsertSorted fuel (reinserting s t) t).map (pushExpired · t) := by
  unfold expireTimer
  exact congrArg (Option.map _) (if_pos hauto)

/-- Setting the difference to the period keeps the settings. -/
theorem settings_reinserting (s : Timers) (a : TimerId) : SameSettings s (reinserting s a) :=
  ((SameSettings.setActiveList ..).trans (.setRemaining ..)).trans (.setNext ..)

/-- The reloaded timer has its period to go, and the others what they had. -/
theorem gap_reinserting (s : Timers) (a : TimerId) :
    (reinserting s a).gap a = (s.timer a).period.toNat ∧
      ∀ y, y ≠ a → (reinserting s a).gap y = s.gap y := by
  constructor
  · rw [Timers.gap, reinserting, rem_setNext, rem_setRemaining, Function.update_self]
  · intro y hy
    rw [Timers.gap, reinserting, rem_setNext, rem_setRemaining, Function.update_of_ne hy, rem_setList]
    rfl

/-- The list behind the first timer. -/
theorem Sweep.reinserting {s₀ : Timers} {a : TimerId} (h : Sweep s₀ s (a :: B)) :
    IsList (reinserting s a).nexts (reinserting s a).activeTimerList B := by
  have hnext : s.nexts a = B.head? := by simpa using h.list.path.1
  refine ⟨hnext, h.list.path.2.congr fun y hy => ?_⟩
  have hya : y ≠ a := fun e => (List.nodup_cons.mp h.nodup).1 (e ▸ hy)
  rw [MiniRTOS.reinserting, nexts_setNext, Function.update_of_ne hya, nexts_setRemaining, nexts_setList]

/-- The iteration of the loop that reloads the first timer. -/
theorem Sweep.reload {s₁ : Timers} {a : TimerId} {z r : List TimerId} (h : Sweep s s (a :: (z ++ r)))
    (hauto : (s.timer a).type = .autoReload) (hexp : s.expiredList = none)
    (hz : ∀ y ∈ z, s.gap y = 0) (hr : r.length ≤ 1)
    (hle : ∀ y ∈ r, s.gap y ≤ (s.timer a).period.toNat) (hs : expireTimer fuel s a = some s₁) :
    Sweep s₁ s₁ (z ++ r ++ [a]) ∧ (∀ y, y ≠ a → s₁.gap y = s.gap y) ∧
      s₁.due (z ++ r ++ [a]) a = (s.timer a).period.toNat ∧
      (∀ x, (s₁.timer x).period = (s.timer x).period ∧ (s₁.timer x).type = (s.timer x).type) ∧
      s₁.kernel = s.kernel := by
  rw [expireTimer_reload hauto] at hs
  obtain ⟨s₂, hins, rfl⟩ := Option.map_eq_some_iff.mp hs
  obtain ⟨ha, hnd⟩ := List.nodup_cons.mp h.nodup
  obtain ⟨hgapa, hgap₀⟩ := gap_reinserting s a
  have hne : ∀ y ∈ z ++ r, y ≠ a := fun y hy e => ha (e ▸ hy)
  obtain ⟨hins, hdue⟩ := reload_last h.reinserting hnd ha
    (fun y hy => by rw [hgap₀ y (hne y (by simp [hy])), hz y hy]) hr
    (fun y hy => by rw [hgap₀ y (hne y (by simp [hy])), hgapa]; exact hle y hy) hins
  have hset := (settings_reinserting s a).trans hins.settings
  -- the link to the empty expired list is the null pointer that ends the active list
  have hlast : s₂.nexts a = none := by simpa using hins.list.path.next_of_append
  have hnexts : (pushExpired s₂ a).nexts = s₂.nexts := by
    rw [nexts_pushExpired, hset.expiredList, hexp, ← hlast, Function.update_eq_self]
  refine ⟨⟨⟨hins.list.head, by rw [hnexts]; exact hins.list.path⟩, ?_, fun x => ?_, rfl,
    fun _ => ⟨rfl, rfl⟩, rfl⟩, fun y hy => ?_, ?_, fun x => ?_, hset.kernel⟩
  · exact List.perm_middle.nodup_iff.mpr (List.nodup_cons.mpr ⟨by simpa using ha, by simpa using hnd⟩)
  · rw [(timer_pushExpired ..).1, hset.active, h.flags]
    simp only [List.mem_append, List.mem_cons, List.not_mem_nil, or_false]
    tauto
  · rw [Timers.gap, rem_pushExpired, hins.others y hy (by simp)]
    exact hgap₀ y hy
  · rw [Timers.due, show (pushExpired s₂ a).gap = s₂.gap by funext y; rw [Timers.gap, rem_pushExpired]; rfl]
    exact hdue.trans hgapa
  · rw [(timer_pushExpired ..).2.1, (timer_pushExpired ..).2.2, hset.period, hset.type]
    exact ⟨rfl, rfl⟩

/-- The run of zeros in front of a list whose next entry is not zero. -/
theorem takeWhile_zeros {d : TimerId → BitVec 32} {z w : List TimerId} (hz : ∀ y ∈ z, d y = 0)
    (hw : ∀ y ∈ w.head?, d y ≠ 0) :
    ((z ++ w).takeWhile fun y => decide (d y = 0)) = z ∧
      ((z ++ w).dropWhile fun y => decide (d y = 0)) = w := by
  have hzp : ∀ y ∈ z, decide (d y = 0) = true := fun y hy => decide_eq_true (hz y hy)
  rw [List.takeWhile_append_of_pos hzp, List.dropWhile_append_of_pos hzp]
  cases w with
  | nil => simp
  | cons b w =>
      have hb : d b ≠ 0 := hw b rfl
      simp only [List.takeWhile_cons, List.dropWhile_cons, hb, decide_false, Bool.false_eq_true, if_false,
        List.append_nil, and_self]

/-- **A tick that reloads the first timer**: behind it come the one-shot timers `z` that expire too, and
the at most one timer of `r` that stays. -/
structure ReloadSplit (s : Timers) (a : TimerId) (A z r : List TimerId) : Prop where
  /-- The list behind the first timer. -/
  split : A = z ++ r
  /-- The timers that expire. -/
  expiring : s.expiring (a :: A) = a :: z
  /-- The timers that stay. -/
  staying : s.staying (a :: A) = r
  /-- The first timer has used up its ticks. -/
  first : (countDown s).rem a = 0
  /-- So have those that expire with it. -/
  zeros : ∀ y ∈ z, (countDown s).gap y = 0
  /-- They are one-shot. -/
  oneShot : ∀ y ∈ z, (s.timer y).type = .oneShot
  /-- At most one timer stays. -/
  short : r.length ≤ 1
  /-- It has no more ticks than the period. -/
  le : ∀ y ∈ r, (countDown s).gap y ≤ (s.timer a).period.toNat
  /-- The expired list is empty. -/
  empty : s.expiredList = none
  /-- The first timer is auto-reload. -/
  auto : (s.timer a).type = .autoReload

/-- A reloaded timer goes behind all that expire in this tick. -/
theorem OnTime.reloadSplit {a : TimerId} (h : OnTime s (a :: A)) (ha : a ∈ s.expiring (a :: A))
    (hauto : (s.timer a).type = .autoReload) (hlast : ReloadsLast s (a :: A)) :
    ∃ z r, ReloadSplit s a A z r := by
  obtain ⟨hexp, hr, hle⟩ := (hlast a ha hauto).2
  have haA := (List.nodup_cons.mp h.nodup).1
  have hzero : ∀ y ∈ s.expiring (a :: A), (countDown s).rem y = 0 := fun y hy =>
    of_decide_eq_true (List.mem_takeWhile_imp (p := fun y => decide ((countDown s).rem y = 0)) hy)
  obtain ⟨z, hzeros⟩ : ∃ z, s.expiring (a :: A) = a :: z := by
    rw [Timers.expiring, List.takeWhile_cons, hzero a ha]
    exact ⟨_, rfl⟩
  have hmem : ∀ y ∈ z, y ∈ s.expiring (a :: A) := fun y hy => by
    rw [hzeros]
    exact List.mem_cons_of_mem _ hy
  have hsplit : A = z ++ s.staying (a :: A) := by
    have happ := expiring_append_staying s (a :: A)
    rw [hzeros, List.cons_append] at happ
    exact (List.cons.inj happ).2.symm
  refine ⟨z, s.staying (a :: A), hsplit, hzeros, rfl, hzero a ha,
    fun y hy => gap_eq_zero_iff.mpr (hzero y (hmem y hy)), fun y hy => ?_, hr, fun y hy => ?_, hexp, hauto⟩
  · cases hty : (s.timer y).type with
    | oneShot => rfl
    | autoReload =>
        -- it would have to be the first timer as well
        obtain rfl : a = y := Option.some.inj (hlast y (hmem y hy) hty).1
        exact absurd (by rw [hsplit]; simp [hy]) haA
  · have hya : y ≠ a := by
      rintro rfl
      exact haA (by rw [hsplit]; simp [hy])
    rw [h.toSpaced.counted.1 y hya]
    exact hle y hy

/-- The rest of the loop after the first timer has been reloaded. -/
theorem ReloadSplit.rest {a : TimerId} {z r : List TimerId} {s₁ : Timers} (hsp : ReloadSplit s a A z r)
    (h : OnTime s (a :: A)) (hs : expireTimer fuel (countDown s) a = some s₁) :
    Sweep s₁ s₁ (z ++ (r ++ [a])) ∧ (∀ y, y ≠ a → s₁.gap y = (countDown s).gap y) ∧
      s₁.due (r ++ [a]) a = (s.timer a).period.toNat ∧
      (∀ x, (s₁.timer x).period = (s.timer x).period ∧ (s₁.timer x).type = (s.timer x).type) ∧
      (∀ y ∈ (r ++ [a]).head?, 0 < s₁.gap y) ∧ s₁.kernel = s.kernel := by
  have hset := settings_countDown s
  have hstart := h.sweep
  have hnd := h.nodup
  rw [hsp.split] at hstart hnd
  have hne : ∀ y ∈ z ++ r, y ≠ a := fun y hy e => (List.nodup_cons.mp hnd).1 (e ▸ hy)
  obtain ⟨hsweep, hgap, hdue, hset₁, hk⟩ := hstart.reload ((hset.type a).trans hsp.auto)
    (hset.expiredList.trans hsp.empty) hsp.zeros hsp.short
    (fun y hy => by rw [hset.period]; exact hsp.le y hy) hs
  rw [List.append_assoc] at hsweep hdue
  -- the timers still to expire have delta zero, so they do not shift the reloaded one
  have hz₁ : ∀ y ∈ z, s₁.gap y = 0 := fun y hy => by
    rw [hgap y (hne y (by simp [hy])), hsp.zeros y hy]
  have haz : a ∉ z := fun hy => hne a (by simp [hy]) rfl
  have hduea : s₁.due (r ++ [a]) a = (s.timer a).period.toNat := by
    rw [← hset.period, ← hdue]
    exact (due_drop_zeros hz₁ haz).symm
  refine ⟨hsweep, hgap, hduea, fun x => ?_, fun y hy => ?_, hk.trans hset.kernel⟩
  · rw [(hset₁ x).1, (hset₁ x).2, hset.period, hset.type]
    exact ⟨rfl, rfl⟩
  · cases r with
    | nil =>
        obtain rfl : a = y := Option.some.inj hy
        have hgapa : s₁.gap a = (s.timer a).period.toNat := by
          rw [← hduea]
          exact (due_cons_self ..).symm
        rw [hgapa]
        exact Nat.pos_of_ne_zero fun e => h.periods a (by simp) (BitVec.eq_of_toNat_eq e)
    | cons b r =>
        obtain rfl : b = y := Option.some.inj hy
        rw [hgap b (hne b (by simp))]
        exact staying_head s (a :: A) b (by rw [hsp.staying]; rfl)

/-- The timers that the rest of the loop expires. -/
theorem ReloadSplit.takeWhile {a : TimerId} {z r : List TimerId} {s₁ : Timers}
    (hsp : ReloadSplit s a A z r) (h : OnTime s (a :: A))
    (hs : expireTimer fuel (countDown s) a = some s₁) :
    ((z ++ (r ++ [a])).takeWhile fun y => decide (s₁.rem y = 0)) = z ∧
      ((z ++ (r ++ [a])).dropWhile fun y => decide (s₁.rem y = 0)) = r ++ [a] := by
  obtain ⟨-, hgap, -, -, hhead, -⟩ := hsp.rest h hs
  refine takeWhile_zeros (fun y hy => ?_) (fun y hy hzero => ?_)
  · have hya : y ≠ a := by
      rintro rfl
      exact (List.nodup_cons.mp h.nodup).1 (by rw [hsp.split]; simp [hy])
    rw [← gap_eq_zero_iff, hgap y hya, hsp.zeros y hy]
  · have hpos := hhead y hy
    rw [gap_eq_zero_iff.mpr hzero] at hpos
    exact Nat.lt_irrefl 0 hpos

/-- **The tick with a reload.** -/
theorem OnTime.tick_reload {a : TimerId} {ts z r : List TimerId} (h : OnTime s (a :: A))
    (hsp : ReloadSplit s a A z r) (hs : expireLoop fuel fuel (countDown s) = some (ts, s')) :
    TickEffect s s' (a :: A) (r ++ [a]) ts := by
  rcases expireLoop_cases h.sweep.list hs with
    ⟨hpos, -⟩ | ⟨t, B, n, s₁, us, hB, -, -, hone, hloop, rfl⟩
  · exact absurd hsp.first (hpos a rfl)
  obtain ⟨rfl, rfl⟩ := List.cons.inj hB
  obtain ⟨hsweep, hgap, hdue, hset, hhead, -⟩ := hsp.rest h hone
  obtain ⟨htake, hdrop⟩ := hsp.takeWhile h hone
  obtain ⟨hus, hend⟩ := hsweep.expireLoop (fun y hy => by
    rw [htake] at hy
    rw [(hset y).2, hsp.oneShot y hy]) hloop
  rw [htake] at hus
  rw [hdrop] at hend
  have hgap' : s'.gap = s₁.gap := by
    funext y
    rw [Timers.gap, Timers.gap, hend.rem]
  have htype : ∀ y ∈ z, (s.timer y).type ≠ .autoReload := fun y hy => by
    rw [hsp.oneShot y hy]
    decide
  refine h.tickEffect hend.list hend.nodup hend.flags (by rw [hsp.expiring, hus]) (fun x => ?_)
    (fun y hy => by rw [hgap']; exact hhead y hy) (fun y hy => ?_) (fun y hy hty => ?_) fun x => ?_
  · rw [hsp.expiring, hsp.staying]
    simp only [List.mem_append, List.mem_cons, List.not_mem_nil, or_false]
    refine or_congr_right ⟨?_, ?_⟩
    · rintro rfl
      exact ⟨Or.inl rfl, hsp.auto⟩
    · rintro ⟨rfl | hy, hty⟩
      · rfl
      · exact absurd hty (htype x hy)
  · rw [hsp.staying] at hy ⊢
    rw [Timers.due, hgap', due_append_of_mem hy]
    refine due_congr fun x hx => hgap x ?_
    rintro rfl
    exact (List.nodup_cons.mp h.nodup).1 (by rw [hsp.split]; simp [hx])
  · rw [hsp.expiring] at hy
    rcases List.mem_cons.mp hy with rfl | hy
    · rw [Timers.due, hgap']
      exact hdue
    · exact absurd hty (htype y hy)
  · rw [(hend.settings x).1, (hend.settings x).2]
    exact hset x

/-- A tick that does not only expire one-shot timers reloads the first one. -/
theorem OnTime.reloads (h : OnTime s A) (hlast : ReloadsLast s A)
    (hty : ¬∀ t ∈ s.expiring A, (s.timer t).type = .oneShot) :
    ∃ a B z r, A = a :: B ∧ ReloadSplit s a B z r := by
  simp only [not_forall] at hty
  obtain ⟨t, ht, hty⟩ := hty
  have hauto : (s.timer t).type = .autoReload := by
    cases hc : (s.timer t).type with
    | oneShot => exact absurd hc hty
    | autoReload => rfl
  obtain ⟨hhead, -⟩ := hlast t ht hauto
  cases A with
  | nil => cases hhead
  | cons a B =>
      obtain rfl : a = t := Option.some.inj hhead
      obtain ⟨z, r, hsp⟩ := h.reloadSplit ht hauto hlast
      exact ⟨a, B, z, r, rfl, hsp⟩

/-- The list does not depend on the kernel. -/
theorem OnTime.setKernel (h : OnTime s A) (k : Kernel) : OnTime { s with kernel := k } A :=
  ⟨⟨h.list, h.nodup, h.head, h.bound⟩, h.flags, h.periods⟩

/-- **The tick.** -/
theorem OnTime.osTimerTick {ts : List TimerId} (h : OnTime s A) (hlast : ReloadsLast s A)
    (hs : osTimerTick fuel s = some (ts, s')) : ∃ A', TickEffect s s' A A' ts := by
  rcases osTimerTick_cases hs with ⟨hnone, rfl, rfl⟩ | ⟨s₁, k, -, hloop, rfl⟩
  · obtain rfl : A = [] := List.head?_eq_none_iff.mp (h.list.head.symm.trans hnone)
    exact ⟨[], h, fun x => rfl, fun x => rfl, fun _ => ⟨rfl, rfl⟩⟩
  · have heff : ∃ A', TickEffect s s₁ A A' ts := by
      by_cases hty : ∀ t ∈ s.expiring A, (s.timer t).type = .oneShot
      · exact ⟨_, h.tick_oneShot hty hloop⟩
      · obtain ⟨a, B, z, r, rfl, hsp⟩ := h.reloads hlast hty
        exact ⟨_, h.tick_reload hsp hloop⟩
    obtain ⟨A', heff⟩ := heff
    exact ⟨A', heff.onTime.setKernel k, heff.expired, heff.left, heff.settings⟩

/-! ## The tick ends -/

/-- The loop ends when every timer it expires is one-shot. -/
theorem Sweep.expireLoop_isSome (walk : Nat) {s₀ : Timers} (h : Sweep s₀ s B)
    (hty : ∀ t ∈ B.takeWhile fun t => decide (s.rem t = 0), (s.timer t).type = .oneShot)
    (hfuel : B.length ≤ fuel) :
    ∃ r, MiniRTOS.expireLoop walk fuel s = some r ∧ r.2.kernel = s₀.kernel := by
  obtain ⟨r, hr⟩ := expireLoop_oneShot_isSome walk (P := fun s B => Sweep s₀ s B)
    (fun _ _ h => h.list) (fun _ _ _ h => h.expireOneShot) h hty hfuel
  exact ⟨r, hr, (h.expireLoop hty hr).2.kernel⟩

/-- `os_sem_give` returns once the scheduler runs a task. -/
theorem osSemGive_isSome {k : Kernel} (a : Addr) (hcur : k.current ≠ none) :
    ∃ r, osSemGive k a = some r := by
  obtain ⟨c, hc⟩ := Option.ne_none_iff_exists'.mp hcur
  have hv := view_wakeTask (osSchedEnterCritical k) (.sem a)
  unfold osSemGive Sem.prvWakeTask
  dsimp only
  split
  · next w k₂ heq =>
      have hc₂ : k₂.current = some c := by
        rw [heq] at hv
        exact (congrArg View.current hv).trans hc
      have hexit : (osSchedExitCritical k₂).current = some c := hc₂
      rw [hexit]
      exact ⟨_, rfl⟩
  · split <;> exact ⟨_, rfl⟩

/-- **The tick ends** when its loops may take one step more than there are active timers. -/
theorem OnTime.osTimerTick_isSome (h : OnTime s A) (hlast : ReloadsLast s A)
    (hcur : s.kernel.current ≠ none) (hfuel : A.length + 1 ≤ fuel) :
    ∃ r, MiniRTOS.osTimerTick fuel s = some r := by
  have hset := settings_countDown s
  have hloop : ∃ r, expireLoop fuel fuel (countDown s) = some r ∧ r.2.kernel = s.kernel := by
    by_cases hty : ∀ t ∈ s.expiring A, (s.timer t).type = .oneShot
    · obtain ⟨r, hr, hk⟩ := h.sweep.expireLoop_isSome fuel
        (fun t ht => (hset.type t).trans (hty t ht)) (Nat.le_of_succ_le hfuel)
      exact ⟨r, hr, hk.trans hset.kernel⟩
    · obtain ⟨a, B, z, r, rfl, hsp⟩ := h.reloads hlast hty
      obtain ⟨n, rfl⟩ : ∃ n, fuel = n + 1 := ⟨fuel - 1, by simp at hfuel; omega⟩
      have hauto : ((countDown s).timer a).type = .autoReload := (hset.type a).trans hsp.auto
      obtain ⟨s₂, hs₂⟩ : ∃ s₂, prvTimerInsertSorted (n + 1) _ _ = some s₂ :=
        prvTimerInsertSorted_isSome h.sweep.reinserting (List.nodup_cons.mp h.nodup).1
          (by simp at hfuel; omega)
      have hone : expireTimer (n + 1) (countDown s) a = some (pushExpired s₂ a) := by
        rw [expireTimer_reload hauto, hs₂]
        rfl
      obtain ⟨hsweep, -, -, hset₁, -, hk⟩ := hsp.rest h hone
      obtain ⟨htake, -⟩ := hsp.takeWhile h hone
      have hlen : (z ++ (r ++ [a])).length ≤ n := by
        rw [hsp.split] at hfuel
        simp at hfuel ⊢
        omega
      obtain ⟨q, hq, hkq⟩ := hsweep.expireLoop_isSome (n + 1) (fun y hy => by
        rw [htake] at hy
        rw [(hset₁ y).2, hsp.oneShot y hy]) hlen
      refine ⟨(a :: q.1, q.2), ?_, hkq.trans hk⟩
      rw [expireLoop_cons h.sweep.list hsp.first, hone, Option.bind_some, hq]
      rfl
  obtain ⟨⟨ts, s₁⟩, hr, hk⟩ := hloop
  unfold MiniRTOS.osTimerTick
  split
  · exact ⟨_, rfl⟩
  · rw [hr]
    by_cases hts : ts = []
    · exact ⟨([], s₁), if_pos hts⟩
    · have hcur₁ : s₁.kernel.current ≠ none := by
        have hk : s₁.kernel = s.kernel := hk
        rw [hk]
        exact hcur
      obtain ⟨q, hq⟩ := osSemGive_isSome timerSem hcur₁
      exact ⟨(ts, { s₁ with kernel := q.1 }),
        (if_neg hts).trans (Option.bind_eq_some_iff.mpr ⟨q, hq, rfl⟩)⟩

/-! ## Whole runs -/

/-- **Steps that keep timers on time.** A timer that is (re)started, reset or given a new period is
inserted in front of the second other timer; reloads go to the end of the list; the service task takes
no timer off its list that is active and in front of another one; timers are created before they are
started, and not while they are active. -/
def Punctual (s : TimerSys) : TimerOp → Prop
  | .create t p _ cb => cb ≠ none → p ≠ 0 → (s.timers.timer t).active = false
  | .start t | .startFromIsr t => (s.timers.timer t).period ≠ 0 ∧
      ∀ A, IsList s.timers.nexts s.timers.activeTimerList A →
        InsertsAt (s.timers.due A) (s.timers.timer t).period.toNat (A.erase t)
  | .reset t | .resetFromIsr t => (s.timers.timer t).active = true →
      ∀ A, IsList s.timers.nexts s.timers.activeTimerList A →
        InsertsAt (s.timers.due A) (s.timers.timer t).period.toNat (A.erase t)
  | .changePeriod t p | .changePeriodFromIsr t p => p ≠ 0 → (s.timers.timer t).active = true →
      ∀ A, IsList s.timers.nexts s.timers.activeTimerList A →
        InsertsAt (s.timers.due A) p.toNat (A.erase t)
  | .tick => ∀ A, IsList s.timers.nexts s.timers.activeTimerList A → ReloadsLast s.timers A
  | .callNext => ∀ t ∈ s.list, (s.timers.timer t).active = true → (s.timers.timer t).next = none
  | _ => True

/-- The calls that give a timer a full period. -/
def TimerOp.arms (t : TimerId) : TimerOp → Prop
  | .start u | .startFromIsr u | .reset u | .resetFromIsr u => u = t
  | .changePeriod u p | .changePeriodFromIsr u p => u = t ∧ p ≠ 0
  | _ => False

/-- **What a step other than the tick does**, for every timer that it is not about, and for a timer that
it arms. -/
structure StepEffect (s s' : Timers) (A A' : List TimerId) (op : TimerOp) : Prop where
  /-- The list counts down. -/
  onTime : OnTime s' A'
  /-- The timers that the step is not about. -/
  others : ∀ x, op.timer ≠ some x → s'.timeLeft A' x = s.timeLeft A x ∧
    (s'.timer x).period = (s.timer x).period ∧ (s'.timer x).type = (s.timer x).type
  /-- A timer that has been armed. -/
  armed : ∀ t, op.arms t → (s'.timer t).active = true →
    s'.timeLeft A' t = some (s'.timer t).period.toNat

/-- A timer that is armed is the one that the call is about. -/
theorem TimerOp.arms.timer {op : TimerOp} (h : op.arms t) : op.timer = some t := by
  cases op with
  | start u => exact congrArg some h
  | startFromIsr u => exact congrArg some h
  | reset u => exact congrArg some h
  | resetFromIsr u => exact congrArg some h
  | changePeriod u p => exact congrArg some h.1
  | changePeriodFromIsr u p => exact congrArg some h.1
  | _ => cases h

/-- A call about `t`, in a critical section. -/
theorem CallEffect.step {A' : List TimerId} {k k' : Kernel} {op : TimerOp}
    (h : CallEffect { s with kernel := k } s' A A' t) (ht : op.timer = some t)
    (harm : op.arms t → (s'.timer t).active = true → s'.timeLeft A' t = some (s'.timer t).period.toNat) :
    StepEffect s { s' with kernel := k' } A A' op := by
  refine ⟨h.onTime.setKernel k', fun x hx => ?_, fun x hx => ?_⟩
  · have hxt : x ≠ t := fun e => hx (by rw [ht, e])
    exact ⟨h.others x hxt, h.settings x hxt⟩
  · obtain rfl : t = x := Option.some.inj (ht.symm.trans hx.timer)
    exact harm hx

/-- A step that changes no listed timer. -/
theorem OnTime.stepEffect {op : TimerOp} (h : OnTime s A) (hl : s'.activeTimerList = s.activeTimerList)
    (hn : ∀ y ∈ A, s'.nexts y = s.nexts y) (hg : ∀ y ∈ A, s'.gap y = s.gap y)
    (hf : ∀ y, (s'.timer y).active = (s.timer y).active)
    (hp : ∀ y, op.timer ≠ some y ∨ y ∈ A → (s'.timer y).period = (s.timer y).period)
    (hty : ∀ y, op.timer ≠ some y → (s'.timer y).type = (s.timer y).type)
    (harm : ∀ t, ¬op.arms t) : StepEffect s s' A A op := by
  obtain ⟨hspaced, hdue⟩ := h.toSpaced.congr _ hn hl hg
  refine ⟨⟨hspaced, fun x => by rw [hf, h.flags], fun x hx => ?_⟩, fun x hx => ⟨?_, ?_, hty x hx⟩,
    fun t ht => absurd ht (harm t)⟩
  · rw [hp x (Or.inr hx)]
    exact h.periods x hx
  · rw [Timers.timeLeft, Timers.timeLeft, hdue]
  · exact hp x (Or.inl hx)

/-- A step that changes the kernel or the expired list. -/
theorem OnTime.stepEffect_rfl {op : TimerOp} (h : OnTime s A)
    (hl : s'.activeTimerList = s.activeTimerList) (ht : s'.timer = s.timer) (harm : ∀ t, ¬op.arms t) :
    StepEffect s s' A A op := by
  refine h.stepEffect hl (fun y _ => ?_) (fun y _ => ?_) (fun y => by rw [ht]) (fun y _ => by rw [ht])
    (fun y _ => by rw [ht]) harm
  · simp only [Timers.nexts, ht]
  · simp only [Timers.gap, Timers.rem, ht]

/-- **One step** other than the tick. -/
theorem OnTime.step_call {s s' : TimerSys} {op : TimerOp} (h : OnTime s.timers A)
    (hop : Punctual s op) (hne : op ≠ .tick) (hs : timerStep fuel s op = some s') :
    s'.ticks = s.ticks ∧ ∃ A', StepEffect s.timers s'.timers A A' op := by
  have hcall : ∀ {body : Timers → Option Timers} {t : TimerId}, op.body fuel = some body →
      op.timer = some t →
      (∀ k tm, body { s.timers with kernel := k } = some tm →
        ∃ A', CallEffect { s.timers with kernel := k } tm A A' t ∧ (op.arms t →
          (tm.timer t).active = true → tm.timeLeft A' t = some (tm.timer t).period.toNat)) →
      s'.ticks = s.ticks ∧ ∃ A', StepEffect s.timers s'.timers A A' op := by
    intro body t hbody ht heff
    obtain ⟨k, k', tm, htm, rfl⟩ := timerStep_body hbody hs
    obtain ⟨A', h', harm⟩ := heff k tm htm
    exact ⟨rfl, A', h'.step ht harm⟩
  have hstop : ∀ {t : TimerId}, op.body fuel = some (MiniRTOS.stopTimer fuel · t) →
      op.timer = some t → ¬op.arms t →
      s'.ticks = s.ticks ∧ ∃ A', StepEffect s.timers s'.timers A A' op := by
    intro t hbody ht harm
    refine hcall hbody ht fun k tm hb => ?_
    obtain ⟨A', heff⟩ := (h.setKernel k).stopTimer hb
    exact ⟨A', heff, fun ha => absurd ha harm⟩
  have hstart : ∀ {t : TimerId}, op.body fuel = some (MiniRTOS.startTimer fuel · t) →
      op.timer = some t → Punctual s (.start t) →
      s'.ticks = s.ticks ∧ ∃ A', StepEffect s.timers s'.timers A A' op := by
    intro t hbody ht hop
    refine hcall hbody ht fun k tm hb => ?_
    obtain ⟨A', heff, hself⟩ := (h.setKernel k).startTimer hop.1 (hop.2 A h.list) hb
    exact ⟨A', heff, fun _ _ => hself⟩
  have hreset : ∀ {t : TimerId}, op.body fuel = some (MiniRTOS.resetTimer fuel · t) →
      op.timer = some t → Punctual s (.reset t) →
      s'.ticks = s.ticks ∧ ∃ A', StepEffect s.timers s'.timers A A' op := by
    intro t hbody ht hop
    refine hcall hbody ht fun k tm hb => ?_
    obtain ⟨A', heff, hself⟩ := (h.setKernel k).resetTimer (fun ha => hop ha A h.list) hb
    exact ⟨A', heff, fun _ => hself⟩
  have hperiod : ∀ {t : TimerId} {p : BitVec 32},
      op.body fuel = some (fun s => if p = 0 then some s else MiniRTOS.changePeriodTimer fuel s t p) →
      op.timer = some t → (op.arms t → p ≠ 0) → Punctual s (.changePeriod t p) →
      s'.ticks = s.ticks ∧ ∃ A', StepEffect s.timers s'.timers A A' op := by
    intro t p hbody ht harm hop
    refine hcall hbody ht fun k tm hb => ?_
    split at hb
    · next hp =>
        obtain rfl := Option.some.inj hb
        exact ⟨A, (h.setKernel k).callEffect, fun ha => absurd hp (harm ha)⟩
    · next hp =>
        obtain ⟨A', heff, hself⟩ :=
          (h.setKernel k).changePeriodTimer hp (fun ha => hop hp ha A h.list) hb
        exact ⟨A', heff, fun _ => hself⟩
  cases op with
  | create t p ty cb =>
      obtain rfl := Option.some.inj hs
      refine ⟨rfl, A, ?_⟩
      show StepEffect s.timers (osTimerCreate s.timers t p ty cb).2 A A _
      unfold osTimerCreate
      split
      · exact h.stepEffect_rfl rfl rfl fun _ => id
      · next hvalid =>
          simp only [not_or] at hvalid
          have hinactive := hop hvalid.1 hvalid.2
          have htA : t ∉ A := fun ht => by
            rw [← h.flags t, hinactive] at ht
            cases ht
          have hother : ∀ y, y ≠ t →
              (s.timers.set t ⟨cb, p, 0, ty, false, none⟩).timer y = s.timers.timer y :=
            fun y hy => Function.update_of_ne hy ..
          have hneA : ∀ y ∈ A, y ≠ t := fun y hy e => htA (e ▸ hy)
          refine h.stepEffect rfl (fun y hy => ?_) (fun y hy => ?_) (fun y => ?_) (fun y hy => ?_)
            (fun y hy => ?_) fun _ => id
          · simp only [Timers.nexts, hother y (hneA y hy)]
          · simp only [Timers.gap, Timers.rem, hother y (hneA y hy)]
          · by_cases hy : y = t
            · rw [hy, hinactive]
              simp [Timers.set]
            · rw [hother y hy]
          · rcases hy with hy | hy
            · rw [hother y fun e => hy (by rw [e]; rfl)]
            · rw [hother y (hneA y hy)]
          · rw [hother y fun e => hy (by rw [e]; rfl)]
  | delete t => exact hstop rfl rfl id
  | start t => exact hstart rfl rfl hop
  | stop t => exact hstop rfl rfl id
  | reset t => exact hreset rfl rfl hop
  | changePeriod t p => exact hperiod rfl rfl (fun ha => ha.2) hop
  | startFromIsr t => exact hstart rfl rfl hop
  | stopFromIsr t => exact hstop rfl rfl id
  | resetFromIsr t => exact hreset rfl rfl hop
  | changePeriodFromIsr t p => exact hperiod rfl rfl (fun ha => ha.2) hop
  | tick => exact absurd rfl hne
  | grab =>
      rw [timerStep] at hs
      split at hs
      · obtain rfl := Option.some.inj hs
        exact ⟨rfl, A, h.stepEffect_rfl rfl rfl fun _ => id⟩
      · cases hs
  | callNext =>
      obtain ⟨t, ht, hs⟩ := Option.bind_eq_some_iff.mp hs
      obtain rfl := Option.some.inj hs
      have hset := SameSettings.setNext s.timers t none
      refine ⟨rfl, A, h.stepEffect rfl (fun y hy => ?_) (fun y _ => ?_) hset.active
        (fun y _ => hset.period y) (fun y _ => hset.type y) fun _ => id⟩
      · rw [nexts_setNext, Function.update_apply]
        split
        · next hyt =>
            subst hyt
            exact (hop y ht ((h.flags y).mpr hy)).symm
        · rfl
      · rw [Timers.gap, rem_setNext]
        rfl
  | other k =>
      obtain rfl := Option.some.inj hs
      exact ⟨rfl, A, h.stepEffect_rfl rfl rfl fun _ => id⟩

/-- **The invariant over runs.** -/
theorem OnTime.step {s s' : TimerSys} {op : TimerOp} (h : OnTime s.timers A) (hop : Punctual s op)
    (hs : timerStep fuel s op = some s') : ∃ A', OnTime s'.timers A' := by
  by_cases htick : op = .tick
  · subst htick
    obtain ⟨⟨ts, tm⟩, htm, rfl⟩ := Option.map_eq_some_iff.mp hs
    obtain ⟨A', heff⟩ := h.osTimerTick (hop A h.list) htm
    exact ⟨A', heff.onTime⟩
  · obtain ⟨-, A', heff⟩ := h.step_call hop htick hs
    exact ⟨A', heff.onTime⟩

/-! ## Periods -/

/-- The ticks, counted from the call that armed the timer, at which it expires. -/
def TimerType.ExpiresAt (type : TimerType) (p i : Nat) : Prop :=
  match type with
  | .oneShot => i = p
  | .autoReload => p ∣ i

/-- Whether a timer expires in some tick can be decided. -/
instance (type : TimerType) (p i : Nat) : Decidable (type.ExpiresAt p i) :=
  match type with
  | .oneShot => inferInstanceAs (Decidable (i = p))
  | .autoReload => inferInstanceAs (Decidable (p ∣ i))

/-- The time left `n` ticks after a timer was armed. -/
def expectedLeft (type : TimerType) (p n : Nat) : Option Nat :=
  match type with
  | .oneShot => if n < p then some (p - n) else none
  | .autoReload => some (p - n % p)

/-- Counting modulo `p`. -/
theorem succ_mod_eq {p : Nat} (hp : 0 < p) (n : Nat) :
    (n + 1) % p = if n % p + 1 = p then 0 else n % p + 1 := by
  have hlt := Nat.mod_lt n hp
  have hstep : (n + 1) % p = (n % p + 1) % p := by rw [Nat.mod_add_mod]
  rw [hstep]
  split
  · next he => rw [he, Nat.mod_self]
  · next hne => exact Nat.mod_eq_of_lt (by omega)

/-- A tick is one tick less. -/
theorem afterTick_expectedLeft {type : TimerType} {p : Nat} (hp : 0 < p) (n : Nat) :
    afterTick type p (expectedLeft type p n) = expectedLeft type p (n + 1) := by
  cases type with
  | oneShot =>
      simp only [expectedLeft]
      by_cases hn : n < p
      · rw [if_pos hn]
        by_cases hone : p - n = 1
        · rw [hone, if_neg (by omega)]
          rfl
        · rw [afterTick_of_ne hone, if_pos (by omega)]
          rfl
      · rw [if_neg hn, if_neg (by omega)]
        rfl
  | autoReload =>
      have hlt := Nat.mod_lt n hp
      simp only [expectedLeft, succ_mod_eq hp n]
      by_cases hone : p - n % p = 1
      · rw [hone, if_pos (by omega), Nat.sub_zero]
        rfl
      · rw [afterTick_of_ne hone, if_neg (by omega)]
        rfl

/-- One tick is left before every expiry, and only then. -/
theorem expectedLeft_eq_one {type : TimerType} {p : Nat} (hp : 0 < p) (n : Nat) :
    expectedLeft type p n = some 1 ↔ type.ExpiresAt p (n + 1) := by
  cases type with
  | oneShot =>
      simp only [expectedLeft, TimerType.ExpiresAt]
      split
      · rw [Option.some.injEq]
        omega
      · simp only [reduceCtorEq, false_iff]
        omega
  | autoReload =>
      have hlt := Nat.mod_lt n hp
      simp only [expectedLeft, TimerType.ExpiresAt, Option.some.injEq, Nat.dvd_iff_mod_eq_zero,
        succ_mod_eq hp n]
      split <;> omega

/-- **A timer that nobody touches**: since it was armed, `ticks` have passed. -/
structure Untouched (t : TimerId) (s₂ s : TimerSys) (ticks : List (List TimerId)) (A : List TimerId) :
    Prop where
  /-- The list counts down. -/
  onTime : OnTime s.timers A
  /-- The ticks. -/
  log : s.ticks = s₂.ticks ++ ticks
  /-- The settings. -/
  settings : (s.timers.timer t).period = (s₂.timers.timer t).period ∧
    (s.timers.timer t).type = (s₂.timers.timer t).type
  /-- The time left. -/
  left : s.timers.timeLeft A t
    = expectedLeft (s₂.timers.timer t).type (s₂.timers.timer t).period.toNat ticks.length
  /-- The expiries. -/
  expiries : ∀ i (hi : i < ticks.length), (ticks[i]).count t
    = if (s₂.timers.timer t).type.ExpiresAt (s₂.timers.timer t).period.toNat (i + 1) then 1 else 0

/-- One step that is not about the timer. -/
theorem Untouched.step {s₂ s s' : TimerSys} {op : TimerOp} {ticks : List (List TimerId)}
    (h : Untouched t s₂ s ticks A) (hp : 0 < (s₂.timers.timer t).period.toNat)
    (hop : Punctual s op) (ht : op.timer ≠ some t) (hs : timerStep fuel s op = some s') :
    ∃ ticks' A', Untouched t s₂ s' ticks' A' := by
  by_cases htick : op = .tick
  · subst htick
    obtain ⟨⟨ts, tm⟩, htm, rfl⟩ := Option.map_eq_some_iff.mp hs
    obtain ⟨A', heff⟩ := h.onTime.osTimerTick (hop A h.onTime.list) htm
    refine ⟨ticks ++ [ts], A', heff.onTime, ?_, ?_, ?_, fun i hi => ?_⟩
    · show s.ticks ++ [ts] = _
      rw [h.log, List.append_assoc]
    · exact ⟨((heff.settings t).1).trans h.settings.1, ((heff.settings t).2).trans h.settings.2⟩
    · show tm.timeLeft A' t = _
      rw [heff.left t, h.left, h.settings.1, h.settings.2, List.length_append, List.length_singleton,
        afterTick_expectedLeft hp]
    · by_cases hlast : i < ticks.length
      · rw [List.getElem_append_left hlast]
        exact h.expiries i hlast
      · obtain rfl : i = ticks.length := by
          rw [List.length_append, List.length_singleton] at hi
          omega
        have hcount := heff.expired t
        simp only [h.left, expectedLeft_eq_one hp] at hcount
        rw [List.getElem_append_right (Nat.le_refl _)]
        simpa using hcount
  · obtain ⟨hlog, A', heff⟩ := h.onTime.step_call hop htick hs
    obtain ⟨hleft, hper, hty⟩ := heff.others t ht
    exact ⟨ticks, A', heff.onTime, hlog.trans h.log, ⟨hper.trans h.settings.1, hty.trans h.settings.2⟩,
      hleft.trans h.left, h.expiries⟩

/-- The list after `os_timer_init`. -/
theorem TimerSys.Init.onTime {s : TimerSys} (h : s.Init) : OnTime s.timers [] := by
  refine ⟨⟨⟨h.lists.1, trivial⟩, List.nodup_nil, by simp, by simp⟩, fun t => ?_, by simp⟩
  simp [h.inactive t]

/-- **Timer accuracy.** In every run whose steps keep timers on time: a timer that is started, reset or
given a new period `P` while active expires, as long as no call is about it, at the `P`-th following
tick exactly, once, and an auto-reload timer at every further `P`-th tick, whatever happens to other
timers. The ticks do end: a loop bound that covers the active timers is enough. -/
theorem timer_expires_on_time {s₀ s₁ s₂ s₃ : TimerSys} {before after : List TimerOp} {op : TimerOp}
    (h₀ : s₀.Init) (hr₁ : Run Punctual (timerStep fuel) s₀ before s₁) (hop : Punctual s₁ op)
    (harm : op.arms t) (hs : timerStep fuel s₁ op = some s₂)
    (hact : (s₂.timers.timer t).active = true)
    (hr₂ : Run (fun s o => Punctual s o ∧ o.timer ≠ some t) (timerStep fuel) s₂ after s₃) :
    (∃ ticks, s₃.ticks = s₂.ticks ++ ticks ∧ ∀ i (hi : i < ticks.length), (ticks[i]).count t
        = if (s₂.timers.timer t).type.ExpiresAt (s₂.timers.timer t).period.toNat (i + 1) then 1
          else 0) ∧
      (Punctual s₃ .tick → s₃.timers.kernel.current ≠ none →
        ∃ n, ∀ fuel', n ≤ fuel' → ∃ r, osTimerTick fuel' s₃.timers = some r) := by
  obtain ⟨A₁, h₁⟩ : ∃ A, OnTime s₁.timers A := by
    refine hr₁.invariant (fun s => ∃ A, OnTime s.timers A) ?_ ⟨[], h₀.onTime⟩
    rintro s o s' ⟨A, h⟩ ho hs
    exact h.step ho hs
  have hne : op ≠ .tick := by
    rintro rfl
    cases harm
  obtain ⟨-, A₂, heff⟩ := h₁.step_call hop hne hs
  have hleft := heff.armed t harm hact
  have hpos : 0 < (s₂.timers.timer t).period.toNat :=
    Nat.pos_of_ne_zero fun e =>
      heff.onTime.periods t ((heff.onTime.flags t).mp hact) (BitVec.eq_of_toNat_eq e)
  have hstart : Untouched t s₂ s₂ [] A₂ := by
    refine ⟨heff.onTime, by simp, ⟨rfl, rfl⟩, ?_, fun i hi => absurd hi (Nat.not_lt_zero i)⟩
    rw [hleft]
    cases (s₂.timers.timer t).type with
    | oneShot => simp [expectedLeft, hpos]
    | autoReload => simp [expectedLeft]
  obtain ⟨ticks, A₃, h₃⟩ : ∃ ticks A, Untouched t s₂ s₃ ticks A := by
    refine hr₂.invariant (fun s => ∃ ticks A, Untouched t s₂ s ticks A) ?_ ⟨[], A₂, hstart⟩
    rintro s o s' ⟨ticks, A, h⟩ ⟨ho, hot⟩ hs
    exact h.step hpos ho hot hs
  refine ⟨⟨ticks, h₃.log, h₃.expiries⟩, fun hlast hcur => ⟨A₃.length + 1, fun fuel' hfuel => ?_⟩⟩
  exact h₃.onTime.osTimerTick_isSome (hlast A₃ h₃.onTime.list) hcur hfuel

/-- Whether a place is the right one can be decided. -/
instance (d : TimerId → Nat) (p : Nat) : (l : List TimerId) → Decidable (InsertsAt d p l)
  | [] | [_] => inferInstanceAs (Decidable True)
  | _ :: _ :: _ => inferInstanceAs (Decidable (_ ∨ _))

/-- Whether the reloads come last can be decided. -/
instance (s : Timers) (A : List TimerId) : Decidable (ReloadsLast s A) :=
  inferInstanceAs (Decidable (∀ t ∈ s.expiring A, _))

/-- `Punctual` can be checked on lists of at most `n` timers. -/
def punctual (n : Nat) (s : TimerSys) (op : TimerOp) : Bool :=
  let onList (P : List TimerId → Prop) [DecidablePred P] : Bool :=
    (readList s.timers.nexts n s.timers.activeTimerList).any fun A => decide (P A)
  match op with
  | .create t .. => !(s.timers.timer t).active
  | .start t | .startFromIsr t => decide ((s.timers.timer t).period ≠ 0) &&
      onList fun A => InsertsAt (s.timers.due A) (s.timers.timer t).period.toNat (A.erase t)
  | .reset t | .resetFromIsr t =>
      onList fun A => InsertsAt (s.timers.due A) (s.timers.timer t).period.toNat (A.erase t)
  | .changePeriod t p | .changePeriodFromIsr t p =>
      onList fun A => InsertsAt (s.timers.due A) p.toNat (A.erase t)
  | .tick => onList fun A => ReloadsLast s.timers A
  | .callNext => decide (∀ t ∈ s.list,
      (s.timers.timer t).active = true → (s.timers.timer t).next = none)
  | _ => true

/-- The decision procedure is right. -/
theorem punctual_sound {n : Nat} {s : TimerSys} {op : TimerOp} (h : punctual n s op = true) :
    Punctual s op := by
  have hlist : ∀ (P : List TimerId → Prop) [DecidablePred P],
      ((readList s.timers.nexts n s.timers.activeTimerList).any fun A => decide (P A)) = true →
      ∀ A, IsList s.timers.nexts s.timers.activeTimerList A → P A :=
    fun P _ h => forall_isList_of_readList h
  cases op with
  | create t p ty cb =>
      intro _ _
      simpa [punctual] using h
  | start t =>
      obtain ⟨hp, hA⟩ := (Bool.and_eq_true _ _).mp h
      exact ⟨of_decide_eq_true hp, hlist _ hA⟩
  | startFromIsr t =>
      obtain ⟨hp, hA⟩ := (Bool.and_eq_true _ _).mp h
      exact ⟨of_decide_eq_true hp, hlist _ hA⟩
  | reset t => exact fun _ => hlist _ h
  | resetFromIsr t => exact fun _ => hlist _ h
  | changePeriod t p => exact fun _ _ => hlist _ h
  | changePeriodFromIsr t p => exact fun _ _ => hlist _ h
  | tick => exact hlist _ h
  | callNext =>
      show ∀ t ∈ s.list, (s.timers.timer t).active = true → (s.timers.timer t).next = none
      exact of_decide_eq_true h
  | _ => trivial

/-- A one-shot timer of period 5 with four ticks left, and an auto-reload timer of period 3. -/
def reloadBefore : List TimerOp :=
  [.create 0x10 3 .autoReload (some 1), .create 0x20 5 .oneShot (some 1), .start 0x20, .tick]

/-- Six ticks, with a drain after each tick that expires a timer. -/
def reloadAfter : List TimerOp :=
  [.tick, .tick, .tick, .grab, .callNext, .tick, .grab, .callNext, .tick, .tick]

/-- An auto-reload timer of period three expires in its third and sixth tick. -/
theorem timer_expires_on_time_reload :
    ∃ s₁ s₂ s₃, Run Punctual (timerStep 8) .zero reloadBefore s₁ ∧
      timerStep 8 s₁ (.start 0x10) = some s₂ ∧
      Run (fun s o => Punctual s o ∧ o.timer ≠ some 0x10) (timerStep 8) s₂ reloadAfter s₃ ∧
      s₃.ticks = s₂.ticks ++ [[], [], [0x10], [0x20], [], [0x10]] ∧
      ∃ ticks, s₃.ticks = s₂.ticks ++ ticks ∧ ∀ i (hi : i < ticks.length), (ticks[i]).count 0x10
        = if (s₂.timers.timer 0x10).type.ExpiresAt (s₂.timers.timer 0x10).period.toNat (i + 1) then 1
          else 0 := by
  have hex : (exec (fun s o => punctual 8 s o = true) (timerStep 8) .zero reloadBefore).any (fun s₁ =>
      punctual 8 s₁ (.start 0x10) && (timerStep 8 s₁ (.start 0x10)).any fun s₂ =>
        (s₂.timers.timer 0x10).active &&
        (exec (fun s o => punctual 8 s o = true ∧ o.timer ≠ some 0x10) (timerStep 8) s₂ reloadAfter).any
          fun s₃ => decide (s₃.ticks = s₂.ticks ++ [[], [], [0x10], [0x20], [], [0x10]])) = true := by
    decide +kernel
  obtain ⟨s₁, h₁, hex⟩ := (Option.any_eq_true _ _).mp hex
  obtain ⟨hop, hex⟩ := (Bool.and_eq_true _ _).mp hex
  obtain ⟨s₂, h₂, hex⟩ := (Option.any_eq_true _ _).mp hex
  obtain ⟨hact, hex⟩ := (Bool.and_eq_true _ _).mp hex
  obtain ⟨s₃, h₃, hticks⟩ := (Option.any_eq_true _ _).mp hex
  have hr₁ : Run Punctual (timerStep 8) .zero reloadBefore s₁ :=
    (run_of_exec h₁).mono fun _ _ => punctual_sound
  have hr₂ : Run (fun s o => Punctual s o ∧ o.timer ≠ some 0x10) (timerStep 8) s₂ reloadAfter s₃ :=
    (run_of_exec h₃).mono fun _ _ ho => ⟨punctual_sound ho.1, ho.2⟩
  exact ⟨s₁, s₂, s₃, hr₁, h₂, hr₂, of_decide_eq_true hticks,
    (timer_expires_on_time TimerSys.zero_init hr₁ (punctual_sound hop) rfl h₂ hact hr₂).1⟩

/-- **Counterexample.** One-shot timers of periods 5, 10 and 7 are started in this order. The third is
compared with the differences 5 and 5, goes behind the second with 2 ticks, and has not expired seven
ticks after it was started. -/
theorem timer_expires_late :
    ∃ s, Run (fun _ _ => True) (timerStep 8) .zero
        [.create 0x10 5 .oneShot (some 1), .create 0x20 10 .oneShot (some 1),
          .create 0x30 7 .oneShot (some 1), .start 0x10, .start 0x20, .start 0x30, .tick, .tick, .tick,
          .tick, .tick, .grab, .callNext, .tick, .tick] s ∧
      s.ticks = [[], [], [], [], [0x10], [], []] ∧ (s.timers.timer 0x30).active = true :=
  exists_run_of_exec (fun _ _ => True) (timerStep 8) .zero _
    (fun s => s.ticks = [[], [], [], [], [0x10], [], []] ∧ (s.timers.timer 0x30).active = true)
    (by decide +kernel)

end MiniRTOS
