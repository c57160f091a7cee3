import Mathlib.Data.BitVec
import MiniRTOS.Lib.DeltaList
import MiniRTOS.Kernel.TimerLists

/-! # What a call about one timer does to the others

The time until a timer expires is the sum of the differences up to it. With differences that are
arbitrary 32-bit values this is a sum modulo `2 ^ 32`. An insertion takes from the timer behind what it
puts in front of it, and a removal gives it back, at every position of the list: wherever
`prv_timer_insert_sorted` puts a timer, nobody else's time moves.

* **`Timers.expiry`** — the time until a timer expires.
* **`Removed.expiry`**, **`Inserted.expiry`** — the two list functions.
* **`OthersKept`** — what a call about one timer leaves of the others.
* **`timer_calls_keep_others`** — the calls. -/

namespace MiniRTOS

open PtrList DeltaList

variable {s s' : Timers} {t x : TimerId} {A B pre post : List TimerId} {fuel : Nat}

/-- **The time until a timer expires**: the sum of `remaining` over the list up to and including it, as
a 32-bit value. -/
def Timers.expiry (s : Timers) (A : List TimerId) (x : TimerId) : BitVec 32 :=
  DeltaList.due s.rem A x

/-- The active list, and that the active timers are the ones in it. -/
structure ActiveList (s : Timers) (A : List TimerId) : Prop where
  /-- The list is null-terminated. -/
  list : IsList s.nexts s.activeTimerList A
  /-- No timer is in it twice. -/
  nodup : A.Nodup
  /-- Exactly the timers in it have their flag set. -/
  flags : ∀ x, (s.timer x).active = true ↔ x ∈ A

/-! ## The two list functions -/

/-- Removing a timer keeps the times of the others. -/
theorem Removed.expiry (h : Removed s s' t pre post) (hnd : (pre ++ t :: post).Nodup)
    (hx : x ∈ pre ++ post) : s'.expiry (pre ++ post) x = s.expiry (pre ++ t :: post) x := by
  obtain ⟨-, hndpost, hdisj⟩ := List.nodup_append.mp hnd
  obtain ⟨htpost, hndpost⟩ := List.nodup_cons.mp hndpost
  have hxt : x ≠ t := by
    rintro rfl
    rcases List.mem_append.mp hx with hx | hx
    · exact hdisj x hx x (by simp) rfl
    · exact htpost hx
  symm
  apply due_splice
  · intro y hy
    refine (h.others y fun hhead => ?_).symm
    exact hdisj y hy y (by simp [List.mem_of_mem_head? hhead]) rfl
  · intro y hy
    refine (h.others y fun hhead => ?_).symm
    cases post with
    | nil => cases hhead
    | cons i post =>
        obtain rfl : i = y := Option.some.inj hhead
        exact (List.nodup_cons.mp hndpost).1 hy
  · intro y hy
    rw [h.next y hy, add_comm]
  · exact hxt
  · exact hx

/-- Inserting a timer keeps the times of the others, wherever it is put. -/
theorem Inserted.expiry (h : Inserted s s' t pre post) (hnd : (pre ++ post).Nodup)
    (ht : t ∉ pre ++ post) (hx : x ∈ pre ++ post) :
    s'.expiry (pre ++ t :: post) x = s.expiry (pre ++ post) x := by
  obtain ⟨-, hndpost, hdisj⟩ := List.nodup_append.mp hnd
  have hne : ∀ y ∈ pre ++ post, y ≠ t := by
    rintro y hy rfl
    exact ht hy
  apply due_splice
  · intro y hy
    apply h.others y (hne y (List.mem_append_left post hy))
    intro hhead
    exact hdisj y hy y (List.mem_of_mem_head? hhead) rfl
  · intro y hy
    have hpost : y ∈ post := List.mem_of_mem_tail hy
    apply h.others y (hne y (List.mem_append_right pre hpost))
    intro hhead
    cases post with
    | nil => cases hhead
    | cons i post =>
        obtain rfl : i = y := Option.some.inj hhead
        exact (List.nodup_cons.mp hndpost).1 hy
  · intro y hy
    -- what was subtracted from the timer behind is in front of it now
    rw [h.next y hy, add_sub_cancel]
  · exact hne x hx
  · exact hx

/-- The loop of `prv_timer_remove_from_active` ends when the list does. -/
theorem removeWalk_isSome {tm : TimerId → Timer} {prev : Option TimerId}
    (hpath : Path (fun x => (tm x).next) A none) (hfuel : A.length ≤ fuel) :
    ∃ q, removeWalk tm t fuel prev A.head? = some q := by
  induction A generalizing fuel prev with
  | nil => cases fuel <;> exact ⟨_, rfl⟩
  | cons a A ih =>
      obtain ⟨fuel, rfl⟩ : ∃ n, fuel = n + 1 := ⟨fuel - 1, by simp at hfuel; omega⟩
      rw [List.head?_cons, removeWalk]
      split
      · exact ⟨_, rfl⟩
      · have hnext : (tm a).next = A.head? := by simpa using hpath.1
        rw [hnext]
        exact ih hpath.2 (by simpa using hfuel)

/-- The walk to a timer ends when the fuel covers the list. -/
theorem prvTimerRemoveFromActive_isSome (hA : IsList s.nexts s.activeTimerList A)
    (hfuel : A.length ≤ fuel) : ∃ s', prvTimerRemoveFromActive fuel s t = some s' := by
  have hwalk : ∃ q, removeWalk s.timer t fuel none A.head? = some q := removeWalk_isSome hA.path hfuel
  obtain ⟨q, hq⟩ := hwalk
  rw [← hA.head] at hq
  unfold prvTimerRemoveFromActive
  rw [hq]
  exact ⟨_, rfl⟩

/-! ## Calls -/

/-- **What a call about `t` leaves of the others**: the list is sound again, the other timers are in
it in the same order, and each of them expires when it did. -/
structure OthersKept (s s' : Timers) (A A' : List TimerId) (t : TimerId) : Prop where
  /-- The list. -/
  active : ActiveList s' A'
  /-- The other timers, in order. -/
  order : A'.erase t = A.erase t
  /-- Their times. -/
  expiry : ∀ x ∈ A, x ≠ t → s'.expiry A' x = s.expiry A x

/-- Nothing happens. -/
theorem ActiveList.othersKept (h : ActiveList s A) : OthersKept s s A A t :=
  ⟨h, rfl, fun _ _ _ => rfl⟩

/-- The list after `t`, if it is active, has been taken out. -/
theorem ActiveList.takeOut (h : ActiveList s A) (t : TimerId) (hfuel : A.length ≤ fuel) :
    ∃ s₁, (if (s.timer t).active then prvTimerRemoveFromActive fuel s t else some s) = some s₁ ∧
      IsList s₁.nexts s₁.activeTimerList (A.erase t) ∧ SameSettings s s₁ ∧
      ∀ x ∈ A, x ≠ t → s₁.expiry (A.erase t) x = s.expiry A x := by
  by_cases hact : (s.timer t).active = true
  · have ht : t ∈ A := (h.flags t).mp hact
    obtain ⟨s₁, hs₁⟩ := prvTimerRemoveFromActive_isSome (t := t) h.list hfuel
    obtain ⟨pre, post, rfl⟩ := List.append_of_mem ht
    have hrem := prvTimerRemoveFromActive_spec h.list h.nodup hs₁
    have hpre : t ∉ pre := fun hp => (List.nodup_append.mp h.nodup).2.2 t hp t (by simp) rfl
    have herase : (pre ++ t :: post).erase t = pre ++ post := by
      rw [List.erase_append_right _ hpre, List.erase_cons_head]
    rw [if_pos hact, herase]
    refine ⟨s₁, hs₁, hrem.list, hrem.settings, fun x hx hne => ?_⟩
    apply hrem.expiry h.nodup
    simpa [hne] using hx
  · have ht : t ∉ A := mt (h.flags t).mpr hact
    rw [if_neg hact, List.erase_of_not_mem ht]
    exact ⟨s, rfl, h.list, .refl s, fun _ _ _ => rfl⟩

/-- **Putting `t` back**, with any `remaining`: `s₁` is the state without `t` in the list, and `s₂`
differs from it in the control block of `t` only. -/
theorem ActiveList.putBack {s₁ : Timers} {v : Timer} (h : ActiveList s A)
    (hlist : IsList s₁.nexts s₁.activeTimerList (A.erase t)) (hset : SameSettings s s₁)
    (hexp : ∀ x ∈ A, x ≠ t → s₁.expiry (A.erase t) x = s.expiry A x) (hv : v.active = true)
    (hfuel : A.length ≤ fuel) :
    ∃ s', prvTimerInsertSorted fuel (s₁.set t v) t = some s' ∧ ∃ A', OthersKept s s' A A' t := by
  have htB : t ∉ A.erase t := h.nodup.not_mem_erase
  have hndB : (A.erase t).Nodup := h.nodup.erase t
  have hself : (s₁.set t v).timer t = v := Function.update_self ..
  have hother : ∀ x, x ≠ t → (s₁.set t v).timer x = s₁.timer x :=
    fun x hx => Function.update_of_ne hx ..
  have hne : ∀ x ∈ A.erase t, x ≠ t := by
    rintro x hx rfl
    exact htB hx
  -- the record of `t` is not one the list or its sums read
  have hlist₂ : IsList (s₁.set t v).nexts (s₁.set t v).activeTimerList (A.erase t) := by
    refine ⟨hlist.head, hlist.path.congr fun x hx => ?_⟩
    rw [Timers.nexts, hother x (hne x hx)]
    rfl
  have hexp₂ : ∀ x, (s₁.set t v).expiry (A.erase t) x = s₁.expiry (A.erase t) x := by
    intro x
    apply due_congr
    intro y hy
    rw [Timers.rem, hother y (hne y hy)]
    rfl
  have hlen : (A.erase t).length ≤ fuel := (List.length_erase_le ..).trans hfuel
  obtain ⟨s', hs'⟩ := prvTimerInsertSorted_isSome hlist₂ htB hlen
  obtain ⟨pre, post, hB, hins⟩ := prvTimerInsertSorted_spec hlist₂ hndB htB hs'
  rw [hB] at htB hndB
  have hpre : t ∉ pre := fun hp => htB (List.mem_append_left post hp)
  refine ⟨s', hs', pre ++ t :: post, ⟨⟨hins.list, ?_, fun x => ?_⟩, ?_, fun x hx hxt => ?_⟩⟩
  · exact List.perm_middle.nodup_iff.mpr (List.nodup_cons.mpr ⟨htB, hndB⟩)
  · rw [hins.settings.active]
    by_cases hxt : x = t
    · rw [hxt, hself]
      simp [hv]
    · have hmem : x ∈ A ↔ x ∈ pre ++ post := by rw [← hB, List.mem_erase_of_ne hxt]
      rw [hother x hxt, hset.active, h.flags, hmem]
      simp [hxt]
  · rw [List.erase_append_right _ hpre, List.erase_cons_head, hB]
  · have hxB : x ∈ pre ++ post := by rwa [← hB, List.mem_erase_of_ne hxt]
    rw [hins.expiry hndB htB hxB, ← hB, hexp₂, hexp x hx hxt]

/-- `os_timer_stop` and `os_timer_delete`. -/
theorem ActiveList.stopTimer (h : ActiveList s A) (t : TimerId) (hfuel : A.length ≤ fuel) :
    ∃ s', stopTimer fuel s t = some s' ∧ ∃ A', OthersKept s s' A A' t := by
  obtain ⟨s₁, hout, hlist, hset, hexp⟩ := h.takeOut t hfuel
  unfold MiniRTOS.stopTimer
  split at hout
  · next hact =>
      rw [if_pos hact, hout]
      refine ⟨s₁.setActive t false, rfl, A.erase t, ⟨⟨?_, h.nodup.erase t, fun x => ?_⟩, ?_, ?_⟩⟩
      · rw [nexts_setActive]
        exact hlist
      · rw [active_setActive, hset.active]
        by_cases hxt : x = t
        · simp [hxt, h.nodup.not_mem_erase]
        · rw [if_neg hxt, h.flags, List.mem_erase_of_ne hxt]
      · exact List.erase_of_not_mem h.nodup.not_mem_erase
      · intro x hx hxt
        rw [Timers.expiry, rem_setActive]
        exact hexp x hx hxt
  · next hact =>
      rw [if_neg hact]
      exact ⟨s, rfl, A, h.othersKept⟩

/-- `os_timer_start`. -/
theorem ActiveList.startTimer (h : ActiveList s A) (t : TimerId) (hfuel : A.length ≤ fuel) :
    ∃ s', startTimer fuel s t = some s' ∧ ∃ A', OthersKept s s' A A' t := by
  obtain ⟨s₁, hout, hlist, hset, hexp⟩ := h.takeOut t hfuel
  have hwrite : (s₁.setRemaining t (s₁.timer t).period).setActive t true
      = s₁.set t { s₁.timer t with remaining := (s₁.timer t).period, active := true } := by
    simp [Timers.setRemaining, Timers.setActive, Timers.set]
  unfold MiniRTOS.startTimer
  rw [hout, Option.bind_some, hwrite]
  apply h.putBack hlist hset hexp
  · rfl
  · exact hfuel

/-- `os_timer_reset`. -/
theorem ActiveList.resetTimer (h : ActiveList s A) (t : TimerId) (hfuel : A.length ≤ fuel) :
    ∃ s', resetTimer fuel s t = some s' ∧ ∃ A', OthersKept s s' A A' t := by
  obtain ⟨s₁, hout, hlist, hset, hexp⟩ := h.takeOut t hfuel
  unfold MiniRTOS.resetTimer
  split at hout
  · next hact =>
      rw [if_pos hact, hout]
      apply h.putBack hlist hset hexp
      · exact (hset.active t).trans hact
      · exact hfuel
  · next hact =>
      rw [if_neg hact]
      exact ⟨s, rfl, A, h.othersKept⟩

/-- `os_timer_change_period`, behind its check. -/
theorem ActiveList.changePeriodTimer (h : ActiveList s A) (t : TimerId) (p : BitVec 32)
    (hfuel : A.length ≤ fuel) :
    ∃ s', changePeriodTimer fuel s t p = some s' ∧ ∃ A', OthersKept s s' A A' t := by
  -- the new period is written first and read by nothing in the list
  have h₀ : ActiveList (s.setPeriod t p) A := by
    constructor
    · rw [nexts_setPeriod]
      exact h.list
    · exact h.nodup
    · intro x
      rw [active_setPeriod, h.flags]
  have hback : ∀ s' A', OthersKept (s.setPeriod t p) s' A A' t → OthersKept s s' A A' t := by
    intro s' A' hk
    refine ⟨hk.active, hk.order, fun x hx hxt => ?_⟩
    rw [hk.expiry x hx hxt, Timers.expiry, rem_setPeriod]
    rfl
  obtain ⟨s₁, hout, hlist, hset, hexp⟩ := h₀.takeOut t hfuel
  unfold MiniRTOS.changePeriodTimer
  dsimp only
  split at hout
  · next hact =>
      rw [if_pos hact, hout]
      obtain ⟨s', hs', A', hk⟩ := h₀.putBack (v := { s₁.timer t with remaining := p }) hlist hset hexp
        ((hset.active t).trans hact) hfuel
      exact ⟨s', hs', A', hback s' A' hk⟩
  · next hact =>
      rw [if_neg hact]
      exact ⟨_, rfl, A, hback _ A h₀.othersKept⟩

/-- The critical section around a call touches the kernel only. -/
theorem Timers.inCritical_keeps {body : Timers → Option Timers} (h : ActiveList s A)
    (hbody : ∀ s₁, ActiveList s₁ A → ∃ s', body s₁ = some s' ∧ ∃ A', OthersKept s₁ s' A A' t) :
    ∃ s', s.inCritical body = some s' ∧ ∃ A', OthersKept s s' A A' t := by
  have henter : ActiveList { s with kernel := osSchedEnterCritical s.kernel } A :=
    ⟨h.list, h.nodup, h.flags⟩
  obtain ⟨s', hs', A', hk⟩ := hbody _ henter
  unfold Timers.inCritical
  rw [hs']
  exact ⟨_, rfl, A', ⟨⟨hk.active.list, hk.active.nodup, hk.active.flags⟩, hk.order, hk.expiry⟩⟩

/-- **Operating on one timer leaves the others' expiry alone.** Whatever the differences in the list
and whatever the timer and the period, each call returns, and every other active timer is in the list
in the same order and with the same time until it expires. -/
theorem timer_calls_keep_others (h : ActiveList s A) (t : TimerId) (p : BitVec 32)
    (hfuel : A.length ≤ fuel) :
    (∃ s', osTimerStart fuel s t = some s' ∧ ∃ A', OthersKept s s' A A' t) ∧
      (∃ s', osTimerStop fuel s t = some s' ∧ ∃ A', OthersKept s s' A A' t) ∧
      (∃ s', osTimerReset fuel s t = some s' ∧ ∃ A', OthersKept s s' A A' t) ∧
      (∃ r s', osTimerChangePeriod fuel s t p = some (r, s') ∧ ∃ A', OthersKept s s' A A' t) ∧
      ∃ s', osTimerDelete fuel s t = some s' ∧ ∃ A', OthersKept s s' A A' t := by
  refine ⟨?_, ?_, ?_, ?_, ?_⟩
  · exact Timers.inCritical_keeps h fun s₁ h₁ => h₁.startTimer t hfuel
  · exact Timers.inCritical_keeps h fun s₁ h₁ => h₁.stopTimer t hfuel
  · exact Timers.inCritical_keeps h fun s₁ h₁ => h₁.resetTimer t hfuel
  · unfold osTimerChangePeriod
    split
    · exact ⟨.errParam, s, rfl, A, h.othersKept⟩
    · obtain ⟨s', hs', hk⟩ := Timers.inCritical_keeps (t := t) h fun s₁ h₁ =>
        h₁.changePeriodTimer t p hfuel
      rw [hs']
      exact ⟨.ok, s', rfl, hk⟩
  · exact Timers.inCritical_keeps h fun s₁ h₁ => h₁.stopTimer t hfuel

/-- A list of three timers whose differences wrap around. -/
def wrappingTimers : Timers :=
  { TimerSys.zero.timers with
    timer := fun x =>
      if x = 0x10 then ⟨some 1, 9, 3, .oneShot, true, some 0x20⟩
      else if x = 0x20 then ⟨some 1, 4, 0xFFFFFFFF, .autoReload, true, some 0x30⟩
      else if x = 0x30 then ⟨some 1, 5, 7, .oneShot, true, none⟩
      else ⟨some 1, 5, 0, .oneShot, false, none⟩
    activeTimerList := some 0x10 }

/-- The three timers are a list. -/
theorem wrappingTimers_activeList : ActiveList wrappingTimers [0x10, 0x20, 0x30] := by
  constructor
  · exact ⟨rfl, rfl, rfl, rfl, trivial⟩
  · decide
  · intro x
    by_cases h₁ : x = 0x10
    · simp [wrappingTimers, h₁]
    · by_cases h₂ : x = 0x20
      · simp [wrappingTimers, h₂]
      · by_cases h₃ : x = 0x30
        · simp [wrappingTimers, h₃]
        · simp [wrappingTimers, h₁, h₂, h₃]

/-- Three timers whose due times wrap keep them under every call on the middle one. -/
theorem timer_calls_keep_others_wrapping :
    (∃ s', osTimerStart 3 wrappingTimers 0x20 = some s' ∧
        ∃ A', OthersKept wrappingTimers s' [0x10, 0x20, 0x30] A' 0x20) ∧
      (∃ s', osTimerStop 3 wrappingTimers 0x20 = some s' ∧
        ∃ A', OthersKept wrappingTimers s' [0x10, 0x20, 0x30] A' 0x20) ∧
      (∃ s', osTimerReset 3 wrappingTimers 0x20 = some s' ∧
        ∃ A', OthersKept wrappingTimers s' [0x10, 0x20, 0x30] A' 0x20) ∧
      (∃ r s', osTimerChangePeriod 3 wrappingTimers 0x20 6 = some (r, s') ∧
        ∃ A', OthersKept wrappingTimers s' [0x10, 0x20, 0x30] A' 0x20) ∧
      ∃ s', osTimerDelete 3 wrappingTimers 0x20 = some s' ∧
        ∃ A', OthersKept wrappingTimers s' [0x10, 0x20, 0x30] A' 0x20 :=
  timer_calls_keep_others wrappingTimers_activeList 0x20 6 (by decide)

end MiniRTOS
