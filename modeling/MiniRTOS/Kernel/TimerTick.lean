import MiniRTOS.Kernel.TimerAccuracy

/-! # One tick of one-shot timers

Only the first timer of the active list is decremented, and a run of zero differences behind it expires
with it. Read per timer, a tick takes one tick from everybody and moves those that had one left to the
expired list, whatever that list holds.

* **`Moved`** — the state of the loop of `os_timer_tick`: the timers moved so far and the ones left.
* **`OneTick`**, **`osTimerTick_oneShot`** — the tick. -/

namespace MiniRTOS

open PtrList DeltaList

variable {s s₀ s' : Timers} {t x : TimerId} {A B X : List TimerId} {fuel : Nat}

/-! ## The loop -/

/-- **The loop of `os_timer_tick`** has moved the timers `X` in turn, and `B` is left of the active
list. -/
structure Moved (s₀ s : Timers) (X B : List TimerId) : Prop where
  /-- The active list. -/
  list : IsList s.nexts s.activeTimerList B
  /-- No timer twice. -/
  nodup : (X ++ B).Nodup
  /-- The expired list begins with the timers moved, the last one first, -/
  expiredList : s.expiredList = X.reverse.head?.or s₀.expiredList
  /-- and goes on with what was in it. -/
  chain : Path s.nexts X.reverse s₀.expiredList
  /-- Nobody else is relinked. -/
  nexts : ∀ x, x ∉ X → s.nexts x = s₀.nexts x
  /-- The timers moved are inactive. -/
  active : ∀ x, (s.timer x).active = if x ∈ X then false else (s₀.timer x).active
  /-- The ticks. -/
  rem : s.rem = s₀.rem
  /-- The settings. -/
  settings : ∀ x, (s.timer x).period = (s₀.timer x).period ∧ (s.timer x).type = (s₀.timer x).type ∧
    (s.timer x).callback = (s₀.timer x).callback
  /-- The kernel. -/
  kernel : s.kernel = s₀.kernel

/-- The loop begins with nobody moved. -/
theorem Moved.init (hA : IsList s.nexts s.activeTimerList A) (hnd : A.Nodup) : Moved s s [] A where
  list := hA
  nodup := hnd
  expiredList := rfl
  chain := trivial
  nexts _ _ := rfl
  active x := by rw [if_neg List.not_mem_nil]
  rem := rfl
  settings _ := ⟨rfl, rfl, rfl⟩
  kernel := rfl

/-- An expired timer keeps its callback. -/
theorem callback_expireOneShot (s : Timers) (t x : TimerId) :
    ((expireOneShot s t).timer x).callback = (s.timer x).callback := by
  unfold expireOneShot
  refine ((SameSettings.setNext _ t _).callback x).trans ?_
  simp only [Timers.setActive, Timers.set, Function.update_apply]
  split
  · next hx => rw [hx]
  · rfl

/-- One iteration. -/
theorem Moved.expireOneShot (h : Moved s₀ s X (t :: B)) :
    Moved s₀ (expireOneShot s t) (X ++ [t]) B := by
  obtain ⟨-, hndB, hdisj⟩ := List.nodup_append.mp h.nodup
  obtain ⟨htB, hndB⟩ := List.nodup_cons.mp hndB
  have htX : t ∉ X := fun ht => hdisj t ht t (by simp) rfl
  have hother : ∀ x, x ≠ t → (MiniRTOS.expireOneShot s t).nexts x = s.nexts x := by
    intro x hx
    rw [nexts_expireOneShot, Function.update_of_ne hx]
  have hrev : (X ++ [t]).reverse = t :: X.reverse := by rw [List.reverse_append]; rfl
  constructor
  · refine ⟨?_, h.list.path.2.congr fun x hx => hother x ?_⟩
    · show s.nexts t = B.head?
      simpa using h.list.path.1
    · rintro rfl
      exact htB hx
  · rw [List.append_assoc]
    exact h.nodup
  · rw [hrev]
    rfl
  · rw [hrev]
    -- the timer points to what was the first of the expired list
    constructor
    · rw [nexts_expireOneShot, Function.update_self]
      exact h.expiredList
    · refine h.chain.congr fun x hx => hother x ?_
      rintro rfl
      exact htX (List.mem_reverse.mp hx)
  · intro x hx
    simp only [List.mem_append, List.mem_singleton, not_or] at hx
    rw [hother x hx.2]
    exact h.nexts x hx.1
  · intro x
    rw [active_expireOneShot, h.active x]
    by_cases hxt : x = t
    · simp [hxt]
    · simp [hxt]
  · rw [rem_expireOneShot, h.rem]
  · intro x
    rw [period_expireOneShot, type_expireOneShot, callback_expireOneShot]
    exact h.settings x
  · exact h.kernel

/-! ## The tick -/

/-- **One tick of one-shot timers**: `X` expire and `R` stay. -/
structure OneTick (s s' : Timers) (A X R : List TimerId) : Prop where
  /-- Everybody has one tick less, in the list as it was -/
  lowered : ∀ x ∈ A, s'.due A x + 1 = s.due A x
  /-- and, for those that stay, in the list as it is now. -/
  counted : ∀ x ∈ R, s'.due R x + 1 = s.due A x
  /-- The active list is empty or has ticks left at its head, and its sums do not wrap. -/
  spaced : Spaced s' R
  /-- The expired list begins with the timers that expire, the last one first, -/
  expiredList : s'.expiredList = X.reverse.head?.or s.expiredList
  /-- and goes on with what was in it. -/
  chain : Path s'.nexts X.reverse s.expiredList
  /-- Nobody else is relinked. -/
  nexts : ∀ x, x ∉ X → s'.nexts x = s.nexts x
  /-- Exactly the timers that expire are marked inactive. -/
  active : ∀ x, (s'.timer x).active = if x ∈ X then false else (s.timer x).active
  /-- The settings. -/
  settings : ∀ x, (s'.timer x).period = (s.timer x).period ∧ (s'.timer x).type = (s.timer x).type ∧
    (s'.timer x).callback = (s.timer x).callback
  /-- The kernel. -/
  kernel : s'.kernel = s.kernel

/-- The timers that expire and those that stay, in the order of the list. -/
theorem Spaced.expiring_eq (h : Spaced s A) :
    s.expiring A = A.filter (fun x => decide (s.due A x = 1)) ∧
      s.staying A = A.filter (fun x => decide (s.due A x ≠ 1)) := by
  have hsplit := expiring_append_staying s A
  have hnd := h.nodup
  rw [← hsplit] at hnd
  have hone : ∀ x ∈ s.expiring A, s.due A x = 1 := fun x hx => (h.mem_expiring.mp hx).2
  have hnot : ∀ x ∈ s.staying A, s.due A x ≠ 1 := by
    intro x hx hdue
    have hA : x ∈ A := by
      rw [← hsplit]
      exact List.mem_append_right _ hx
    have hexp := h.mem_expiring.mpr ⟨hA, hdue⟩
    exact (List.nodup_append.mp hnd).2.2 x hexp x hx rfl
  have hfilter : ∀ p : TimerId → Bool, A.filter p = (s.expiring A).filter p ++ (s.staying A).filter p := by
    intro p
    rw [← List.filter_append, hsplit]
  constructor
  · rw [hfilter, List.filter_eq_self.mpr fun x hx => decide_eq_true (hone x hx),
      List.filter_eq_nil_iff.mpr fun x hx => by simpa using hnot x hx, List.append_nil]
  · rw [hfilter, List.filter_eq_self (l := s.staying A) |>.mpr fun x hx => decide_eq_true (hnot x hx),
      List.filter_eq_nil_iff.mpr fun x hx => by simpa using hone x hx, List.nil_append]

/-- The loop on the list counted down. -/
theorem Spaced.oneTick {ts : List TimerId} (h : Spaced s A)
    (hty : ∀ t ∈ A, (s.timer t).type = .oneShot)
    (hs : expireLoop fuel fuel (countDown s) = some (ts, s')) :
    ts = s.expiring A ∧ OneTick s s' A (s.expiring A) (s.staying A) := by
  have hset := settings_countDown s
  have hsplit := expiring_append_staying s A
  have hlist : IsList (countDown s).nexts (countDown s).activeTimerList A := by
    rw [nexts_countDown, activeTimerList_countDown]
    exact h.list
  obtain ⟨hts, X, hX, hend⟩ := expireLoop_oneShot
    (P := fun s₁ B => ∃ X, A = X ++ B ∧ Moved (countDown s) s₁ X B) (fun _ _ ⟨_, _, h⟩ => h.list)
    (fun s₁ t B ⟨X, hX, h⟩ => ⟨X ++ [t], by rw [hX, List.append_assoc]; rfl, h.expireOneShot⟩)
    ⟨[], rfl, Moved.init hlist h.nodup⟩
    (fun t ht => (hset.type t).trans (hty t ((List.takeWhile_sublist _).subset ht))) hs
  obtain rfl : s.expiring A = X := List.append_cancel_right (hsplit.trans hX)
  change Moved (countDown s) s' (s.expiring A) (s.staying A) at hend
  have hgap : s'.gap = (countDown s).gap := by
    funext x
    rw [Timers.gap, Timers.gap, hend.rem]
  have hcounted : ∀ x ∈ s.staying A, s'.due (s.staying A) x + 1 = s.due A x := by
    intro x hx
    rw [Timers.due, hgap]
    exact h.due_staying hx
  refine ⟨hts, ?_, hcounted, ⟨hend.list, ?_, ?_, ?_⟩, ?_, ?_, ?_, ?_, ?_, ?_⟩
  · intro x hx
    rw [Timers.due, hgap]
    cases A with
    | nil => cases hx
    | cons a A => exact h.counted.2.2 x
  · exact (List.nodup_append.mp hend.nodup).2.1
  · intro x hx
    rw [hgap]
    exact staying_head s A x hx
  · intro x hx
    have hA : x ∈ A := by
      rw [← hsplit]
      exact List.mem_append_right _ hx
    have hlt := h.bound x hA
    have hone := hcounted x hx
    omega
  · rw [hend.expiredList, hset.expiredList]
  · rw [← hset.expiredList]
    exact hend.chain
  · intro x hx
    rw [hend.nexts x hx, nexts_countDown]
  · intro x
    rw [hend.active x, hset.active x]
  · intro x
    obtain ⟨hp, ht, hc⟩ := hend.settings x
    exact ⟨hp.trans (hset.period x), ht.trans (hset.type x), hc.trans (hset.callback x)⟩
  · rw [hend.kernel, hset.kernel]

/-- When the timers that expire are not in the expired list already, they are put in front of it. -/
theorem OneTick.expired {R E : List TimerId} (h : OneTick s s' A X R)
    (hE : IsList s.nexts s.expiredList E) (hX : ∀ x ∈ E, x ∉ X) :
    IsList s'.nexts s'.expiredList (X.reverse ++ E) := by
  constructor
  · rw [h.expiredList, hE.head, List.head?_append]
  · rw [path_append]
    constructor
    · rw [Option.or_none, ← hE.head]
      exact h.chain
    · exact hE.path.congr fun x hx => h.nexts x (hX x hx)

/-- **One tick of one-shot timers.** Of a list with ticks left at its head whose sums do not wrap,
`os_timer_tick` moves exactly the timers that had one tick left, counts down for all, and gives
`timer_sem` when it has moved any. -/
theorem osTimerTick_oneShot (h : Spaced s A) (hty : ∀ t ∈ A, (s.timer t).type = .oneShot)
    (hfuel : A.length ≤ fuel) :
    ∃ s', OneTick s s' A (A.filter fun x => decide (s.due A x = 1))
        (A.filter fun x => decide (s.due A x ≠ 1)) ∧
      (∀ E, IsList s.nexts s.expiredList E → (∀ x ∈ E, x ∉ A) →
        IsList s'.nexts s'.expiredList ((A.filter fun x => decide (s.due A x = 1)).reverse ++ E)) ∧
      osTimerTick fuel s =
        if (A.filter fun x => decide (s.due A x = 1)) = [] then some ([], s')
        else (osSemGive s'.kernel timerSem).map fun r =>
          (A.filter fun x => decide (s.due A x = 1), { s' with kernel := r.1 }) := by
  rw [← h.expiring_eq.1, ← h.expiring_eq.2]
  have hset := settings_countDown s
  have hlist : IsList (countDown s).nexts (countDown s).activeTimerList A := by
    rw [nexts_countDown, activeTimerList_countDown]
    exact h.list
  obtain ⟨⟨ts, s'⟩, hloop⟩ := expireLoop_oneShot_isSome fuel
    (P := fun s₁ B => ∃ X, Moved (countDown s) s₁ X B) (fun _ _ ⟨_, h⟩ => h.list)
    (fun _ _ _ ⟨_, h⟩ => ⟨_, h.expireOneShot⟩) ⟨[], Moved.init hlist h.nodup⟩
    (fun t ht => (hset.type t).trans (hty t ((List.takeWhile_sublist _).subset ht))) hfuel
  obtain ⟨rfl, htick⟩ := h.oneTick hty hloop
  have hexpired : ∀ E, IsList s.nexts s.expiredList E → (∀ x ∈ E, x ∉ A) →
      IsList s'.nexts s'.expiredList ((s.expiring A).reverse ++ E) := by
    intro E hE hdisj
    apply htick.expired hE
    intro x hx hexp
    exact hdisj x hx (h.mem_expiring.mp hexp).1
  by_cases hnone : s.activeTimerList = none
  · -- an empty list: the function returns at once
    obtain rfl : A = [] := List.head?_eq_none_iff.mp (h.list.head.symm.trans hnone)
    have hcount : countDown s = s := by
      unfold countDown
      rw [hnone]
    obtain rfl : s = s' := by
      rw [hcount] at hloop
      unfold expireLoop at hloop
      rw [hnone] at hloop
      exact (Prod.mk.inj (Option.some.inj hloop)).2
    refine ⟨s, htick, hexpired, ?_⟩
    unfold osTimerTick
    rw [if_pos hnone]
    rfl
  · refine ⟨s', htick, hexpired, ?_⟩
    unfold osTimerTick
    rw [if_neg hnone, hloop, Option.bind_eq_bind, Option.bind_some]
    dsimp only
    split
    · rfl
    · cases osSemGive s'.kernel timerSem with
      | none => rfl
      | some r => rfl

/-- Two timers that expire at the next tick and one that does not. -/
def oneShotTimers : Timers :=
  { TimerSys.zero.timers with
    timer := fun x =>
      if x = 0x10 then ⟨some 1, 9, 1, .oneShot, true, some 0x20⟩
      else if x = 0x20 then ⟨some 1, 4, 0, .oneShot, true, some 0x30⟩
      else ⟨some 1, 5, 2, .oneShot, true, none⟩
    activeTimerList := some 0x10 }

/-- Two of three timers expire in one tick, in the order of the list. -/
theorem osTimerTick_oneShot_three :
    ∃ s', OneTick oneShotTimers s' [0x10, 0x20, 0x30]
        ([0x10, 0x20, 0x30].filter fun x => decide (oneShotTimers.due [0x10, 0x20, 0x30] x = 1))
        ([0x10, 0x20, 0x30].filter fun x => decide (oneShotTimers.due [0x10, 0x20, 0x30] x ≠ 1)) ∧
      (∀ E, IsList oneShotTimers.nexts oneShotTimers.expiredList E →
        (∀ x ∈ E, x ∉ [0x10, 0x20, 0x30]) →
        IsList s'.nexts s'.expiredList
          (([0x10, 0x20, 0x30].filter fun x =>
            decide (oneShotTimers.due [0x10, 0x20, 0x30] x = 1)).reverse ++ E)) ∧
      osTimerTick 3 oneShotTimers =
        if ([0x10, 0x20, 0x30].filter fun x =>
          decide (oneShotTimers.due [0x10, 0x20, 0x30] x = 1)) = [] then some ([], s')
        else (osSemGive s'.kernel timerSem).map fun r =>
          ([0x10, 0x20, 0x30].filter fun x => decide (oneShotTimers.due [0x10, 0x20, 0x30] x = 1),
            { s' with kernel := r.1 }) := by
  apply osTimerTick_oneShot
  · exact ⟨⟨rfl, rfl, rfl, rfl, trivial⟩, by decide, by decide, by decide⟩
  · decide
  · decide

end MiniRTOS
