import MiniRTOS.Lib.LinkGraph
import MiniRTOS.Kernel.TimerTick

/-! # Termination of the timer loops

The loop of `os_timer_tick` re-inserts auto-reload timers into the list it is consuming, and then
overwrites the `next` field that the list goes through with the link of the expired list. The list that
results goes on with the expired list. It still ends when no timer of the expired list is in the part in
front; when one is, the two lists become a cycle.

* **`Within`** — the timers that the loops can reach are finitely many and have a period.
* **`KeepsEnding`** — the steps that make no cycle.
* **`Reloading`** — the state of the loop of `os_timer_tick` that reloads timers.
* **`timer_loops_terminate`** — the loops end along every run of such steps. -/

namespace MiniRTOS

open PtrList Runs

variable {s s' : Timers} {t x : TimerId} {A B E : List TimerId} {S : Finset TimerId} {fuel : Nat}

/-! ## The timers in reach -/

/-- **The timers in reach** of the two lists are in `S`, with the active ones. -/
structure Within (s : Timers) (S : Finset TimerId) : Prop where
  /-- No pointer leaves the set. -/
  closed : ClosedUnder s.nexts S
  /-- The active list begins in it. -/
  active : ∀ x ∈ s.activeTimerList, x ∈ S
  /-- The expired list begins in it. -/
  expired : ∀ x ∈ s.expiredList, x ∈ S
  /-- The timers with their flag set are in it. -/
  flags : ∀ x, (s.timer x).active = true → x ∈ S
  /-- Its timers have a period. -/
  periods : ∀ x ∈ S, (s.timer x).period ≠ 0

/-- What is read of a state. -/
theorem Within.congr (h : Within s S) (hn : s'.nexts = s.nexts)
    (ha : s'.activeTimerList = s.activeTimerList) (he : s'.expiredList = s.expiredList)
    (hf : ∀ x, (s'.timer x).active = true → x ∈ S)
    (hp : ∀ x ∈ S, (s'.timer x).period ≠ 0) : Within s' S := by
  constructor
  · rw [hn]
    exact h.closed
  · rw [ha]
    exact h.active
  · rw [he]
    exact h.expired
  · exact hf
  · exact hp

/-- A write to `next`. -/
theorem Within.setNext (h : Within s S) (t : TimerId) {v : Option TimerId} (hv : ∀ y ∈ v, y ∈ S) :
    Within (s.setNext t v) S := by
  have hset := SameSettings.setNext s t v
  constructor
  · rw [nexts_setNext]
    exact h.closed.update hv
  · exact h.active
  · exact h.expired
  · intro x hx
    rw [hset.active] at hx
    exact h.flags x hx
  · intro x hx
    rw [hset.period]
    exact h.periods x hx

/-- A write to `remaining`. -/
theorem Within.setRemaining (h : Within s S) (t : TimerId) (v : BitVec 32) :
    Within (s.setRemaining t v) S := by
  have hset := SameSettings.setRemaining s t v
  apply h.congr
  · exact nexts_setRemaining s t v
  · rfl
  · rfl
  · intro x hx
    rw [hset.active] at hx
    exact h.flags x hx
  · intro x hx
    rw [hset.period]
    exact h.periods x hx

/-- Clearing the active flag. -/
theorem Within.clearActive (h : Within s S) (t : TimerId) : Within (s.setActive t false) S := by
  apply h.congr
  · exact nexts_setActive s t false
  · rfl
  · rfl
  · intro x hx
    rw [active_setActive] at hx
    split at hx
    · cases hx
    · exact h.flags x hx
  · intro x hx
    rw [period_setActive]
    exact h.periods x hx

/-- A write to the head of the active list. -/
theorem Within.setList (h : Within s S) {v : Option TimerId} (hv : ∀ y ∈ v, y ∈ S) :
    Within { s with activeTimerList := v } S :=
  ⟨h.closed, hv, h.expired, h.flags, h.periods⟩

/-- A write to a period. -/
theorem Within.setPeriod (h : Within s S) (t : TimerId) {p : BitVec 32} (hp : p ≠ 0) :
    Within (s.setPeriod t p) S := by
  apply h.congr
  · exact nexts_setPeriod s t p
  · rfl
  · rfl
  · intro x hx
    rw [active_setPeriod] at hx
    exact h.flags x hx
  · intro x hx
    simp only [Timers.setPeriod, Timers.set, Function.update_apply]
    split
    · exact hp
    · exact h.periods x hx

/-- The kernel is not read. -/
theorem Within.setKernel (h : Within s S) (k : Kernel) : Within { s with kernel := k } S :=
  ⟨h.closed, h.active, h.expired, h.flags, h.periods⟩

/-- **A timer comes into reach**: it is marked active and its link is cleared. -/
theorem Within.join (h : Within s S) (t : TimerId) (v : BitVec 32) (hp : (s.timer t).period ≠ 0) :
    Within (((s.setRemaining t v).setActive t true).setNext t none) (insert t S) := by
  have hset := SameSettings.setNext ((s.setRemaining t v).setActive t true) t none
  constructor
  · rw [nexts_setNext, nexts_setActive, nexts_setRemaining]
    exact h.closed.insert_clear
  · intro x hx
    exact Finset.mem_insert_of_mem (h.active x hx)
  · intro x hx
    exact Finset.mem_insert_of_mem (h.expired x hx)
  · intro x hx
    rw [hset.active, active_setActive] at hx
    split at hx
    · next hxt => exact hxt ▸ Finset.mem_insert_self ..
    · rw [(SameSettings.setRemaining ..).active] at hx
      exact Finset.mem_insert_of_mem (h.flags x hx)
  · intro x hx
    rw [hset.period, period_setActive, (SameSettings.setRemaining ..).period]
    rcases Finset.mem_insert.mp hx with rfl | hx
    · exact hp
    · exact h.periods x hx

/-! ### The list functions -/

/-- The walk of `prv_timer_insert_sorted` stays in reach. -/
theorem insertWalk_within {tm : TimerId → Timer} {r : BitVec 32} {prev iter p i : Option TimerId}
    (hc : ClosedUnder (fun x => (tm x).next) S) (hprev : ∀ x ∈ prev, x ∈ S)
    (hiter : ∀ x ∈ iter, x ∈ S) (h : insertWalk tm r fuel prev iter = some (p, i)) :
    (∀ x ∈ p, x ∈ S) ∧ ∀ x ∈ i, x ∈ S := by
  induction fuel generalizing prev iter with
  | zero =>
      cases iter with
      | none =>
          obtain ⟨rfl, rfl⟩ := Prod.mk.inj (Option.some.inj h)
          exact ⟨hprev, hiter⟩
      | some a => cases h
  | succ fuel ih =>
      cases iter with
      | none =>
          obtain ⟨rfl, rfl⟩ := Prod.mk.inj (Option.some.inj h)
          exact ⟨hprev, hiter⟩
      | some a =>
          rw [insertWalk] at h
          split at h
          · obtain ⟨rfl, rfl⟩ := Prod.mk.inj (Option.some.inj h)
            exact ⟨hprev, hiter⟩
          · exact ih hiter (fun x hx => hc a (hiter a rfl) x hx) h

/-- The null pointer points nowhere. -/
theorem forall_mem_none : ∀ x ∈ (none : Option TimerId), x ∈ S := by
  intro x hx
  cases hx

/-- The difference of the timer behind. -/
theorem Within.adjustNext (h : Within s S) (t : TimerId) (iter : Option TimerId) :
    Within (match iter with
      | some i => s.setRemaining i ((s.timer i).remaining - (s.timer t).remaining)
      | none => s) S := by
  cases iter with
  | none => exact h
  | some i => exact h.setRemaining i _

/-- So does the insertion. -/
theorem Within.linkTimer (h : Within s S) (ht : t ∈ S) {prev iter : Option TimerId}
    (hprev : ∀ x ∈ prev, x ∈ S) (hiter : ∀ x ∈ iter, x ∈ S) :
    Within (linkTimer s t prev iter) S := by
  have hself : ∀ y ∈ some t, y ∈ S := by
    intro y hy
    obtain rfl : t = y := Option.some.inj hy
    exact ht
  cases prev with
  | none => exact ((h.adjustNext t iter).setNext t hiter).setList hself
  | some p => exact (((h.setRemaining t _).adjustNext t iter).setNext t hiter).setNext p hself

/-- Inserting a timer of `S` stays within `S`. -/
theorem Within.insertSorted (h : Within (s.setNext t none) S) (ht : t ∈ S)
    (hs : prvTimerInsertSorted fuel s t = some s') : Within s' S := by
  obtain ⟨⟨p, i⟩, hwalk, hs⟩ := Option.bind_eq_some_iff.mp hs
  obtain rfl := Option.some.inj hs
  obtain ⟨hp, hi⟩ := insertWalk_within h.closed forall_mem_none h.active hwalk
  exact h.linkTimer ht hp hi

/-- The walk of `prv_timer_remove_from_active` stays in reach. -/
theorem removeWalk_within {tm : TimerId → Timer} {prev iter p : Option TimerId}
    (hc : ClosedUnder (fun x => (tm x).next) S) (hprev : ∀ x ∈ prev, x ∈ S)
    (hiter : ∀ x ∈ iter, x ∈ S) (h : removeWalk tm t fuel prev iter = some (some p)) :
    (∀ x ∈ p, x ∈ S) ∧ t ∈ S := by
  induction fuel generalizing prev iter with
  | zero => cases iter <;> cases h
  | succ fuel ih =>
      cases iter with
      | none => cases h
      | some a =>
          rw [removeWalk] at h
          split at h
          · next hat =>
              obtain rfl := Option.some.inj (Option.some.inj h)
              exact ⟨hprev, hat ▸ hiter a rfl⟩
          · exact ih hiter (fun x hx => hc a (hiter a rfl) x hx) h

/-- Removing one stays within `S`. -/
theorem Within.removeFromActive (h : Within s S) (hs : prvTimerRemoveFromActive fuel s t = some s') :
    Within s' S := by
  obtain ⟨r, hwalk, rfl⟩ := Option.map_eq_some_iff.mp hs
  cases r with
  | none => exact h
  | some prev =>
      obtain ⟨hprev, ht⟩ := removeWalk_within h.closed forall_mem_none h.active hwalk
      have hnext : ∀ y ∈ (s.timer t).next, y ∈ S := h.closed t ht
      have hmid : ∀ s₁, Within s₁ S → Within (match (s₁.timer t).next with
          | some n => s₁.setRemaining n ((s₁.timer n).remaining + (s₁.timer t).remaining)
          | none => s₁) S := by
        intro s₁ h₁
        split
        · exact h₁.setRemaining _ _
        · exact h₁
      cases prev with
      | none => exact hmid _ (h.setList hnext)
      | some p => exact hmid _ (h.setNext p hnext)

/-! ### Calls -/

/-- So does stopping one. -/
theorem Within.stopTimer (h : Within s S) (hs : stopTimer fuel s t = some s') : Within s' S := by
  unfold MiniRTOS.stopTimer at hs
  split at hs
  · obtain ⟨s₁, hrem, hs⟩ := Option.bind_eq_some_iff.mp hs
    obtain rfl := Option.some.inj hs
    exact (h.removeFromActive hrem).clearActive t
  · obtain rfl := Option.some.inj hs
    exact h

/-- Starting a timer adds that one at most. -/
theorem Within.startTimer (h : Within s S) (hp : (s.timer t).period ≠ 0)
    (hs : startTimer fuel s t = some s') : Within s' (insert t S) := by
  obtain ⟨s₁, hout, hs⟩ := Option.bind_eq_some_iff.mp hs
  have h₁ : Within s₁ S ∧ (s₁.timer t).period ≠ 0 := by
    split at hout
    · next hact =>
        have h₁ := h.removeFromActive hout
        exact ⟨h₁, h₁.periods t (h.flags t hact)⟩
    · obtain rfl := Option.some.inj hout
      exact ⟨h, hp⟩
  exact (h₁.1.join t _ h₁.2).insertSorted (Finset.mem_insert_self t S) hs

/-- A timer in reach is put back. -/
theorem Within.rearm (h : Within s S) (ht : t ∈ S) (v : BitVec 32)
    (hs : prvTimerInsertSorted fuel (s.setRemaining t v) t = some s') : Within s' S :=
  ((h.setRemaining t v).setNext t forall_mem_none).insertSorted ht hs

/-- Resetting a timer stays within `S`. -/
theorem Within.resetTimer (h : Within s S) (hs : resetTimer fuel s t = some s') : Within s' S := by
  unfold MiniRTOS.resetTimer at hs
  split at hs
  · next hact =>
      obtain ⟨s₁, hrem, hs⟩ := Option.bind_eq_some_iff.mp hs
      exact (h.removeFromActive hrem).rearm (h.flags t hact) _ hs
  · obtain rfl := Option.some.inj hs
    exact h

/-- So does a new period. -/
theorem Within.changePeriodTimer {p : BitVec 32} (h : Within s S) (hp : p ≠ 0)
    (hs : changePeriodTimer fuel s t p = some s') : Within s' S := by
  have h₀ := h.setPeriod t hp
  unfold MiniRTOS.changePeriodTimer at hs
  dsimp only at hs
  split at hs
  · next hact =>
      obtain ⟨s₁, hrem, hs⟩ := Option.bind_eq_some_iff.mp hs
      exact (h₀.removeFromActive hrem).rearm (h₀.flags t hact) _ hs
  · obtain rfl := Option.some.inj hs
    exact h₀

/-- So does creating a timer. -/
theorem Within.osTimerCreate (h : Within s S) (t : TimerId) (p : BitVec 32) (ty : TimerType)
    (cb : Option Addr) : Within (osTimerCreate s t p ty cb).2 S := by
  unfold MiniRTOS.osTimerCreate
  split
  · exact h
  · next hvalid =>
      simp only [not_or] at hvalid
      have hother : ∀ x, x ≠ t → (s.set t ⟨cb, p, 0, ty, false, none⟩).timer x = s.timer x :=
        fun x hx => Function.update_of_ne hx ..
      have hself : (s.set t ⟨cb, p, 0, ty, false, none⟩).timer t = ⟨cb, p, 0, ty, false, none⟩ :=
        Function.update_self ..
      constructor
      · intro x hx y hy
        by_cases hxt : x = t
        · rw [Timers.nexts, hxt, hself] at hy
          cases hy
        · rw [Timers.nexts, hother x hxt] at hy
          exact h.closed x hx y hy
      · exact h.active
      · exact h.expired
      · intro x hx
        by_cases hxt : x = t
        · rw [hxt, hself] at hx
          cases hx
        · rw [hother x hxt] at hx
          exact h.flags x hx
      · intro x hx
        by_cases hxt : x = t
        · rw [hxt, hself]
          exact hvalid.2
        · rw [hother x hxt]
          exact h.periods x hx

/-! ### The tick -/

/-- So does counting down. -/
theorem Within.countDown (h : Within s S) : Within (countDown s) S := by
  unfold MiniRTOS.countDown
  split
  · exact h
  · exact h.setRemaining _ _

/-- So does putting a timer of `S` on the expired list. -/
theorem Within.pushExpired (h : Within s S) (ht : t ∈ S) : Within (pushExpired s t) S := by
  have h₁ := h.setNext t h.expired
  refine ⟨h₁.closed, h₁.active, ?_, h₁.flags, h₁.periods⟩
  intro x hx
  obtain rfl : t = x := Option.some.inj hx
  exact ht

/-- So does expiring one. -/
theorem Within.expireTimer (h : Within s S) (ht : t ∈ S) (hs : expireTimer fuel s t = some s') :
    Within s' S := by
  have hnext : Within { s with activeTimerList := (s.timer t).next } S := h.setList (h.closed t ht)
  obtain ⟨s₂, hmid, rfl⟩ := Option.map_eq_some_iff.mp hs
  apply Within.pushExpired _ ht
  split at hmid
  · apply Within.insertSorted _ ht hmid
    exact ((hnext.setRemaining t _).setNext t forall_mem_none).setNext t forall_mem_none
  · obtain rfl := Option.some.inj hmid
    exact hnext.clearActive t

/-- So does the loop over the expired timers. -/
theorem Within.expireLoop {walk : Nat} {ts : List TimerId} (h : Within s S)
    (hs : expireLoop walk fuel s = some (ts, s')) : Within s' S := by
  induction fuel generalizing s ts with
  | zero =>
      unfold MiniRTOS.expireLoop at hs
      split at hs
      · obtain ⟨-, rfl⟩ := Prod.mk.inj (Option.some.inj hs)
        exact h
      · split at hs
        · obtain ⟨-, rfl⟩ := Prod.mk.inj (Option.some.inj hs)
          exact h
        · cases hs
  | succ fuel ih =>
      unfold MiniRTOS.expireLoop at hs
      split at hs
      · obtain ⟨-, rfl⟩ := Prod.mk.inj (Option.some.inj hs)
        exact h
      · next t hhead =>
          split at hs
          · obtain ⟨-, rfl⟩ := Prod.mk.inj (Option.some.inj hs)
            exact h
          · obtain ⟨s₁, hexp, hs⟩ := Option.bind_eq_some_iff.mp hs
            obtain ⟨⟨us, s₂⟩, hloop, hs⟩ := Option.bind_eq_some_iff.mp hs
            obtain ⟨-, rfl⟩ := Prod.mk.inj (Option.some.inj hs)
            exact ih (h.expireTimer (h.active t hhead) hexp) hloop

/-- So does a whole tick. -/
theorem Within.osTimerTick {ts : List TimerId} (h : Within s S)
    (hs : osTimerTick fuel s = some (ts, s')) : Within s' S := by
  rcases osTimerTick_cases hs with ⟨-, -, rfl⟩ | ⟨s₁, k, -, hloop, rfl⟩
  · exact h
  · exact (h.countDown.expireLoop hloop).setKernel k

/-! ## The drain -/

/-- The inner loop of `timer_service_task`. -/
def drainLoop : Nat → TimerSys → Option TimerSys
  | fuel, s =>
      match s.list with
      | none => some s
      | some _ =>
          match fuel with
          | 0 => none
          | fuel + 1 => (callTimer s).bind (drainLoop fuel)

/-- There is nothing to drain. -/
theorem drainLoop_of_none {s : TimerSys} (h : s.list = none) : drainLoop fuel s = some s := by
  unfold drainLoop
  rw [h]

/-- The timers in reach of the whole system. -/
structure TimerSys.Within (s : TimerSys) (S : Finset TimerId) : Prop where
  /-- The timers. -/
  timers : MiniRTOS.Within s.timers S
  /-- The list of the service task begins in the set. -/
  list : ∀ x ∈ s.list, x ∈ S

/-- Calling a timer stays within `S`, whatever its callback does. -/
theorem TimerSys.Within.callTimer {s s' : TimerSys} (h : s.Within S) (hs : callTimer s = some s') :
    s'.Within S := by
  obtain ⟨t, ht, hs⟩ := Option.bind_eq_some_iff.mp hs
  obtain rfl := Option.some.inj hs
  exact ⟨h.timers.setNext t forall_mem_none, h.timers.closed t (h.list t ht)⟩

/-- **The drain ends**, cycle or not: an iteration that goes on has cleared a link. -/
theorem TimerSys.Within.drainLoop {s : TimerSys} (h : s.Within S)
    (hfuel : linkCount s.timers.nexts S < fuel) : ∃ s', drainLoop fuel s = some s' := by
  induction fuel generalizing s with
  | zero => omega
  | succ fuel ih =>
      unfold MiniRTOS.drainLoop
      cases hlist : s.list with
      | none => exact ⟨s, rfl⟩
      | some t =>
          have htS : t ∈ S := h.list t hlist
          have hcall : MiniRTOS.callTimer s = some { s with
              timers := s.timers.setNext t none
              list := s.timers.nexts t
              called := if (s.timers.timer t).callback.isSome then s.called ++ [t] else s.called } := by
            unfold MiniRTOS.callTimer
            rw [hlist]
            rfl
          have hw := h.callTimer hcall
          dsimp only
          rw [hcall, Option.bind_some]
          cases hnext : s.timers.nexts t with
          | none => exact ⟨_, drainLoop_of_none rfl⟩
          | some n =>
              rw [hnext] at hw
              apply ih hw
              have hsome : (s.timers.nexts t).isSome := by
                rw [hnext]
                rfl
              have hlt := linkCount_clear_lt htS hsome
              rw [nexts_setNext]
              omega

/-! ## The active list ends -/

/-- Putting a timer into a list that it is not in. -/
theorem IsList.insertSorted (h : IsList s.nexts s.activeTimerList A) (ht : t ∉ A)
    (hs : prvTimerInsertSorted fuel s t = some s') :
    ∃ A', IsList s'.nexts s'.activeTimerList A' := by
  obtain ⟨pre, post, -, hins⟩ := prvTimerInsertSorted_spec h h.path.nodup ht hs
  exact ⟨_, hins.list⟩

/-- The walk of `prv_timer_remove_from_active` past the end of the list. -/
theorem removeWalk_not_mem {tm : TimerId → Timer} {prev : Option TimerId}
    {r : Option (Option TimerId)} (hpath : Path (fun x => (tm x).next) A none) (ht : t ∉ A)
    (h : removeWalk tm t fuel prev A.head? = some r) : r = none := by
  induction A generalizing fuel prev with
  | nil => cases fuel <;> exact (Option.some.inj h).symm
  | cons a A ih =>
      simp only [List.mem_cons, not_or] at ht
      cases fuel with
      | zero => cases h
      | succ fuel =>
          have hnext : (tm a).next = A.head? := by simpa using hpath.1
          rw [List.head?_cons, removeWalk, if_neg (Ne.symm ht.1), hnext] at h
          exact ih hpath.2 ht.2 h

/-- Taking a timer out, whether it is in the list or not. -/
theorem IsList.removeFromActive (h : IsList s.nexts s.activeTimerList A)
    (hs : prvTimerRemoveFromActive fuel s t = some s') :
    ∃ A', IsList s'.nexts s'.activeTimerList A' ∧ t ∉ A' := by
  by_cases ht : t ∈ A
  · obtain ⟨pre, post, rfl⟩ := List.append_of_mem ht
    have hnd := h.path.nodup
    have hrem := prvTimerRemoveFromActive_spec h hnd hs
    refine ⟨pre ++ post, hrem.list, ?_⟩
    exact (List.nodup_cons.mp (List.perm_middle.nodup_iff.mp hnd)).1
  · obtain ⟨r, hwalk, rfl⟩ := Option.map_eq_some_iff.mp hs
    rw [h.head] at hwalk
    obtain rfl := removeWalk_not_mem h.path ht hwalk
    exact ⟨A, h, ht⟩

/-- Cutting the list behind a timer. -/
theorem IsList.cut {nx nx' : TimerId → Option TimerId} {p : Option TimerId} (h : IsList nx p A)
    (ht : nx' t = none) (hn : ∀ x, x ≠ t → nx' x = nx x) : ∃ A', IsList nx' p A' := by
  by_cases hmem : t ∈ A
  · obtain ⟨l, r, rfl⟩ := List.append_of_mem hmem
    have hl : t ∉ l := by
      intro hl
      exact (List.nodup_append.mp h.path.nodup).2.2 t hl t (by simp) rfl
    refine ⟨l ++ [t], ?_, ?_⟩
    · rw [h.head]
      cases l <;> rfl
    · apply (path_append ..).mpr
      constructor
      · refine ((path_append ..).mp h.path).1.congr fun x hx => hn x ?_
        rintro rfl
        exact hl hx
      · exact ⟨ht, trivial⟩
  · refine ⟨A, h.head, h.path.congr fun x hx => hn x ?_⟩
    rintro rfl
    exact hmem hx

/-! ### Calls -/

/-- Some list is at the head of the active list. -/
def Timers.Ends (s : Timers) : Prop := ∃ A, IsList s.nexts s.activeTimerList A

/-- The end of the list depends on the links and the head only. -/
theorem Timers.Ends.congr (h : s.Ends) (hn : s'.nexts = s.nexts)
    (ha : s'.activeTimerList = s.activeTimerList) : s'.Ends := by
  obtain ⟨A, hA⟩ := h
  refine ⟨A, ?_⟩
  rw [hn, ha]
  exact hA

/-- The kernel is not read. -/
theorem Timers.Ends.setKernel (h : s.Ends) (k : Kernel) : Timers.Ends { s with kernel := k } := h

/-- A list that ends does so after stopping a timer. -/
theorem Timers.Ends.stopTimer (h : s.Ends) (hs : stopTimer fuel s t = some s') : s'.Ends := by
  unfold MiniRTOS.stopTimer at hs
  split at hs
  · obtain ⟨s₁, hrem, hs⟩ := Option.bind_eq_some_iff.mp hs
    obtain rfl := Option.some.inj hs
    obtain ⟨A, hA⟩ := h
    obtain ⟨B, hB, -⟩ := hA.removeFromActive hrem
    exact Timers.Ends.congr ⟨B, hB⟩ (nexts_setActive s₁ t false) rfl
  · obtain rfl := Option.some.inj hs
    exact h

/-- A timer that is not in the list is put in, after writes to its other fields. -/
theorem Timers.Ends.rearm {s₁ : Timers} (hB : IsList s.nexts s.activeTimerList B) (ht : t ∉ B)
    (hn : s₁.nexts = s.nexts) (ha : s₁.activeTimerList = s.activeTimerList)
    (hs : prvTimerInsertSorted fuel s₁ t = some s') : s'.Ends := by
  rw [← hn, ← ha] at hB
  exact hB.insertSorted ht hs

/-- `os_timer_start`: an inactive timer must not be in the list. -/
theorem Timers.Ends.startTimer (h : s.Ends)
    (ht : (s.timer t).active = false → ∀ A, IsList s.nexts s.activeTimerList A → t ∉ A)
    (hs : startTimer fuel s t = some s') : s'.Ends := by
  obtain ⟨A, hA⟩ := h
  obtain ⟨s₁, hout, hs⟩ := Option.bind_eq_some_iff.mp hs
  have hB : ∃ B, IsList s₁.nexts s₁.activeTimerList B ∧ t ∉ B := by
    split at hout
    · exact hA.removeFromActive hout
    · next hact =>
        obtain rfl := Option.some.inj hout
        exact ⟨A, hA, ht (Bool.not_eq_true _ ▸ hact) A hA⟩
  obtain ⟨B, hB, htB⟩ := hB
  apply Timers.Ends.rearm hB htB _ _ hs
  · rw [nexts_setActive, nexts_setRemaining]
  · rfl

/-- What `os_timer_reset` and `os_timer_change_period` do with an active timer: out of the list, and in
again with the ticks `v`. -/
theorem Timers.Ends.reinsert {v : Timers → BitVec 32} (h : s.Ends)
    (hs : ((prvTimerRemoveFromActive fuel s t).bind fun s₁ =>
      prvTimerInsertSorted fuel (s₁.setRemaining t (v s₁)) t) = some s') : s'.Ends := by
  obtain ⟨A, hA⟩ := h
  obtain ⟨s₁, hrem, hs⟩ := Option.bind_eq_some_iff.mp hs
  obtain ⟨B, hB, htB⟩ := hA.removeFromActive hrem
  apply Timers.Ends.rearm hB htB _ _ hs
  · rw [nexts_setRemaining]
  · rfl

/-- A list that ends does so after resetting a timer. -/
theorem Timers.Ends.resetTimer (h : s.Ends) (hs : resetTimer fuel s t = some s') : s'.Ends := by
  unfold MiniRTOS.resetTimer at hs
  split at hs
  · exact h.reinsert hs
  · obtain rfl := Option.some.inj hs
    exact h

/-- And with a new period. -/
theorem Timers.Ends.changePeriodTimer {p : BitVec 32} (h : s.Ends)
    (hs : changePeriodTimer fuel s t p = some s') : s'.Ends := by
  have h₀ : (s.setPeriod t p).Ends := h.congr (nexts_setPeriod s t p) rfl
  unfold MiniRTOS.changePeriodTimer at hs
  dsimp only at hs
  split at hs
  · exact h₀.reinsert (v := fun _ => p) hs
  · obtain rfl := Option.some.inj hs
    exact h₀

/-! ## Reloads -/

/-- The difference an auto-reload timer gets when it is put behind the timers `Y`. -/
def reloadGap (s : Timers) (z : TimerId) (Y : List TimerId) : BitVec 32 :=
  match Y.getLast? with
  | some y => (s.timer z).period - s.rem y
  | none => (s.timer z).period

/-- **The timers in front of the expired list.** Of a tick that expires the timers of the first list in
turn, each auto-reload timer is put back behind timers of `Y` only, where `w` is the difference of the
first timer behind `Y`. What was behind it is lost; the expired list follows. -/
def reloadsAhead (s : Timers) : List TimerId → List TimerId → Option (BitVec 32) → Bool
  | [], _, _ => true
  | z :: Z, Y, w =>
      if (s.timer z).type = .autoReload then
        let Y' := Y.takeWhile fun y => !decide ((s.timer z).period < s.rem y)
        (decide (Y' ≠ Y) || w.all fun r => decide ((s.timer z).period < r)) &&
          reloadsAhead s Z Y' (some (reloadGap s z Y'))
      else reloadsAhead s Z Y w

/-- **A tick that keeps the lists apart**: none of the timers that expire is in the expired list, and
each auto-reload timer among them is put back in front of it. -/
def reloadsApart (s : Timers) (A E : List TimerId) : Bool :=
  (s.expiring A).all (fun z => decide (z ∉ E)) &&
    reloadsAhead (countDown s) (s.expiring A) ((s.staying A).takeWhile fun y => decide (y ∉ E))
      (((s.staying A).dropWhile fun y => decide (y ∉ E)).head?.map (countDown s).rem)

/-- **Steps that make no cycle.** An inactive timer is started only when the active list does not lead
to it, and started timers have a period. A tick that expires an auto-reload timer finds an expired list
that ends, and keeps it apart. -/
def KeepsEnding (s : TimerSys) : TimerOp → Prop
  | .start t | .startFromIsr t =>
      (s.timers.timer t).period ≠ 0 ∧ ((s.timers.timer t).active = false →
        ∀ A, IsList s.timers.nexts s.timers.activeTimerList A → t ∉ A)
  | .tick => ∀ A, IsList s.timers.nexts s.timers.activeTimerList A →
      (∃ z ∈ s.timers.expiring A, (s.timers.timer z).type = .autoReload) →
        ∃ E, IsList s.timers.nexts s.timers.expiredList E ∧ reloadsApart s.timers A E = true
  | _ => True

/-! ### The loop -/

/-- **The state of the loop of `os_timer_tick`** while it expires the timers of `Z`: behind them come the
timers `Y` that have not expired, and then `W`, which starts with the expired list `F` or is what both
lists share. -/
structure Reloading (s₀ s : Timers) (Z Y W F : List TimerId) : Prop where
  /-- The active list. -/
  list : IsList s.nexts s.activeTimerList (Z ++ (Y ++ W))
  /-- The expired list. -/
  expired : IsList s.nexts s.expiredList F
  /-- The timers in front are not in it. -/
  apart : ∀ x ∈ Z ++ Y, x ∉ F
  /-- The timers of `Z` have used up their ticks. -/
  zero : ∀ z ∈ Z, s.rem z = 0
  /-- The one behind them has not. -/
  stop : ∀ x ∈ (Y ++ W).head?, s.rem x ≠ 0
  /-- The differences of `Y` are those that the loop began with. -/
  rem : ∀ y ∈ Y, s.rem y = s₀.rem y
  /-- The settings. -/
  settings : ∀ x, (s.timer x).period = (s₀.timer x).period ∧ (s.timer x).type = (s₀.timer x).type
  /-- The timers that expire have a period. -/
  periods : ∀ z ∈ Z, (s₀.timer z).period ≠ 0
  /-- The timers that expire are put back in front of the expired list. -/
  ahead : reloadsAhead s₀ Z Y (W.head?.map s.rem) = true

section Loop

variable {s₀ s₁ : Timers} {z : TimerId} {Z Y W F : List TimerId} {walk : Nat}

/-- **A one-shot timer** goes to the expired list. -/
theorem Reloading.oneShot (h : Reloading s₀ s (z :: Z) Y W F) (hty : (s₀.timer z).type = .oneShot) :
    Reloading s₀ (expireOneShot s z) Z Y W (z :: F) := by
  have hnd := h.list.path.nodup
  have hmoved := (Moved.init h.list hnd).expireOneShot
  have hz : z ∉ Z ++ (Y ++ W) := (List.nodup_cons.mp hnd).1
  have hzF : z ∉ F := h.apart z (by simp)
  have hset : ∀ x, ((expireOneShot s z).timer x).period = (s₀.timer x).period ∧
      ((expireOneShot s z).timer x).type = (s₀.timer x).type := by
    intro x
    rw [period_expireOneShot, type_expireOneShot]
    exact h.settings x
  constructor
  · exact hmoved.list
  · constructor
    · rfl
    · constructor
      · rw [nexts_expireOneShot, Function.update_self, Option.or_none]
        exact h.expired.head
      · refine h.expired.path.congr fun x hx => hmoved.nexts x ?_
        intro hxz
        rw [List.mem_singleton.mp hxz] at hx
        exact hzF hx
  · intro x hx hxF
    rcases List.mem_cons.mp hxF with rfl | hxF
    · apply hz
      rcases List.mem_append.mp hx with hx | hx
      · exact List.mem_append_left _ hx
      · exact List.mem_append_right _ (List.mem_append_left _ hx)
    · exact h.apart x (List.mem_cons_of_mem z hx) hxF
  · intro y hy
    rw [rem_expireOneShot]
    exact h.zero y (List.mem_cons_of_mem z hy)
  · rw [rem_expireOneShot]
    exact h.stop
  · rw [rem_expireOneShot]
    exact h.rem
  · exact hset
  · intro y hy
    exact h.periods y (List.mem_cons_of_mem z hy)
  · have hahead := h.ahead
    rw [reloadsAhead, if_neg (by rw [hty]; decide)] at hahead
    rw [rem_expireOneShot]
    exact hahead

/-- The walk over a list that is cut in two where the comparison first succeeds. -/
theorem takeWhile_of_split {p : TimerId → Bool} {pre post : List TimerId}
    (hpre : ∀ x ∈ pre, p x = true) (hpost : ∀ x ∈ post.head?, p x = false) :
    (pre ++ post).takeWhile p = pre := by
  rw [List.takeWhile_append_of_pos hpre]
  cases post with
  | nil => rw [List.takeWhile_nil, List.append_nil]
  | cons a post => rw [List.takeWhile_cons_of_neg (by simp [hpost a rfl]), List.append_nil]

/-- The list without the timer that is reloaded. -/
theorem Reloading.listBehind (h : Reloading s₀ s (z :: Z) Y W F) :
    IsList (reinserting s z).nexts (reinserting s z).activeTimerList (Z ++ (Y ++ W)) := by
  have hz := (List.nodup_cons.mp h.list.path.nodup).1
  constructor
  · show s.nexts z = _
    simpa using h.list.path.1
  · refine h.list.path.2.congr fun x hx => ?_
    have hxz : x ≠ z := by
      rintro rfl
      exact hz hx
    rw [MiniRTOS.reinserting, nexts_setNext, Function.update_of_ne hxz, nexts_setRemaining,
      nexts_setList]

/-- The differences when an auto-reload timer is inserted again. -/
theorem rem_reinserting (s : Timers) (z : TimerId) :
    (reinserting s z).rem = Function.update s.rem z (s.timer z).period := by
  rw [reinserting, rem_setNext, rem_setRemaining, rem_setList]

/-- The comparison of `prv_timer_insert_sorted` splits the list behind an auto-reload timer after the
timers that expire with it and those of `Y` that have no more ticks stored than its period. -/
theorem Reloading.takeWhile (h : Reloading s₀ s (z :: Z) Y W F)
    (hty : (s₀.timer z).type = .autoReload) :
    ((Z ++ (Y ++ W)).takeWhile fun y => !decide ((s₀.timer z).period < s.rem y))
      = Z ++ Y.takeWhile fun y => !decide ((s₀.timer z).period < s₀.rem y) := by
  set q : TimerId → Bool := fun y => !decide ((s₀.timer z).period < s₀.rem y) with hq
  have hsplit : Z ++ (Y ++ W) = (Z ++ Y.takeWhile q) ++ (Y.dropWhile q ++ W) := by
    rw [List.append_assoc, ← List.append_assoc (Y.takeWhile q), List.takeWhile_append_dropWhile]
  have hY : ∀ y ∈ Y, (!decide ((s₀.timer z).period < s.rem y)) = q y := by
    intro y hy
    rw [h.rem y hy]
  have hahead := h.ahead
  rw [reloadsAhead, if_pos hty] at hahead
  have hwall := (Bool.and_eq_true_iff.mp hahead).1
  rw [hsplit]
  apply takeWhile_of_split
  · intro x hx
    rcases List.mem_append.mp hx with hx | hx
    · rw [h.zero x (List.mem_cons_of_mem z hx)]
      simp
    · rw [hY x ((List.takeWhile_sublist q).subset hx)]
      exact List.mem_takeWhile_imp hx
  · intro x hx
    cases hrest : Y.dropWhile q with
    | nil =>
        -- all of `Y` is passed: the timer behind it has more ticks stored
        have hwhole : Y.takeWhile q = Y := by
          have happ := List.takeWhile_append_dropWhile (p := q) (l := Y)
          rwa [hrest, List.append_nil] at happ
        rw [hrest, List.nil_append] at hx
        rw [← hq, hwhole, Option.mem_def.mp hx] at hwall
        simpa using hwall
    | cons y rest =>
        have hnot := List.head?_dropWhile_not q Y
        rw [hrest] at hx hnot
        obtain rfl : y = x := Option.some.inj hx
        have hmem : y ∈ Y := (List.dropWhile_sublist q).subset (by rw [hrest]; simp)
        rw [hY y hmem]
        simpa using hnot

/-- **Where an auto-reload timer is put back.** -/
theorem Reloading.place (h : Reloading s₀ s (z :: Z) Y W F)
    (hty : (s₀.timer z).type = .autoReload)
    (hs : prvTimerInsertSorted walk (reinserting s z) z = some s₁) :
    ∃ post, Z ++ (Y ++ W)
        = (Z ++ Y.takeWhile fun y => !decide ((s₀.timer z).period < s₀.rem y)) ++ post ∧
      Inserted (reinserting s z) s₁ z
        (Z ++ Y.takeWhile fun y => !decide ((s₀.timer z).period < s₀.rem y)) post := by
  have hnd := h.list.path.nodup
  have hz : z ∉ Z ++ (Y ++ W) := (List.nodup_cons.mp hnd).1
  have hp : (reinserting s z).rem z = (s₀.timer z).period := by
    rw [rem_reinserting, Function.update_self, (h.settings z).1]
  have hother : ∀ x ∈ Z ++ (Y ++ W), (reinserting s z).rem x = s.rem x := by
    intro x hx
    rw [rem_reinserting, Function.update_of_ne]
    rintro rfl
    exact hz hx
  obtain ⟨pre, post, hsplit, hins⟩ :=
    prvTimerInsertSorted_spec h.listBehind (List.nodup_cons.mp hnd).2 hz hs
  have hpre : ((Z ++ (Y ++ W)).takeWhile fun y => !decide ((s₀.timer z).period < s.rem y)) = pre := by
    rw [hsplit]
    apply takeWhile_of_split
    · intro x hx
      have hnot := hins.before x hx
      rw [hp, hother x (by rw [hsplit]; exact List.mem_append_left post hx)] at hnot
      simpa using hnot
    · intro x hx
      have hlt := hins.after x hx
      have hmem : x ∈ Z ++ (Y ++ W) := by
        rw [hsplit]
        exact List.mem_append_right pre (List.mem_of_mem_head? hx)
      rw [hp, hother x hmem] at hlt
      simpa using hlt
  rw [← h.takeWhile hty, hpre]
  exact ⟨post, hsplit, hins⟩

/-- The difference it gets there. -/
theorem Reloading.gap {post : List TimerId} (h : Reloading s₀ s (z :: Z) Y W F)
    (hY : B ⊆ Y) (hins : Inserted (reinserting s z) s₁ z (Z ++ B) post) :
    s₁.rem z = reloadGap s₀ z B := by
  have hz : z ∉ Z ++ (Y ++ W) := (List.nodup_cons.mp h.list.path.nodup).1
  have hother : ∀ x ∈ Z ++ (Y ++ W), (reinserting s z).rem x = s.rem x := by
    intro x hx
    rw [rem_reinserting, Function.update_of_ne]
    rintro rfl
    exact hz hx
  have hp : (reinserting s z).rem z = (s₀.timer z).period := by
    rw [rem_reinserting, Function.update_self, (h.settings z).1]
  rw [hins.self, List.getLast?_append]
  cases hlast : B.getLast? with
  | some y =>
      have hyY : y ∈ Y := hY (List.mem_of_getLast? hlast)
      have hrem : (reinserting s z).rem y = s₀.rem y := by
        rw [hother y (List.mem_append_right Z (List.mem_append_left W hyY)), h.rem y hyY]
      rw [Option.some_or, Timers.remBehind, reloadGap, hlast, hp, hrem]
  | none =>
      rw [Option.none_or]
      cases hlastZ : Z.getLast? with
      | none => rw [Timers.remBehind, reloadGap, hlast, hp]
      | some w =>
          -- a timer that expires with it has no ticks stored
          have hwZ : w ∈ Z := List.mem_of_getLast? hlastZ
          have hrem : (reinserting s z).rem w = 0 := by
            rw [hother w (List.mem_append_left _ hwZ), h.zero w (List.mem_cons_of_mem z hwZ)]
          rw [Timers.remBehind, reloadGap, hlast, hp, hrem]
          exact BitVec.sub_zero _

/-- The timers in front of it keep their differences. -/
theorem Reloading.reload_rem {pre post : List TimerId} (h : Reloading s₀ s (z :: Z) Y W F)
    (hsplit : Z ++ (Y ++ W) = pre ++ post) (hins : Inserted (reinserting s z) s₁ z pre post)
    (hx : x ∈ pre) : (pushExpired s₁ z).rem x = s.rem x := by
  have hnd : z ∉ Z ++ (Y ++ W) ∧ (Z ++ (Y ++ W)).Nodup := List.nodup_cons.mp h.list.path.nodup
  rw [hsplit] at hnd
  have hxz : x ≠ z := by
    rintro rfl
    exact hnd.1 (List.mem_append_left post hx)
  have hpost : post.head? ≠ some x := by
    intro hhead
    exact (List.nodup_append.mp hnd.2).2.2 x hx x (List.mem_of_mem_head? hhead) rfl
  rw [rem_pushExpired, hins.others x hxz hpost, rem_reinserting, Function.update_of_ne hxz]

/-- What was behind it is lost: the expired list, which now begins with it, follows instead. -/
theorem Reloading.reload_lists {pre post : List TimerId} (h : Reloading s₀ s (z :: Z) Y W F)
    (hsplit : Z ++ (Y ++ W) = pre ++ post) (hins : Inserted (reinserting s z) s₁ z pre post)
    (hapart : ∀ x ∈ pre, x ∉ F) :
    IsList (pushExpired s₁ z).nexts (pushExpired s₁ z).activeTimerList (pre ++ z :: F) ∧
      IsList (pushExpired s₁ z).nexts (pushExpired s₁ z).expiredList (z :: F) := by
  have hz : z ∉ Z ++ (Y ++ W) := (List.nodup_cons.mp h.list.path.nodup).1
  rw [hsplit] at hz
  have hne : ∀ x ∈ pre, x ≠ z := by
    rintro x hx rfl
    exact hz (List.mem_append_left post hx)
  have hneF : ∀ x ∈ F, x ≠ z := by
    rintro x hx rfl
    exact h.apart x (by simp) hx
  have hset := (settings_reinserting s z).trans hins.settings
  have hnexts : ∀ x, x ≠ z → (pushExpired s₁ z).nexts x = s₁.nexts x := by
    intro x hx
    rw [nexts_pushExpired, Function.update_of_ne hx]
  have hF : Path (pushExpired s₁ z).nexts F none := by
    refine h.expired.path.congr fun x hx => ?_
    have hxz : x ≠ z := hneF x hx
    have hxpre : x ∉ pre := fun hpre => hapart x hpre hx
    rw [hnexts x hxz, hins.nexts x hxz hxpre, MiniRTOS.reinserting, nexts_setNext,
      Function.update_of_ne hxz, nexts_setRemaining, nexts_setList]
  have hself : (pushExpired s₁ z).nexts z = F.head? := by
    rw [nexts_pushExpired, Function.update_self, hset.expiredList]
    exact h.expired.head
  have hzF : Path (pushExpired s₁ z).nexts (z :: F) none := ⟨by rw [hself, Option.or_none], hF⟩
  constructor
  · constructor
    · show s₁.activeTimerList = _
      rw [hins.list.head, List.head?_append, List.head?_append]
      rfl
    · apply (path_append ..).mpr
      constructor
      · exact ((path_append ..).mp hins.list.path).1.congr fun x hx => hnexts x (hne x hx)
      · exact hzF
  · exact ⟨rfl, hzF⟩

/-- **An auto-reload timer** is put back in front of the expired list, which then begins with it. -/
theorem Reloading.reload (h : Reloading s₀ s (z :: Z) Y W F)
    (hty : (s₀.timer z).type = .autoReload)
    (hs : prvTimerInsertSorted walk (reinserting s z) z = some s₁) :
    Reloading s₀ (pushExpired s₁ z) Z
      (Y.takeWhile fun y => !decide ((s₀.timer z).period < s₀.rem y)) (z :: F) (z :: F) := by
  obtain ⟨post, hsplit, hins⟩ := h.place hty hs
  have hahead := h.ahead
  rw [reloadsAhead, if_pos hty] at hahead
  have hpre : (Y.takeWhile fun y => !decide ((s₀.timer z).period < s₀.rem y)) <+: Y :=
    List.takeWhile_prefix _
  set Y' := Y.takeWhile fun y => !decide ((s₀.timer z).period < s₀.rem y)
  have hgap := h.gap hpre.subset hins
  have hapart : ∀ x ∈ Z ++ Y', x ∉ F := by
    intro x hx
    apply h.apart
    rcases List.mem_append.mp hx with hx | hx
    · exact List.mem_append_left Y (List.mem_cons_of_mem z hx)
    · exact List.mem_append_right _ (hpre.subset hx)
  have hz : z ∉ Z ++ Y' := by
    intro hmem
    have hnot : z ∉ Z ++ (Y ++ W) := (List.nodup_cons.mp h.list.path.nodup).1
    rw [hsplit] at hnot
    exact hnot (List.mem_append_left post hmem)
  obtain ⟨hlist, hexp⟩ := h.reload_lists hsplit hins hapart
  have hrem : ∀ x ∈ Z ++ Y', (pushExpired s₁ z).rem x = s.rem x :=
    fun x hx => h.reload_rem hsplit hins hx
  constructor
  · rw [← List.append_assoc]
    exact hlist
  · exact hexp
  · intro x hx hmem
    rcases List.mem_cons.mp hmem with rfl | hmem
    · exact hz hx
    · exact hapart x hx hmem
  · intro y hy
    rw [hrem y (List.mem_append_left Y' hy)]
    exact h.zero y (List.mem_cons_of_mem z hy)
  · -- the timer behind those that expire is one of `Y`, or this one with its whole period
    intro x hx
    cases hcase : Y' with
    | nil =>
        rw [hcase] at hx hgap
        obtain rfl : z = x := Option.some.inj hx
        rw [rem_pushExpired, hgap]
        exact h.periods z (by simp)
    | cons y rest =>
        rw [hcase] at hx
        obtain rfl : y = x := Option.some.inj hx
        rw [hrem y (by rw [hcase]; simp)]
        apply h.stop y
        obtain ⟨tail, htail⟩ := hcase ▸ hpre
        rw [← htail]
        rfl
  · intro y hy
    rw [hrem y (List.mem_append_right Z hy)]
    exact h.rem y (hpre.subset hy)
  · intro x
    have hset := (settings_reinserting s z).trans hins.settings
    rw [(timer_pushExpired ..).2.1, (timer_pushExpired ..).2.2, hset.period, hset.type]
    exact h.settings x
  · intro y hy
    exact h.periods y (List.mem_cons_of_mem z hy)
  · have hw : (z :: F).head?.map (pushExpired s₁ z).rem = some (reloadGap s₀ z Y') := by
      rw [rem_pushExpired, ← hgap]
      rfl
    rw [hw]
    exact (Bool.and_eq_true_iff.mp hahead).2

/-- One iteration. -/
theorem Reloading.expire (h : Reloading s₀ s (z :: Z) Y W F) (hs : expireTimer walk s z = some s₁) :
    ∃ Y' W' F', Reloading s₀ s₁ Z Y' W' F' := by
  have hty : (s.timer z).type = (s₀.timer z).type := (h.settings z).2
  cases htype : (s₀.timer z).type with
  | oneShot =>
      rw [expireTimer_oneShot (hty.trans htype)] at hs
      obtain rfl := Option.some.inj hs
      exact ⟨Y, W, z :: F, h.oneShot htype⟩
  | autoReload =>
      rw [expireTimer_reload (hty.trans htype)] at hs
      obtain ⟨s₂, hins, rfl⟩ := Option.map_eq_some_iff.mp hs
      exact ⟨_, z :: F, z :: F, h.reload htype hins⟩

/-- Its walk ends. -/
theorem Reloading.expire_isSome (h : Reloading s₀ s (z :: Z) Y W F) (hS : Within s S)
    (hwalk : S.card ≤ walk) : ∃ s₁, expireTimer walk s z = some s₁ := by
  have hty : (s.timer z).type = (s₀.timer z).type := (h.settings z).2
  cases htype : (s₀.timer z).type with
  | oneShot => exact ⟨_, expireTimer_oneShot (hty.trans htype)⟩
  | autoReload =>
      have hlen : (z :: (Z ++ (Y ++ W))).length ≤ S.card := by
        apply hS.closed.length_le_card h.list.path
        intro x hx
        apply hS.active
        rw [h.list.head]
        exact hx
      have hz : z ∉ Z ++ (Y ++ W) := (List.nodup_cons.mp h.list.path.nodup).1
      have hfuel : (Z ++ (Y ++ W)).length ≤ walk := by
        rw [List.length_cons] at hlen
        omega
      obtain ⟨s₂, hs₂⟩ := prvTimerInsertSorted_isSome h.listBehind hz hfuel
      rw [expireTimer_reload (hty.trans htype), hs₂]
      exact ⟨_, rfl⟩

/-- **The rest of the loop** leaves a list that ends. -/
theorem Reloading.loop {ts : List TimerId} (h : Reloading s₀ s Z Y W F)
    (hs : expireLoop walk fuel s = some (ts, s')) : s'.Ends := by
  induction Z generalizing s Y W F fuel ts with
  | nil =>
      rw [expireLoop_stop h.list h.stop] at hs
      obtain ⟨-, rfl⟩ := Prod.mk.inj (Option.some.inj hs)
      exact ⟨_, h.list⟩
  | cons z Z ih =>
      rcases expireLoop_cases h.list hs with
        ⟨hne, -⟩ | ⟨t, B, n, s₁, us, hB, -, -, hexp, hloop, -⟩
      · exact absurd (h.zero z (by simp)) (hne z rfl)
      · obtain ⟨rfl, -⟩ := List.cons.inj hB
        obtain ⟨Y', W', F', h₁⟩ := h.expire hexp
        exact ih h₁ hloop

/-- **The rest of the loop ends**: each iteration takes one timer off `Z`, and the timers in reach bound
every walk. -/
theorem Reloading.loop_isSome (h : Reloading s₀ s Z Y W F) (hS : Within s S)
    (hwalk : S.card ≤ walk) (hfuel : Z.length ≤ fuel) : ∃ r, expireLoop walk fuel s = some r := by
  induction Z generalizing s Y W F fuel with
  | nil => exact ⟨_, expireLoop_stop h.list h.stop⟩
  | cons z Z ih =>
      obtain ⟨fuel, rfl⟩ : ∃ n, fuel = n + 1 := ⟨fuel - 1, by simp at hfuel; omega⟩
      obtain ⟨s₁, hs₁⟩ := h.expire_isSome hS hwalk
      obtain ⟨Y', W', F', h₁⟩ := h.expire hs₁
      have hz : z ∈ S := by
        apply hS.active
        rw [h.list.head]
        rfl
      obtain ⟨r, hr⟩ := ih h₁ (hS.expireTimer hz hs₁) (by simpa using hfuel)
      rw [expireLoop_cons h.list (h.zero z (by simp)), hs₁, Option.bind_some, hr]
      exact ⟨_, rfl⟩

end Loop

/-! ### The tick -/

/-- The loop of a tick that keeps the lists apart begins with them. -/
theorem Timers.reloading (hA : IsList s.nexts s.activeTimerList A)
    (hE : IsList s.nexts s.expiredList E) (hS : Within s S) (hapart : reloadsApart s A E = true) :
    Reloading (countDown s) (countDown s) (s.expiring A)
      ((s.staying A).takeWhile fun y => decide (y ∉ E))
      ((s.staying A).dropWhile fun y => decide (y ∉ E)) E := by
  have hset := settings_countDown s
  obtain ⟨hdisj, hahead⟩ := Bool.and_eq_true_iff.mp hapart
  have hwhole := List.takeWhile_append_dropWhile (p := fun y => decide (y ∉ E)) (l := s.staying A)
  constructor
  · rw [hwhole, expiring_append_staying, nexts_countDown, activeTimerList_countDown]
    exact hA
  · rw [nexts_countDown, hset.expiredList]
    exact hE
  · intro x hx
    rcases List.mem_append.mp hx with hx | hx
    · exact of_decide_eq_true (List.all_eq_true.mp hdisj x hx)
    · exact of_decide_eq_true (List.mem_takeWhile_imp (p := fun y => decide (y ∉ E)) hx)
  · intro z hz
    exact of_decide_eq_true (List.mem_takeWhile_imp (p := fun t => decide ((countDown s).rem t = 0)) hz)
  · intro x hx hzero
    rw [hwhole] at hx
    have hpos := staying_head s A x hx
    rw [gap_eq_zero_iff.mpr hzero] at hpos
    exact Nat.lt_irrefl 0 hpos
  · intro y hy
    rfl
  · intro x
    exact ⟨rfl, rfl⟩
  · intro z hz
    rw [hset.period]
    apply hS.periods
    apply hS.closed.path_subset hA.path
    · intro x hx
      apply hS.active
      rw [hA.head]
      exact hx
    · rw [← expiring_append_staying s A]
      exact List.mem_append_left _ hz
  · exact hahead

/-- **A tick leaves a list that ends**, when it makes no cycle. -/
theorem Timers.Ends.osTimerTick {ts : List TimerId} (h : s.Ends) (hS : Within s S)
    (hop : ∀ A, IsList s.nexts s.activeTimerList A →
      (∃ z ∈ s.expiring A, (s.timer z).type = .autoReload) →
        ∃ E, IsList s.nexts s.expiredList E ∧ reloadsApart s A E = true)
    (hs : osTimerTick fuel s = some (ts, s')) : s'.Ends := by
  rcases osTimerTick_cases hs with ⟨-, -, rfl⟩ | ⟨s₁, k, -, hloop, rfl⟩
  · exact h
  · obtain ⟨A, hA⟩ := h
    have hends : s₁.Ends := by
      by_cases hauto : ∃ z ∈ s.expiring A, (s.timer z).type = .autoReload
      · obtain ⟨E, hE, hapart⟩ := hop A hA hauto
        exact (Timers.reloading hA hE hS hapart).loop hloop
      · have hA₀ : IsList (countDown s).nexts (countDown s).activeTimerList A := by
          rw [nexts_countDown, activeTimerList_countDown]
          exact hA
        obtain ⟨-, hend⟩ := expireLoop_oneShot
          (P := fun s A => IsList s.nexts s.activeTimerList A) (fun _ _ h => h)
          (fun _ _ _ h => (Moved.init h h.path.nodup).expireOneShot.list) hA₀
          (fun t ht => by
            rw [(settings_countDown s).type]
            cases hty : (s.timer t).type with
            | oneShot => rfl
            | autoReload => exact absurd ⟨t, ht, hty⟩ hauto) hloop
        exact ⟨_, hend⟩
    exact hends

/-- **The loop of a tick ends**, when the tick makes no cycle. -/
theorem Timers.Ends.expireLoop_isSome (h : s.Ends) (hS : Within s S)
    (hop : ∀ A, IsList s.nexts s.activeTimerList A →
      (∃ z ∈ s.expiring A, (s.timer z).type = .autoReload) →
        ∃ E, IsList s.nexts s.expiredList E ∧ reloadsApart s A E = true)
    (hfuel : S.card ≤ fuel) : ∃ r, expireLoop fuel fuel (countDown s) = some r := by
  obtain ⟨A, hA⟩ := h
  have hlen : A.length ≤ S.card := by
    apply hS.closed.length_le_card hA.path
    intro x hx
    apply hS.active
    rw [hA.head]
    exact hx
  by_cases hauto : ∃ z ∈ s.expiring A, (s.timer z).type = .autoReload
  · obtain ⟨E, hE, hapart⟩ := hop A hA hauto
    have hexp : (s.expiring A).length ≤ A.length := (List.takeWhile_sublist _).length_le
    apply (Timers.reloading hA hE hS hapart).loop_isSome hS.countDown hfuel
    omega
  · have hA₀ : IsList (countDown s).nexts (countDown s).activeTimerList A := by
      rw [nexts_countDown, activeTimerList_countDown]
      exact hA
    apply expireLoop_oneShot_isSome _ (P := fun s A => IsList s.nexts s.activeTimerList A)
      (fun _ _ h => h) (fun _ _ _ h => (Moved.init h h.path.nodup).expireOneShot.list) hA₀
    · intro t ht
      rw [(settings_countDown s).type]
      cases hty : (s.timer t).type with
      | oneShot => rfl
      | autoReload => exact absurd ⟨t, ht, hty⟩ hauto
    · omega

/-! ## Whole runs -/

/-- The invariant of a run: the active list ends, and the timers in reach are finitely many. -/
def TimerSys.Sound (s : TimerSys) : Prop := s.timers.Ends ∧ ∃ S, s.Within S

/-- A call that keeps both. -/
theorem TimerSys.Sound.call {s s' : TimerSys} {op : TimerOp} {body : Timers → Option Timers}
    (h : s.Sound) (hbody : op.body fuel = some body) (hs : timerStep fuel s op = some s')
    (hends : ∀ k tm, body { s.timers with kernel := k } = some tm → tm.Ends)
    (hwithin : ∀ k tm S, MiniRTOS.Within { s.timers with kernel := k } S →
      body { s.timers with kernel := k } = some tm → ∃ S', S ⊆ S' ∧ MiniRTOS.Within tm S') :
    s'.Sound := by
  obtain ⟨-, S, hS⟩ := h
  obtain ⟨k, k', tm, htm, rfl⟩ := timerStep_body hbody hs
  obtain ⟨S', hsub, hS'⟩ := hwithin k tm S (hS.timers.setKernel k) htm
  refine ⟨hends k tm htm, S', hS'.setKernel k', ?_⟩
  intro x hx
  exact hsub (hS.list x hx)

/-- **One step.** -/
theorem TimerSys.Sound.step {s s' : TimerSys} {op : TimerOp} (h : s.Sound) (hop : KeepsEnding s op)
    (hs : timerStep fuel s op = some s') : s'.Sound := by
  obtain ⟨hends, S, hS⟩ := h
  -- the calls in their critical sections
  have hstop : ∀ {t : TimerId}, op.body fuel = some (MiniRTOS.stopTimer fuel · t) → s'.Sound := by
    intro t hbody
    apply TimerSys.Sound.call ⟨hends, S, hS⟩ hbody hs
    · intro k tm htm
      exact (hends.setKernel k).stopTimer htm
    · intro k tm S₁ h₁ htm
      exact ⟨S₁, Finset.Subset.refl S₁, h₁.stopTimer htm⟩
  have hreset : ∀ {t : TimerId}, op.body fuel = some (MiniRTOS.resetTimer fuel · t) → s'.Sound := by
    intro t hbody
    apply TimerSys.Sound.call ⟨hends, S, hS⟩ hbody hs
    · intro k tm htm
      exact (hends.setKernel k).resetTimer htm
    · intro k tm S₁ h₁ htm
      exact ⟨S₁, Finset.Subset.refl S₁, h₁.resetTimer htm⟩
  have hstart : ∀ {t : TimerId}, op.body fuel = some (MiniRTOS.startTimer fuel · t) →
      ((s.timers.timer t).period ≠ 0 ∧ ((s.timers.timer t).active = false →
        ∀ A, IsList s.timers.nexts s.timers.activeTimerList A → t ∉ A)) → s'.Sound := by
    intro t hbody hop
    apply TimerSys.Sound.call ⟨hends, S, hS⟩ hbody hs
    · intro k tm htm
      exact (hends.setKernel k).startTimer hop.2 htm
    · intro k tm S₁ h₁ htm
      exact ⟨insert t S₁, Finset.subset_insert t S₁, h₁.startTimer hop.1 htm⟩
  have hperiod : ∀ {t : TimerId} {p : BitVec 32}, op.body fuel = some (fun s => if p = 0 then some s
      else MiniRTOS.changePeriodTimer fuel s t p) → s'.Sound := by
    intro t p hbody
    apply TimerSys.Sound.call ⟨hends, S, hS⟩ hbody hs
    · intro k tm htm
      split at htm
      · obtain rfl := Option.some.inj htm
        exact hends
      · exact (hends.setKernel k).changePeriodTimer htm
    · intro k tm S₁ h₁ htm
      refine ⟨S₁, Finset.Subset.refl S₁, ?_⟩
      split at htm
      · obtain rfl := Option.some.inj htm
        exact h₁
      · next hp => exact h₁.changePeriodTimer hp htm
  cases op with
  | create t p ty cb =>
      obtain rfl := Option.some.inj hs
      refine ⟨?_, S, hS.timers.osTimerCreate t p ty cb, hS.list⟩
      show Timers.Ends (osTimerCreate s.timers t p ty cb).2
      unfold MiniRTOS.osTimerCreate
      split
      · exact hends
      · -- the list is cut behind the timer that is created again
        obtain ⟨A, hA⟩ := hends
        apply hA.cut (t := t)
        · simp [Timers.nexts, Timers.set]
        · intro x hx
          simp [Timers.nexts, Timers.set, Function.update_of_ne hx]
  | delete t => exact hstop rfl
  | start t => exact hstart rfl hop
  | stop t => exact hstop rfl
  | reset t => exact hreset rfl
  | changePeriod t p => exact hperiod rfl
  | startFromIsr t => exact hstart rfl hop
  | stopFromIsr t => exact hstop rfl
  | resetFromIsr t => exact hreset rfl
  | changePeriodFromIsr t p => exact hperiod rfl
  | tick =>
      obtain ⟨⟨ts, tm⟩, htm, rfl⟩ := Option.map_eq_some_iff.mp hs
      exact ⟨hends.osTimerTick hS.timers hop htm, S, hS.timers.osTimerTick htm, hS.list⟩
  | grab =>
      rw [timerStep] at hs
      split at hs
      · obtain rfl := Option.some.inj hs
        refine ⟨hends, S, ⟨hS.timers.closed, hS.timers.active, ?_, hS.timers.flags, hS.timers.periods⟩,
          hS.timers.expired⟩
        exact forall_mem_none
      · cases hs
  | callNext =>
      have hw := hS.callTimer hs
      obtain ⟨t, -, hs⟩ := Option.bind_eq_some_iff.mp hs
      obtain rfl := Option.some.inj hs
      obtain ⟨A, hA⟩ := hends
      refine ⟨hA.cut (t := t) ?_ ?_, S, hw⟩
      · rw [nexts_setNext, Function.update_self]
      · intro x hx
        rw [nexts_setNext, Function.update_of_ne hx]
  | other k =>
      obtain rfl := Option.some.inj hs
      exact ⟨hends, S, hS.timers.setKernel k, hS.list⟩

/-- The state after `os_timer_init`. -/
theorem TimerSys.Init.sound {s : TimerSys} (h : s.Init) : s.Sound := by
  refine ⟨⟨[], h.lists.1, trivial⟩, ∅, ⟨?_, ?_, ?_, ?_, ?_⟩, ?_⟩
  · intro x hx
    cases hx
  · rw [h.lists.1]
    exact forall_mem_none
  · rw [h.lists.2.1]
    exact forall_mem_none
  · intro x hx
    rw [h.inactive x] at hx
    cases hx
  · intro x hx
    cases hx
  · rw [h.lists.2.2]
    exact forall_mem_none

/-- **The tick handler terminates** along every run whose steps make no cycle: in each state that the run
reaches, the loop of a tick that makes none ends, with every walk of `prv_timer_insert_sorted` in it, and
so does the loop of `timer_service_task`. -/
theorem timer_loops_terminate {s₀ s : TimerSys} {ops : List TimerOp} (h₀ : s₀.Init)
    (hr : Run KeepsEnding (timerStep fuel) s₀ ops s) :
    (KeepsEnding s .tick → ∃ n, ∀ f ≥ n, ∃ r, expireLoop f f (countDown s.timers) = some r) ∧
      ∃ n, ∀ f ≥ n, ∃ s', drainLoop f s = some s' := by
  obtain ⟨hends, S, hS⟩ : s.Sound :=
    hr.invariant TimerSys.Sound (fun _ _ _ h hop hs => h.step hop hs) h₀.sound
  constructor
  · intro htick
    refine ⟨S.card, ?_⟩
    intro f hf
    exact hends.expireLoop_isSome hS.timers htick hf
  · refine ⟨linkCount s.timers.nexts S + 1, ?_⟩
    intro f hf
    exact hS.drainLoop hf

/-- `KeepsEnding` can be checked on lists of at most `n` timers. -/
def keepsEnding (n : Nat) (s : TimerSys) : TimerOp → Bool
  | .start t | .startFromIsr t =>
      decide ((s.timers.timer t).period ≠ 0) && ((s.timers.timer t).active ||
        (readList s.timers.nexts n s.timers.activeTimerList).any fun A => decide (t ∉ A))
  | .tick =>
      (readList s.timers.nexts n s.timers.activeTimerList).any fun A =>
        decide (∀ z ∈ s.timers.expiring A, (s.timers.timer z).type = .oneShot) ||
          (readList s.timers.nexts n s.timers.expiredList).any (reloadsApart s.timers A)
  | _ => true

/-- The decision procedure is right. -/
theorem keepsEnding_sound {n : Nat} {s : TimerSys} {op : TimerOp} (h : keepsEnding n s op = true) :
    KeepsEnding s op := by
  have hstart : ∀ t : TimerId, (decide ((s.timers.timer t).period ≠ 0) &&
      ((s.timers.timer t).active ||
        (readList s.timers.nexts n s.timers.activeTimerList).any fun A => decide (t ∉ A))) = true →
      (s.timers.timer t).period ≠ 0 ∧ ((s.timers.timer t).active = false →
        ∀ A, IsList s.timers.nexts s.timers.activeTimerList A → t ∉ A) := by
    intro t ht
    obtain ⟨hp, hlist⟩ := Bool.and_eq_true_iff.mp ht
    refine ⟨of_decide_eq_true hp, ?_⟩
    intro hact
    rw [hact, Bool.false_or] at hlist
    exact forall_isList_of_readList (P := fun A => t ∉ A) hlist
  cases op with
  | start t => exact hstart t h
  | startFromIsr t => exact hstart t h
  | tick =>
      obtain ⟨A', hA', hcheck⟩ := (Option.any_eq_true _ _).mp h
      rintro A hA ⟨z, hz, hauto⟩
      obtain rfl := hA.unique (isList_of_readList hA')
      rcases Bool.or_eq_true_iff.mp hcheck with hone | hapart
      · have hty := of_decide_eq_true hone z hz
        rw [hauto] at hty
        cases hty
      · obtain ⟨E, hE, hapart⟩ := (Option.any_eq_true _ _).mp hapart
        exact ⟨E, isList_of_readList hE, hapart⟩
  | _ => trivial

/-- Two auto-reload timers of different periods; the service task works off what each tick expires. -/
def reloadTrace : List TimerOp :=
  [.create 0x10 2 .autoReload (some 1), .create 0x20 3 .autoReload (some 1), .start 0x10, .start 0x20,
    .tick, .tick, .grab, .callNext, .tick, .grab, .callNext]

/-- Both auto-reload timers have been called, and the loops of the next tick end. -/
theorem timer_loops_terminate_reloadTrace :
    ∃ s, Run KeepsEnding (timerStep 8) .zero reloadTrace s ∧ s.called = [0x10, 0x20] ∧
      (∃ n, ∀ f ≥ n, ∃ r, expireLoop f f (countDown s.timers) = some r) ∧
      ∃ n, ∀ f ≥ n, ∃ s', drainLoop f s = some s' := by
  obtain ⟨s, hr, hcalled, htick⟩ := exists_run_of_exec (fun s op => keepsEnding 8 s op = true)
    (timerStep 8) .zero reloadTrace (fun s => s.called = [0x10, 0x20] ∧ keepsEnding 8 s .tick = true)
    (by decide +kernel)
  have hr' : Run KeepsEnding (timerStep 8) .zero reloadTrace s :=
    hr.mono fun _ _ => keepsEnding_sound
  obtain ⟨hloop, hdrain⟩ := timer_loops_terminate TimerSys.zero_init hr'
  exact ⟨s, hr', hcalled, hloop (keepsEnding_sound htick), hdrain⟩

/-! ### A tick that does not end -/

/-- The only active timer is an auto-reload timer of period 1, which has expired and whose `next` points
to itself. -/
structure SelfLinked (s : Timers) (t : TimerId) : Prop where
  /-- It is the head of the active list. -/
  active : s.activeTimerList = some t
  /-- It is the head of the expired list. -/
  expired : s.expiredList = some t
  /-- Its link. -/
  next : (s.timer t).next = some t
  /-- Its ticks. -/
  remaining : (s.timer t).remaining = 0
  /-- Its type. -/
  type : (s.timer t).type = .autoReload
  /-- Its period. -/
  period : (s.timer t).period = 1

/-- **An iteration of the loop changes nothing**: the insertion makes the timer its own successor, with
no ticks between. -/
theorem SelfLinked.expireTimer {s₁ : Timers} (h : SelfLinked s t)
    (hs : expireTimer fuel s t = some s₁) : SelfLinked s₁ t := by
  rw [expireTimer_reload h.type] at hs
  obtain ⟨s₂, hins, rfl⟩ := Option.map_eq_some_iff.mp hs
  obtain ⟨⟨p, i⟩, hwalk, hins⟩ := Option.bind_eq_some_iff.mp hins
  obtain rfl := Option.some.inj hins
  have htimer : ((reinserting s t).setNext t none).timer t
      = { s.timer t with remaining := 1, next := none } := by
    simp [reinserting, Timers.setNext, Timers.setRemaining, Timers.set, h.period]
  have hlist : ((reinserting s t).setNext t none).activeTimerList = some t := h.next
  -- the walk finds the timer itself, and goes past it
  have hq : p = some t ∧ i = none := by
    rw [hlist] at hwalk
    cases fuel with
    | zero => cases hwalk
    | succ fuel =>
        rw [insertWalk, if_neg (BitVec.lt_irrefl _), htimer] at hwalk
        cases fuel <;> exact (Prod.mk.inj (Option.some.inj hwalk)).imp Eq.symm Eq.symm
  obtain ⟨rfl, rfl⟩ := hq
  constructor
  · exact hlist
  · rfl
  · show ((Timers.setNext _ t _).timer t).next = some t
    simp [Timers.setNext, Timers.set, linkTimer, Timers.setRemaining]
    exact h.expired
  all_goals simp [pushExpired, linkTimer, Timers.setNext, Timers.setRemaining, Timers.set, reinserting,
    h.type, h.period]

/-- With such a link, the loop of the tick never ends. -/
theorem SelfLinked.expireLoop (h : SelfLinked s t) (walk fuel : Nat) :
    expireLoop walk fuel s = none := by
  induction fuel generalizing s with
  | zero =>
      unfold MiniRTOS.expireLoop
      rw [h.active]
      dsimp only
      rw [if_neg (not_not.mpr h.remaining)]
  | succ fuel ih =>
      unfold MiniRTOS.expireLoop
      rw [h.active]
      dsimp only
      rw [if_neg (not_not.mpr h.remaining)]
      cases hexp : MiniRTOS.expireTimer walk s t with
      | none => rfl
      | some s₁ =>
          rw [Option.bind_eq_bind, Option.bind_some, ih (h.expireTimer hexp)]
          rfl

/-- **Counterexample.** One auto-reload timer of period 1 and two ticks that the service task has not
served: the loop of the next tick does not end. -/
theorem third_tick_hangs :
    ∃ s, Run (fun _ _ => True) (timerStep 8) .zero
        [.create 0x10 1 .autoReload (some 1), .start 0x10, .tick, .tick] s ∧
      ∀ walk f, expireLoop walk f (countDown s.timers) = none := by
  obtain ⟨s, hr, hs⟩ := exists_run_of_exec (fun _ _ => True) (timerStep 8) .zero
    [.create 0x10 1 .autoReload (some 1), .start 0x10, .tick, .tick]
    (fun s => s.timers.activeTimerList = some 0x10 ∧ s.timers.expiredList = some 0x10 ∧
      s.timers.timer 0x10 = ⟨some 1, 1, 1, .autoReload, true, some 0x10⟩)
    (by decide +kernel)
  refine ⟨s, hr, ?_⟩
  obtain ⟨hactive, hexpired, htimer⟩ := hs
  have hloop : SelfLinked (countDown s.timers) 0x10 := by
    have hcount : countDown s.timers
        = s.timers.setRemaining 0x10 ((s.timers.timer 0x10).remaining - 1) := by
      unfold countDown
      rw [hactive]
    rw [hcount]
    constructor
    · exact hactive
    · exact hexpired
    all_goals simp [Timers.setRemaining, Timers.set, htimer]
  intro walk f
  exact hloop.expireLoop walk f

end MiniRTOS
