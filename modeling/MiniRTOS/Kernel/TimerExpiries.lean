import MiniRTOS.Kernel.TimerLists

/-! # One callback per expiry

An expired timer waits in the expired list, and then in the local list of the service task, until its
callback is called. Both lists are linked through the `next` field that the active list uses too. An
expiry is lost, or a callback called twice, when that field is written while the timer waits.

* **`TimerOp.links`** — the timers whose `next` field a call writes.
* **`LeavesQueue`** — no step writes the `next` field of a waiting timer.
* **`Outstanding`** — callbacks and waiting timers add up to the expiries.
* **`expiries_accounted`** — along every run whose steps leave the waiting timers alone. -/

namespace MiniRTOS

open PtrList Runs

variable {s s' : Timers} {t x : TimerId} {E L : List TimerId} {fuel walk : Nat}

/-! ## Which links are written -/

/-- The timers whose `next` field `prv_timer_insert_sorted` writes: the timer and the one before it. -/
def insertLinks (fuel : Nat) (s : Timers) (t : TimerId) : List TimerId :=
  t :: ((insertWalk (s.setNext t none).timer ((s.setNext t none).timer t).remaining fuel none
    s.activeTimerList).bind Prod.fst).toList

/-- The timer whose `next` field `prv_timer_remove_from_active` writes: the one before it. -/
def removeLinks (fuel : Nat) (s : Timers) (t : TimerId) : List TimerId :=
  ((removeWalk s.timer t fuel none s.activeTimerList).bind Option.join).toList

/-- The links that are written when an active timer is removed, and inserted after the writes `f`. -/
def reinsertLinks (fuel : Nat) (s : Timers) (t : TimerId) (f : Timers → Timers) : List TimerId :=
  removeLinks fuel s t ++
    (prvTimerRemoveFromActive fuel s t).elim [] fun s₁ => insertLinks fuel (f s₁) t

/-- The writes of `os_timer_start` before the insertion. -/
def armTimer (t : TimerId) (s : Timers) : Timers :=
  (s.setRemaining t (s.timer t).period).setActive t true

/-- **The timers whose `next` field a call writes.** -/
def TimerOp.links (fuel : Nat) (s : Timers) : TimerOp → List TimerId
  | .create t p _ cb => if cb = none ∨ p = 0 then [] else [t]
  | .delete t | .stop t | .stopFromIsr t => if (s.timer t).active then removeLinks fuel s t else []
  | .start t | .startFromIsr t =>
      if (s.timer t).active then reinsertLinks fuel s t (armTimer t) else insertLinks fuel (armTimer t s) t
  | .reset t | .resetFromIsr t =>
      if (s.timer t).active then reinsertLinks fuel s t fun s => s.setRemaining t (s.timer t).period
      else []
  | .changePeriod t p | .changePeriodFromIsr t p =>
      if p ≠ 0 ∧ (s.timer t).active then
        reinsertLinks fuel (s.setPeriod t p) t fun s => s.setRemaining t p
      else []
  | .tick | .grab | .callNext | .other _ => []

/-- The timers whose `next` field the loop body of `os_timer_tick` writes for the timer at the head. -/
def expireLinks (walk : Nat) (s : Timers) (t : TimerId) : List TimerId :=
  t :: if (s.timer t).type = .autoReload then
      insertLinks walk ((({ s with activeTimerList := (s.timer t).next } : Timers).setRemaining t
        (s.timer t).period).setNext t none) t
    else []

/-- **The loop of `os_timer_tick` writes no link of a waiting timer**, those that it has expired
itself among them. -/
def LoopLeaves (walk : Nat) : Nat → Timers → List TimerId → Prop
  | 0, _, _ => True
  | fuel + 1, s, waiting =>
      ∀ t ∈ s.activeTimerList, (s.timer t).remaining = 0 →
        (∀ x ∈ expireLinks walk s t, x ∉ waiting) ∧
          ∀ s₁ ∈ expireTimer walk s t, LoopLeaves walk fuel s₁ (t :: waiting)

/-- Whether the loop leaves the waiting timers alone can be decided. -/
instance LoopLeaves.decidable (walk : Nat) :
    (fuel : Nat) → (s : Timers) → (waiting : List TimerId) → Decidable (LoopLeaves walk fuel s waiting)
  | 0, _, _ => inferInstanceAs (Decidable True)
  | fuel + 1, s, waiting =>
      have := LoopLeaves.decidable walk fuel
      inferInstanceAs (Decidable (∀ t ∈ s.activeTimerList, _ → (∀ x ∈ expireLinks walk s t, _) ∧
        ∀ s₁ ∈ expireTimer walk s t, LoopLeaves walk fuel s₁ (t :: waiting)))

/-- The links that a step from `s` to `s'` writes are among `W`; it leaves the expired list and the
callbacks alone. -/
structure WritesLinks (s s' : Timers) (W : List TimerId) : Prop where
  /-- The other links stay. -/
  nexts : ∀ x, x ∉ W → s'.nexts x = s.nexts x
  /-- The expired list starts where it did. -/
  expiredList : s'.expiredList = s.expiredList
  /-- The callbacks stay. -/
  callback : ∀ x, (s'.timer x).callback = (s.timer x).callback

namespace WritesLinks

variable {s₁ s₂ s₃ : Timers} {W W₁ W₂ : List TimerId}

/-- Steps follow one another. -/
theorem trans (h₁ : WritesLinks s₁ s₂ W₁) (h₂ : WritesLinks s₂ s₃ W₂) :
    WritesLinks s₁ s₃ (W₁ ++ W₂) where
  nexts x hx := by
    rw [List.mem_append, not_or] at hx
    exact (h₂.nexts x hx.2).trans (h₁.nexts x hx.1)
  expiredList := h₂.expiredList.trans h₁.expiredList
  callback x := (h₂.callback x).trans (h₁.callback x)

/-- Writing no link at all. -/
theorem of_settings (h : SameSettings s s') (hn : s'.nexts = s.nexts) : WritesLinks s s' [] :=
  ⟨fun _ _ => by rw [hn], h.expiredList, h.callback⟩

/-- Writing a difference writes no link. -/
theorem setRemaining (s : Timers) (t : TimerId) (v : BitVec 32) :
    WritesLinks s (s.setRemaining t v) [] :=
  of_settings (.setRemaining ..) (nexts_setRemaining ..)

/-- Writing a link writes that one. -/
theorem setNext (s : Timers) (t : TimerId) (v : Option TimerId) : WritesLinks s (s.setNext t v) [t] where
  nexts x hx := by rw [nexts_setNext, Function.update_of_ne (by simpa using hx)]
  expiredList := rfl
  callback := (SameSettings.setNext ..).callback

/-- Writing the `active` flag writes no link. -/
theorem setActive (s : Timers) (t : TimerId) (v : Bool) : WritesLinks s (s.setActive t v) [] where
  nexts x _ := by rw [nexts_setActive]
  expiredList := rfl
  callback x := by
    simp only [Timers.setActive, Timers.set, Function.update_apply]
    split
    · next hx => rw [hx]
    · rfl

/-- Writing a period writes none, either. -/
theorem setPeriod (s : Timers) (t : TimerId) (v : BitVec 32) : WritesLinks s (s.setPeriod t v) [] where
  nexts x _ := by rw [nexts_setPeriod]
  expiredList := rfl
  callback x := by
    simp only [Timers.setPeriod, Timers.set, Function.update_apply]
    split
    · next hx => rw [hx]
    · rfl

/-- `prv_timer_insert_sorted`, whatever the active list looks like. -/
theorem insert (h : prvTimerInsertSorted fuel s t = some s') : WritesLinks s s' (insertLinks fuel s t) := by
  obtain ⟨⟨prev, iter⟩, hwalk, h⟩ := Option.bind_eq_some_iff.mp h
  obtain rfl := Option.some.inj h
  have hset : SameSettings s (linkTimer (s.setNext t none) t prev iter) :=
    (SameSettings.setNext s t none).trans settings_linkTimer
  refine ⟨fun x hx => ?_, hset.expiredList, hset.callback⟩
  have hlinks : insertLinks fuel s t = t :: prev.toList := by
    have hwalk' : insertWalk (s.setNext t none).timer ((s.setNext t none).timer t).remaining fuel none
        s.activeTimerList = some (prev, iter) := hwalk
    rw [insertLinks, hwalk']
    rfl
  rw [hlinks, List.mem_cons, not_or, Option.mem_toList] at hx
  rw [nexts_linkTimer, if_neg fun hp => hx.2 hp, if_neg hx.1, nexts_setNext, Function.update_of_ne hx.1]

end WritesLinks

/-- The loop of `prv_timer_remove_from_active` does not stop behind the timer it looks for. -/
theorem removeWalk_ne {tm : TimerId → Timer} {prev iter p : Option TimerId} (hprev : prev ≠ some t)
    (h : removeWalk tm t fuel prev iter = some (some p)) : p ≠ some t := by
  induction fuel generalizing prev iter with
  | zero => cases iter <;> cases h
  | succ fuel ih =>
      cases iter with
      | none => cases h
      | some i =>
          rw [removeWalk] at h
          split at h
          · obtain rfl := Option.some.inj (Option.some.inj h)
            exact hprev
          · next hit => exact ih (fun hi => hit (Option.some.inj hi)) h

/-- `prv_timer_remove_from_active`, whatever the active list looks like. -/
theorem WritesLinks.remove (h : prvTimerRemoveFromActive fuel s t = some s') :
    WritesLinks s s' (removeLinks fuel s t) := by
  obtain ⟨r, hwalk, h⟩ := Option.map_eq_some_iff.mp h
  rw [removeLinks, hwalk]
  cases r with
  | none =>
      subst h
      exact ⟨fun _ _ => rfl, rfl, fun _ => rfl⟩
  | some prev =>
      subst h
      have hp := removeWalk_ne (by simp) hwalk
      have hset := settings_unlinkTimer (s := s) hp
      refine ⟨fun x hx => ?_, hset.expiredList, hset.callback⟩
      rw [nexts_unlinkTimer hp, if_neg]
      simpa using hx

/-- A timer that is removed and inserted again. -/
theorem WritesLinks.reinsert {f : Timers → Timers} {s₁ : Timers} (hf : ∀ s, WritesLinks s (f s) [])
    (h₁ : prvTimerRemoveFromActive fuel s t = some s₁)
    (h₂ : prvTimerInsertSorted fuel (f s₁) t = some s') :
    WritesLinks s s' (reinsertLinks fuel s t f) := by
  rw [reinsertLinks, h₁]
  exact (WritesLinks.remove h₁).trans ((hf s₁).trans (.insert h₂))

/-- The writes of `os_timer_start` before the insertion touch no link. -/
theorem WritesLinks.arm (t : TimerId) (s : Timers) : WritesLinks s (armTimer t s) [] :=
  (WritesLinks.setRemaining s t _).trans (.setActive _ t true)

/-- Stopping a timer writes the links of its removal. -/
theorem WritesLinks.stopTimer (h : MiniRTOS.stopTimer fuel s t = some s') :
    WritesLinks s s' (if (s.timer t).active then removeLinks fuel s t else []) := by
  rw [MiniRTOS.stopTimer] at h
  split at h
  · next ha =>
      obtain ⟨s₁, h₁, h⟩ := Option.bind_eq_some_iff.mp h
      obtain rfl := Option.some.inj h
      rw [if_pos ha, ← List.append_nil (removeLinks fuel s t)]
      exact (WritesLinks.remove h₁).trans (.setActive s₁ t false)
  · next ha =>
      obtain rfl := Option.some.inj h
      exact ⟨fun _ _ => rfl, rfl, fun _ => rfl⟩

/-- Starting a timer writes the links of its insertion, and of its removal if it was active. -/
theorem WritesLinks.startTimer (h : MiniRTOS.startTimer fuel s t = some s') :
    WritesLinks s s' (if (s.timer t).active then reinsertLinks fuel s t (armTimer t)
      else insertLinks fuel (armTimer t s) t) := by
  obtain ⟨s₁, h₁, h⟩ := Option.bind_eq_some_iff.mp h
  split at h₁
  · next ha =>
      rw [if_pos ha]
      exact .reinsert (.arm t) h₁ h
  · next ha =>
      obtain rfl := Option.some.inj h₁
      rw [if_neg ha]
      exact (WritesLinks.arm t s).trans (.insert h)

/-- Resetting an active timer writes the links of its removal and insertion. -/
theorem WritesLinks.resetTimer (h : MiniRTOS.resetTimer fuel s t = some s') :
    WritesLinks s s' (if (s.timer t).active then
      reinsertLinks fuel s t fun s => s.setRemaining t (s.timer t).period else []) := by
  rw [MiniRTOS.resetTimer] at h
  split at h
  · next ha =>
      obtain ⟨s₁, h₁, h⟩ := Option.bind_eq_some_iff.mp h
      rw [if_pos ha]
      exact .reinsert (fun s => .setRemaining s t _) h₁ h
  · next ha =>
      obtain rfl := Option.some.inj h
      exact ⟨fun _ _ => rfl, rfl, fun _ => rfl⟩

/-- A period of zero is refused before anything is written. -/
theorem WritesLinks.changePeriodTimer {p : BitVec 32}
    (h : (if p = 0 then some s else MiniRTOS.changePeriodTimer fuel s t p) = some s') :
    WritesLinks s s' (if p ≠ 0 ∧ (s.timer t).active then
      reinsertLinks fuel (s.setPeriod t p) t fun s => s.setRemaining t p else []) := by
  split at h
  · next hp =>
      obtain rfl := Option.some.inj h
      exact ⟨fun _ _ => rfl, rfl, fun _ => rfl⟩
  · next hp =>
      have hactive : ((s.setPeriod t p).timer t).active = (s.timer t).active := active_setPeriod ..
      rw [MiniRTOS.changePeriodTimer] at h
      rw [hactive] at h
      split at h
      · next ha =>
          obtain ⟨s₁, h₁, h⟩ := Option.bind_eq_some_iff.mp h
          rw [if_pos ⟨hp, ha⟩]
          exact (WritesLinks.setPeriod s t p).trans (.reinsert (fun s => .setRemaining s t p) h₁ h)
      · next ha =>
          obtain rfl := Option.some.inj h
          rw [if_neg fun h => ha h.2]
          exact .setPeriod s t p

/-- **The critical section of a call** writes the links that are named for it. -/
theorem writesLinks_body {op : TimerOp} {body : Timers → Option Timers} (hop : op.body fuel = some body)
    (h : body s = some s') : WritesLinks s s' (op.links fuel s) := by
  cases op with
  | delete t | stop t | stopFromIsr t =>
      obtain rfl := Option.some.inj hop
      exact .stopTimer h
  | start t | startFromIsr t =>
      obtain rfl := Option.some.inj hop
      exact .startTimer h
  | reset t | resetFromIsr t =>
      obtain rfl := Option.some.inj hop
      exact .resetTimer h
  | changePeriod t p | changePeriodFromIsr t p =>
      obtain rfl := Option.some.inj hop
      exact .changePeriodTimer h
  | create | tick | grab | callNext | other => cases hop

/-! ## The kernel does not matter -/

/-- Unlinking a timer does not look at the kernel. -/
theorem unlinkTimer_setKernel (s : Timers) (t : TimerId) (prev : Option TimerId) (k : Kernel) :
    unlinkTimer { s with kernel := k } t prev = { unlinkTimer s t prev with kernel := k } := by
  cases prev with
  | none =>
      simp only [unlinkTimer]
      cases (s.timer t).next <;> rfl
  | some p =>
      simp only [unlinkTimer, Timers.setNext, Timers.set]
      split <;> rfl

/-- Nor does removing one. -/
theorem prvTimerRemoveFromActive_setKernel (s : Timers) (t : TimerId) (k : Kernel) :
    prvTimerRemoveFromActive fuel { s with kernel := k } t
      = (prvTimerRemoveFromActive fuel s t).map fun s₁ => { s₁ with kernel := k } := by
  simp only [prvTimerRemoveFromActive]
  cases removeWalk s.timer t fuel none s.activeTimerList with
  | none => rfl
  | some r =>
      cases r with
      | none => rfl
      | some prev => exact congrArg some (unlinkTimer_setKernel s t prev k)

/-- The links do not depend on the kernel. -/
theorem links_setKernel (s : Timers) (op : TimerOp) (k : Kernel) :
    op.links fuel { s with kernel := k } = op.links fuel s := by
  have hre : ∀ (s : Timers) (t : TimerId) (f : Timers → Timers),
      (∀ s : Timers, insertLinks fuel (f { s with kernel := k }) t = insertLinks fuel (f s) t) →
      reinsertLinks fuel { s with kernel := k } t f = reinsertLinks fuel s t f := by
    intro s t f hf
    rw [reinsertLinks, prvTimerRemoveFromActive_setKernel, reinsertLinks]
    cases prvTimerRemoveFromActive fuel s t with
    | none => rfl
    | some s₁ => exact congrArg (removeLinks fuel s t ++ ·) (hf s₁)
  cases op with
  | create | delete | stop | stopFromIsr | tick | grab | callNext | other => rfl
  | start t | startFromIsr t =>
      simp only [TimerOp.links]
      rw [hre s t (armTimer t) fun _ => rfl]
      rfl
  | reset t | resetFromIsr t =>
      simp only [TimerOp.links]
      rw [hre s t (fun s => s.setRemaining t (s.timer t).period) fun _ => rfl]
  | changePeriod t p | changePeriodFromIsr t p =>
      simp only [TimerOp.links]
      have hset : ({ s with kernel := k } : Timers).setPeriod t p
          = { s.setPeriod t p with kernel := k } := rfl
      rw [hset, hre (s.setPeriod t p) t (fun s => s.setRemaining t p) fun _ => rfl]

/-! ## The waiting timers -/

/-- **The waiting timers**: the expired list `E`, and the list `L` that starts at the local pointer `p`
of the service task. -/
structure Waiting (s : Timers) (p : Option TimerId) (E L : List TimerId) : Prop where
  /-- The expired list. -/
  expired : IsList s.nexts s.expiredList E
  /-- What the service task has taken over. -/
  taken : IsList s.nexts p L
  /-- No timer waits twice. -/
  nodup : (E ++ L).Nodup

namespace Waiting

variable {p : Option TimerId} {W : List TimerId}

/-- Writing other links. -/
theorem leave (h : Waiting s p E L) (hw : WritesLinks s s' W) (hW : ∀ x ∈ W, x ∉ E ++ L) :
    Waiting s' p E L := by
  have hsame : ∀ x ∈ E ++ L, s'.nexts x = s.nexts x := fun x hx => hw.nexts x fun hxW => hW x hxW hx
  refine ⟨⟨hw.expiredList.trans h.expired.head, ?_⟩, ⟨h.taken.head, ?_⟩, h.nodup⟩
  · exact h.expired.path.congr fun x hx => hsame x (List.mem_append_left _ hx)
  · exact h.taken.path.congr fun x hx => hsame x (List.mem_append_right _ hx)

/-- A timer that does not wait yet goes on the expired list. -/
theorem push (h : Waiting s p E L) (ht : t ∉ E ++ L) : Waiting (pushExpired s t) p (t :: E) L := by
  have hsame : ∀ x ∈ E ++ L, (pushExpired s t).nexts x = s.nexts x := by
    intro x hx
    rw [nexts_pushExpired, Function.update_of_ne]
    rintro rfl
    exact ht hx
  refine ⟨⟨rfl, ?_, ?_⟩, ⟨h.taken.head, ?_⟩, List.nodup_cons.mpr ⟨ht, h.nodup⟩⟩
  · rw [nexts_pushExpired, Function.update_self, Option.or_none]
    exact h.expired.head
  · exact h.expired.path.congr fun x hx => hsame x (List.mem_append_left _ hx)
  · exact h.taken.path.congr fun x hx => hsame x (List.mem_append_right _ hx)

/-- **The loop body of `os_timer_tick`**: the timer at the head waits now. -/
theorem expireTimer (h : Waiting s p E L) (hW : ∀ x ∈ expireLinks walk s t, x ∉ E ++ L)
    (hs : MiniRTOS.expireTimer walk s t = some s') :
    Waiting s' p (t :: E) L ∧ ∀ x, (s'.timer x).callback = (s.timer x).callback := by
  have ht : t ∉ E ++ L := hW t List.mem_cons_self
  obtain ⟨s₂, h₂, rfl⟩ := Option.map_eq_some_iff.mp hs
  have hpop : WritesLinks s { s with activeTimerList := (s.timer t).next } [] :=
    .of_settings (.setActiveList ..) rfl
  -- what happens before the timer goes on the expired list
  have hbefore : ∃ W, WritesLinks s s₂ W ∧ ∀ x ∈ W, x ∉ E ++ L := by
    rw [expireLinks] at hW
    split at h₂
    · next hauto =>
        rw [if_pos hauto] at hW
        refine ⟨_, ((hpop.trans (.setRemaining _ t _)).trans (.setNext _ t none)).trans (.insert h₂),
          fun x hx => hW x ?_⟩
        simpa using hx
    · obtain rfl := Option.some.inj h₂
      exact ⟨_, hpop.trans (.setActive _ t false), by simp⟩
  obtain ⟨W, hw, hWq⟩ := hbefore
  refine ⟨(h.leave hw hWq).push ht, fun x => ?_⟩
  exact ((SameSettings.setNext s₂ t _).callback x).trans (hw.callback x)

/-- **The loop of `os_timer_tick`**: what it expires waits, in the order of the expired list. -/
theorem expireLoop {ts : List TimerId} (h : Waiting s p E L) (hl : LoopLeaves walk fuel s (E ++ L))
    (hs : MiniRTOS.expireLoop walk fuel s = some (ts, s')) :
    Waiting s' p (ts.reverse ++ E) L ∧ ∀ x, (s'.timer x).callback = (s.timer x).callback := by
  -- The timers found so far are consed in front of `E`; each round moves the head of the list over.
  induction fuel generalizing s E ts with
  | zero =>
      unfold MiniRTOS.expireLoop at hs
      split at hs
      · obtain ⟨rfl, rfl⟩ := Prod.mk.inj (Option.some.inj hs)
        exact ⟨h, fun _ => rfl⟩
      · split at hs
        · obtain ⟨rfl, rfl⟩ := Prod.mk.inj (Option.some.inj hs)
          exact ⟨h, fun _ => rfl⟩
        · cases hs
  | succ fuel ih =>
      unfold MiniRTOS.expireLoop at hs
      split at hs
      · obtain ⟨rfl, rfl⟩ := Prod.mk.inj (Option.some.inj hs)
        exact ⟨h, fun _ => rfl⟩
      · next t hhead =>
          split at hs
          · obtain ⟨rfl, rfl⟩ := Prod.mk.inj (Option.some.inj hs)
            exact ⟨h, fun _ => rfl⟩
          · next hz =>
              obtain ⟨s₁, hexp, hs⟩ := Option.bind_eq_some_iff.mp hs
              obtain ⟨⟨us, s₂⟩, hloop, hs⟩ := Option.bind_eq_some_iff.mp hs
              obtain ⟨rfl, rfl⟩ := Prod.mk.inj (Option.some.inj hs)
              -- `LoopLeaves` speaks of the state each callback leaves, so it passes to the rest of
              -- the loop
              obtain ⟨hlinks, hrest⟩ := hl t hhead (not_not.mp hz)
              obtain ⟨h₁, hcb₁⟩ := h.expireTimer hlinks hexp
              obtain ⟨h₂, hcb₂⟩ := ih h₁ (hrest s₁ hexp) hloop
              refine ⟨?_, fun x => (hcb₂ x).trans (hcb₁ x)⟩
              rw [List.reverse_cons, List.append_assoc]
              exact h₂

end Waiting

/-! ## Whole runs -/

/-- **A step that leaves the waiting timers alone**: it writes no `next` field of a timer in the expired
list or in the list of the service task, other than taking the next timer off that list. -/
def LeavesQueue (fuel : Nat) (s : TimerSys) (op : TimerOp) : Prop :=
  ∀ E, IsList s.timers.nexts s.timers.expiredList E → ∀ L, IsList s.timers.nexts s.list L →
    (∀ x ∈ op.links fuel s.timers, x ∉ E ++ L) ∧
      (op = .tick → LoopLeaves fuel fuel (countDown s.timers) (E ++ L))

/-- The timers have been created and none has been started yet. -/
structure TimerSys.Created (s : TimerSys) : Prop extends s.Init where
  /-- `os_timer_create` accepts no null callback. -/
  callbacks : ∀ t, (s.timers.timer t).callback.isSome

/-- How often `os_timer_tick` has expired a timer. -/
def TimerSys.expiries (s : TimerSys) (t : TimerId) : Nat := s.ticks.flatten.count t

/-- How often the callback of a timer has been called. -/
def TimerSys.callbacks (s : TimerSys) (t : TimerId) : Nat := s.called.count t

/-- **Callbacks and waiting timers add up to the expiries.** -/
structure Outstanding (s : TimerSys) (E L : List TimerId) : Prop
    extends Waiting s.timers s.list E L where
  /-- Every timer has a callback. -/
  made : ∀ t, (s.timers.timer t).callback.isSome
  /-- The sum. -/
  sum : ∀ t, s.callbacks t + L.count t + E.count t = s.expiries t

namespace Outstanding

variable {s s' : TimerSys}

/-- A change that leaves the waiting timers alone. -/
theorem leave {tm : Timers} (h : Outstanding s E L) (hw : Waiting tm s.list E L)
    (hcb : ∀ t, (tm.timer t).callback.isSome) : Outstanding (s.withTimers tm) E L := ⟨hw, hcb, h.sum⟩

/-- The calls on timers. -/
theorem call {op : TimerOp} {body : Timers → Option Timers} (h : Outstanding s E L)
    (hop : op.body fuel = some body) (hg : ∀ x ∈ op.links fuel s.timers, x ∉ E ++ L)
    (hs : timerStep fuel s op = some s') : Outstanding s' E L := by
  obtain ⟨k, k', tm, htm, rfl⟩ := timerStep_body hop hs
  have hw := writesLinks_body hop htm
  rw [links_setKernel] at hw
  have hk : Waiting { s.timers with kernel := k } s.list E L := ⟨h.expired, h.taken, h.nodup⟩
  have hleft := hk.leave hw hg
  refine h.leave ⟨hleft.expired, hleft.taken, hleft.nodup⟩ fun t => ?_
  have hcb : ((tm.timer t).callback) = (s.timers.timer t).callback := hw.callback t
  show (tm.timer t).callback.isSome
  rw [hcb]
  exact h.made t

/-- `os_timer_create`. -/
theorem create {p : BitVec 32} {ty : TimerType} {cb : Option Addr} (h : Outstanding s E L)
    (hg : ∀ x ∈ (TimerOp.create t p ty cb).links fuel s.timers, x ∉ E ++ L) :
    Outstanding (s.withTimers (osTimerCreate s.timers t p ty cb).2) E L := by
  rw [TimerOp.links] at hg
  rw [osTimerCreate]
  split
  · exact h
  · next hvalid =>
      rw [if_neg hvalid] at hg
      rw [not_or] at hvalid
      have hother : ∀ x, x ∉ [t] → (s.timers.set t ⟨cb, p, 0, ty, false, none⟩).nexts x
          = s.timers.nexts x := by
        intro x hx
        simp only [Timers.nexts, Timers.set]
        rw [Function.update_of_ne (by simpa using hx)]
      have hsame : ∀ x ∈ E ++ L, (s.timers.set t ⟨cb, p, 0, ty, false, none⟩).nexts x
          = s.timers.nexts x := fun x hx => hother x fun hxt => hg x hxt hx
      refine h.leave ⟨⟨h.expired.head, ?_⟩, ⟨h.taken.head, ?_⟩, h.nodup⟩ fun x => ?_
      · exact h.expired.path.congr fun x hx => hsame x (List.mem_append_left _ hx)
      · exact h.taken.path.congr fun x hx => hsame x (List.mem_append_right _ hx)
      · simp only [Timers.set, Function.update_apply]
        split
        · exact Option.isSome_iff_ne_none.mpr hvalid.1
        · exact h.made x

/-- `os_timer_tick`: every timer it expires waits afterwards. -/
theorem tick (h : Outstanding s E L) (hg : LoopLeaves fuel fuel (countDown s.timers) (E ++ L))
    (hs : timerStep fuel s .tick = some s') : ∃ E', Outstanding s' E' L := by
  obtain ⟨⟨ts, tm⟩, htm, rfl⟩ := Option.map_eq_some_iff.mp hs
  rcases osTimerTick_cases htm with ⟨-, rfl, rfl⟩ | ⟨s₁, k, -, hloop, rfl⟩
  · refine ⟨E, ⟨h.expired, h.taken, h.nodup⟩, h.made, fun t => ?_⟩
    simp only [TimerSys.expiries, List.flatten_append, List.flatten_cons, List.flatten_nil,
      List.append_nil]
    exact h.sum t
  · have hset := settings_countDown s.timers
    have hw : Waiting (countDown s.timers) s.list E L :=
      h.toWaiting.leave (.of_settings hset (nexts_countDown s.timers)) (by simp)
    obtain ⟨h₁, hcb⟩ := hw.expireLoop hg hloop
    refine ⟨ts.reverse ++ E, ⟨h₁.expired, h₁.taken, h₁.nodup⟩, fun t => ?_, fun t => ?_⟩
    · show (s₁.timer t).callback.isSome
      rw [hcb, hset.callback]
      exact h.made t
    · have hsum := h.sum t
      simp only [TimerSys.expiries, TimerSys.callbacks, List.flatten_append, List.flatten_cons,
        List.flatten_nil, List.append_nil, List.count_append, List.count_reverse] at hsum ⊢
      show s.called.count t + L.count t + (ts.count t + E.count t) = _
      omega

/-- The service task takes over the expired list. -/
theorem grab (h : Outstanding s E L) (hs : timerStep fuel s .grab = some s') :
    Outstanding s' [] E := by
  rw [timerStep] at hs
  split at hs
  · next hnone =>
      obtain rfl := Option.some.inj hs
      obtain rfl : L = [] := by
        rw [← List.head?_eq_none_iff, ← h.taken.head, hnone]
      have hnd := h.nodup
      rw [List.append_nil] at hnd
      refine ⟨⟨⟨rfl, trivial⟩, h.expired, hnd⟩, h.made, fun t => ?_⟩
      exact (Nat.add_right_comm _ _ _).trans (h.sum t)
  · cases hs

/-- The service task calls the next callback. -/
theorem callNext (h : Outstanding s E L) (hs : timerStep fuel s .callNext = some s') :
    ∃ L', Outstanding s' E L' := by
  obtain ⟨t, ht, hs⟩ := Option.bind_eq_some_iff.mp hs
  obtain rfl := Option.some.inj hs
  obtain ⟨L', rfl⟩ : ∃ L', L = t :: L' := List.head?_eq_some_iff.mp (h.taken.head.symm.trans ht)
  have hnd := h.nodup
  rw [List.nodup_middle, List.nodup_cons] at hnd
  have hnext : s.timers.nexts t = L'.head? := by simpa using h.taken.path.1
  have hrest : Waiting s.timers L'.head? E L' := ⟨h.expired, ⟨rfl, h.taken.path.2⟩, hnd.2⟩
  have hw := hrest.leave (.setNext s.timers t none) fun x hx => by
    rw [List.mem_singleton.mp hx]
    exact hnd.1
  refine ⟨L', ⟨hw.expired, ⟨hnext, hw.taken.path⟩, hw.nodup⟩, fun x => ?_, fun x => ?_⟩
  · rw [(SameSettings.setNext s.timers t none).callback]
    exact h.made x
  · have hsum := h.sum x
    simp only [TimerSys.callbacks, TimerSys.expiries, if_pos (h.made t), List.count_append,
      List.count_cons, List.count_nil] at hsum ⊢
    omega

/-- **One step.** -/
theorem step {op : TimerOp} (h : Outstanding s E L) (hg : LeavesQueue fuel s op)
    (hs : timerStep fuel s op = some s') : ∃ E' L', Outstanding s' E' L' := by
  obtain ⟨hlinks, htick⟩ := hg E h.expired L h.taken
  cases hop : op.body fuel with
  | some body => exact ⟨E, L, h.call hop hlinks hs⟩
  | none =>
      cases op with
      | create t p ty cb =>
          obtain rfl := Option.some.inj hs
          exact ⟨E, L, h.create hlinks⟩
      | tick =>
          obtain ⟨E', h'⟩ := h.tick (htick rfl) hs
          exact ⟨E', L, h'⟩
      | grab => exact ⟨[], E, h.grab hs⟩
      | callNext =>
          obtain ⟨L', h'⟩ := h.callNext hs
          exact ⟨E, L', h'⟩
      | other k =>
          obtain rfl := Option.some.inj hs
          exact ⟨E, L, ⟨h.expired, h.taken, h.nodup⟩, h.made, h.sum⟩
      | _ => cases hop

end Outstanding

/-- Nothing waits before the first tick. -/
theorem TimerSys.Created.outstanding {s : TimerSys} (h : s.Created) : Outstanding s [] [] := by
  refine ⟨⟨⟨h.lists.2.1, trivial⟩, ⟨h.lists.2.2, trivial⟩, List.nodup_nil⟩, h.callbacks, fun t => ?_⟩
  simp [TimerSys.callbacks, TimerSys.expiries, h.log.1, h.log.2]

/-- **One callback per expiry.** In every state that a run reaches whose steps leave the waiting timers
alone, the expired list and the list of the service task are well formed, and for every timer the
callbacks and the expiries that wait in these lists add up to its expiries. -/
theorem expiries_accounted {s₀ s : TimerSys} {ops : List TimerOp} (h₀ : s₀.Created)
    (hr : Run (LeavesQueue fuel) (timerStep fuel) s₀ ops s) :
    ∃ E L, IsList s.timers.nexts s.timers.expiredList E ∧ IsList s.timers.nexts s.list L ∧
      ∀ t, s.callbacks t + L.count t + E.count t = s.expiries t := by
  have hinv : ∃ E L, Outstanding s E L := by
    refine hr.invariant (fun s => ∃ E L, Outstanding s E L) ?_ ⟨[], [], h₀.outstanding⟩
    rintro s op s' ⟨E, L, h⟩ hop hs
    exact h.step hop hs
  obtain ⟨E, L, h⟩ := hinv
  exact ⟨E, L, h.expired, h.taken, h.sum⟩

/-- `LeavesQueue` can be checked on lists of at most `n` timers. -/
def leavesQueue (n fuel : Nat) (s : TimerSys) (op : TimerOp) : Bool :=
  (readList s.timers.nexts n s.timers.expiredList).any fun E =>
    (readList s.timers.nexts n s.list).any fun L =>
      decide (∀ x ∈ op.links fuel s.timers, x ∉ E ++ L) &&
        (decide (LoopLeaves fuel fuel (countDown s.timers) (E ++ L)) || !op matches .tick)

/-- The decision procedure is right. -/
theorem leavesQueue_sound {n : Nat} {s : TimerSys} {op : TimerOp} (h : leavesQueue n fuel s op = true) :
    LeavesQueue fuel s op := by
  intro E hE L hL
  obtain ⟨E', hreadE, h⟩ := (Option.any_eq_true _ _).mp h
  obtain ⟨L', hreadL, h⟩ := (Option.any_eq_true _ _).mp h
  rw [hE.unique (isList_of_readList hreadE), hL.unique (isList_of_readList hreadL)]
  rw [Bool.and_eq_true, decide_eq_true_iff] at h
  refine ⟨h.1, ?_⟩
  rintro rfl
  simpa using h.2

/-- Every timer is a one-shot timer of period 1, created and not started. -/
def TimerSys.created : TimerSys :=
  ⟨⟨.zero, fun _ => ⟨some 1, 1, 0, .oneShot, false, none⟩, none, none⟩, none, [], []⟩

/-- Timers that were created and not started are a start. -/
theorem TimerSys.created_created : TimerSys.created.Created :=
  ⟨⟨⟨rfl, rfl, rfl⟩, fun _ => rfl, rfl, rfl⟩, fun _ => rfl⟩

/-- An auto-reload timer and a one-shot timer: both expire before the service task drains the list, and
the auto-reload timer expires again. -/
def mixedTrace : List TimerOp :=
  [.create 0x10 2 .autoReload (some 1), .create 0x20 3 .oneShot (some 1), .start 0x10, .start 0x20,
    .tick, .tick, .tick, .grab, .callNext, .callNext, .tick]

/-- Both timers have been called once, and the auto-reload timer waits for its second call. -/
theorem expiries_accounted_mixedTrace :
    ∃ s, Run (LeavesQueue 8) (timerStep 8) .created mixedTrace s ∧ s.called = [0x20, 0x10] ∧
      ∃ E L, IsList s.timers.nexts s.timers.expiredList E ∧ IsList s.timers.nexts s.list L ∧
        ∀ t, s.callbacks t + L.count t + E.count t = s.expiries t := by
  obtain ⟨s, hr, hcalled⟩ := exists_run_of_exec (fun s op => leavesQueue 8 8 s op = true) (timerStep 8)
    .created mixedTrace (fun s => s.called = [0x20, 0x10]) (by decide +kernel)
  have hr' : Run (LeavesQueue 8) (timerStep 8) .created mixedTrace s :=
    hr.mono fun _ _ => leavesQueue_sound
  exact ⟨s, hr', hcalled, expiries_accounted TimerSys.created_created hr'⟩

/-- **Counterexample.** Two timers expire on the same tick and wait for the service task; the second one
is started again before the drain. Its `next` field becomes the end of the active list, so the first
timer drops out of the expired list, and its callback is never called. -/
theorem restart_loses_expiry :
    ∃ s, Run (fun _ _ => True) (timerStep 8) .created
        [.start 0x10, .start 0x20, .tick, .start 0x20, .grab, .callNext] s ∧
      s.list = none ∧ s.timers.expiredList = none ∧ s.expiries 0x10 = 1 ∧ s.callbacks 0x10 = 0 ∧
      ¬∃ E L, IsList s.timers.nexts s.timers.expiredList E ∧ IsList s.timers.nexts s.list L ∧
        ∀ t, s.callbacks t + L.count t + E.count t = s.expiries t := by
  obtain ⟨s, hr, hlist, hexp, hone, hzero⟩ := exists_run_of_exec (fun _ _ => True) (timerStep 8) .created
    [.start 0x10, .start 0x20, .tick, .start 0x20, .grab, .callNext]
    (fun s => s.list = none ∧ s.timers.expiredList = none ∧ s.expiries 0x10 = 1 ∧ s.callbacks 0x10 = 0)
    (by decide +kernel)
  refine ⟨s, hr, hlist, hexp, hone, hzero, ?_⟩
  rintro ⟨E, L, hE, hL, hsum⟩
  have hnil : E = [] := List.head?_eq_none_iff.mp (hE.head.symm.trans hexp)
  have hnil' : L = [] := List.head?_eq_none_iff.mp (hL.head.symm.trans hlist)
  have := hsum 0x10
  simp [hnil, hnil', hone, hzero] at this

end MiniRTOS
