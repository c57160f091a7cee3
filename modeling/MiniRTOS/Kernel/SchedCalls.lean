import Mathlib.Order.WellFounded
import MiniRTOS.Kernel.TaskCalls

/-! # Scheduling and the tick on layouts

What `os_task_find_highest_ready`, `os_sched_select_next` and `os_task_tick` do to a state that
follows a layout: which task is selected, how the ready list rotates, which delayed tasks become
READY at a tick, and which control blocks are freed. -/

namespace MiniRTOS

open PtrList

variable {k k' : Kernel} {L L' : Layout} {t c : TaskId} {w : WaitList}

/-! ## The highest ready task -/

/-- With all ready lists empty no task is found. -/
theorem osTaskFindHighestReady_none (h : ListsOk k L) (hnil : ∀ p, L (.ready p) = []) :
    osTaskFindHighestReady k = none := by
  have hctz : builtinCtz k.readyBitmap = none := by
    rw [builtinCtz, List.find?_range_eq_none]
    intro i _
    by_cases hi : i < numPriorities
    · have hb := h.bitmap ⟨i, hi⟩
      simpa [hnil] using hb
    · simp [h.bitmapHigh i (by omega)]
  rw [osTaskFindHighestReady, hctz]

/-- **The highest ready task** is the head of the first non-empty ready list. -/
theorem osTaskFindHighestReady_some {p : Prio} {r : List TaskId} (h : ListsOk k L)
    (hp : L (.ready p) = t :: r) (hlow : ∀ q, q < p → L (.ready q) = []) :
    osTaskFindHighestReady k = some t := by
  have hctz : builtinCtz k.readyBitmap = some p.val := by
    rw [builtinCtz, List.find?_range_eq_some]
    refine ⟨(h.bitmap p).mpr (by simp [hp]), List.mem_range.mpr p.lt_width, fun j hj => ?_⟩
    have hb := h.bitmap ⟨j, hj.trans p.isLt⟩
    simpa [hlow ⟨j, hj.trans p.isLt⟩ hj] using hb
  have hhead := h.head (.ready p)
  rw [hp] at hhead
  simp only [osTaskFindHighestReady, hctz, dif_pos p.isLt]
  exact hhead

/-- Either all ready lists are empty, or there is a first non-empty one. -/
theorem ready_cases (L : Layout) :
    (∀ p, L (.ready p) = []) ∨
      ∃ p t r, L (.ready p) = t :: r ∧ ∀ q, q < p → L (.ready q) = [] := by
  by_cases hall : ∀ p, L (.ready p) = []
  · exact Or.inl hall
  · right
    simp only [not_forall] at hall
    obtain ⟨p, hp, hmin⟩ := WellFounded.has_min (wellFounded_lt (α := Prio))
      {p | L (.ready p) ≠ []} hall
    obtain ⟨t, r, htr⟩ := List.exists_cons_of_ne_nil hp
    refine ⟨p, t, r, htr, fun q hq => ?_⟩
    by_contra hne
    exact hmin q hne hq

/-! ## Switching -/

/-- **What a context selection changes.** `n` becomes the RUNNING current task, a RUNNING task that
was current before goes back to READY, and nothing else happens outside the lists. -/
structure Switched (k k' : Kernel) (n : TaskId) : Prop where
  /-- Control blocks differ in state and run time only. -/
  same : ∀ x, k'.tcb x
    = { k.tcb x with state := (k'.tcb x).state, runTimeTicks := (k'.tcb x).runTimeTicks }
  /-- The selected task. -/
  next : (k'.tcb n).state = .running
  /-- The other tasks. -/
  others : ∀ x, x ≠ n → (k'.tcb x).state
    = if k.current = some x ∧ (k.tcb x).state = .running then .ready else (k.tcb x).state
  /-- The rest of the state. -/
  data : k'.data
    = { k with tcb := k'.tcb, current := some n, lastSwitchTick := k.systemTick }.data

/-- Charging the outgoing task changes at most its run time and its state, from RUNNING to READY. -/
theorem chargeCurrent_apply (k : Kernel) (x : TaskId) :
    ∃ r, chargeCurrent k x
      = { k.tcb x with
          state :=
            if k.current = some x ∧ (k.tcb x).state = .running then .ready else (k.tcb x).state
          runTimeTicks := r } := by
  unfold chargeCurrent
  cases hc : k.current with
  | none => exact ⟨(k.tcb x).runTimeTicks, by simp⟩
  | some c =>
      by_cases hx : x = c
      · subst hx
        by_cases hr : (k.tcb x).state = .running
        · exact ⟨((k.tcb x).runTimeTicks + (k.systemTick + 2 ^ 32 - k.lastSwitchTick)) % 2 ^ 32,
            by simp [hr]⟩
        · exact ⟨(k.tcb x).runTimeTicks, by simp [hr]⟩
      · have hne : ¬ some c = some x := fun h => hx (Option.some.inj h).symm
        refine ⟨(k.tcb x).runTimeTicks, ?_⟩
        simp only [hne, false_and, if_false]
        split
        · exact Function.update_of_ne hx _ _
        · rfl

/-- `switchTo` only switches. -/
theorem switchTo_switched (k : Kernel) (n : TaskId) : Switched k (switchTo k n) n := by
  have htcb : ∀ x, (switchTo k n).tcb x
      = if x = n then { chargeCurrent k n with state := .running } else chargeCurrent k x :=
    fun x => Function.update_apply ..
  refine ⟨fun x => ?_, ?_, fun x hx => ?_, rfl⟩
  · obtain ⟨r, hr⟩ := chargeCurrent_apply k x
    rw [htcb]
    split
    · next hx => rw [← hx, hr]
    · rw [hr]
  · rw [htcb, if_pos rfl]
  · obtain ⟨r, hr⟩ := chargeCurrent_apply k x
    rw [htcb, if_neg hx, hr]

/-- Switching to a task of a ready list keeps the invariant and the layout. -/
theorem TaskListInv.switched {n : TaskId} {p : Prio} (h : TaskListInv k L) (hl : ListsOk k' L)
    (hs : Switched k k' n) (hn : n ∈ L (.ready p)) : TaskListInv k' L := by
  have hlive : k'.liveTcbs = k.liveTcbs := by
    have := congrArg Kernel.liveTcbs hs.data
    exact this
  have htable : k'.taskTable = k.taskTable := by
    have := congrArg Kernel.taskTable hs.data
    exact this
  have hnl := h.live _ n hn
  have hnfit := (h.placed n hnl _).mp hn
  have hprio : ∀ x, (k'.tcb x).priority = (k.tcb x).priority := fun x => by rw [hs.same x]
  have hon : ∀ x, (k'.tcb x).blockedOn = (k.tcb x).blockedOn := fun x => by rw [hs.same x]
  have hreason : ∀ x, (k'.tcb x).blockedReason = (k.tcb x).blockedReason :=
    fun x => by rw [hs.same x]
  -- a state changes between READY and RUNNING only
  have hstate : ∀ x, (k'.tcb x).state = (k.tcb x).state ∨
      ((k'.tcb x).state = .ready ∨ (k'.tcb x).state = .running) ∧
        ((k.tcb x).state = .ready ∨ (k.tcb x).state = .running) := by
    intro x
    by_cases hx : x = n
    · subst hx
      exact Or.inr ⟨Or.inr hs.next, hnfit.2⟩
    · rw [hs.others x hx]
      split
      · next hc => exact Or.inr ⟨Or.inl rfl, Or.inr hc.2⟩
      · exact Or.inl rfl
  -- so every task still belongs to the list it is in
  have hfits : ∀ x P, (k'.tcb x).Fits P ↔ (k.tcb x).Fits P := by
    intro x P
    rcases hstate x with he | ⟨h₁, h₂⟩
    · cases P <;> simp only [Tcb.Fits, he, hprio, hon, hreason]
    · rw [Tcb.fits_ready h₁, Tcb.fits_ready h₂, hprio]
  refine ⟨hl, fun P x hx => hlive ▸ h.live P x hx, fun x hx P => ?_, fun x hx => ?_,
    hlive ▸ h.liveNodup, hlive ▸ htable ▸ h.liveCount, htable ▸ h.tableBound⟩
  · rw [hfits]
    exact h.placed x (hlive ▸ hx) P
  · rcases h.coherent x (hlive ▸ hx) with hc | ⟨hc, w, ho, hr⟩
    · exact Or.inl ((hon x).trans hc)
    · right
      refine ⟨?_, w, (hon x).trans ho, (hreason x).trans hr⟩
      rcases hstate x with he | ⟨-, h₂⟩
      · rw [he, hc]
      · simp [hc] at h₂

/-- `switchTo` moves no task between lists. -/
theorem ListsOk.switchTo (h : ListsOk k L) (n : TaskId) : ListsOk (switchTo k n) L :=
  h.congr rfl rfl rfl fun P => by
    cases P with
    | wait w => cases w <;> rfl
    | _ => rfl

/-- The ready list of the selected priority after `os_sched_select_next`: a current task at its head
goes to its tail. -/
def rotated (cur : Option TaskId) (t : TaskId) (r : List TaskId) : List TaskId :=
  if cur = some t then r ++ [t] else t :: r

/-- Rotating a list moves its tasks about. -/
theorem mem_rotated {cur : Option TaskId} {t x : TaskId} {r : List TaskId} :
    x ∈ rotated cur t r ↔ x ∈ t :: r := by
  unfold rotated
  split
  · simp [or_comm]
  · rfl

/-- **Round robin**: the head of a ready list is unlinked and appended to the same list. -/
theorem TaskListInv.rotate {p : Prio} {r : List TaskId} (h : TaskListInv k L)
    (hp : L (.ready p) = t :: r) :
    TaskListInv (osTaskAddToReady (osTaskRemoveFromReady k t) t) (L.set (.ready p) (r ++ [t])) ∧
      (osTaskAddToReady (osTaskRemoveFromReady k t) t).tcb
        = Function.update k.tcb t { k.tcb t with state := .ready } := by
  have hmem : t ∈ L (.ready p) := by simp [hp]
  have hlive := h.live _ t hmem
  have hfit := (h.placed t hlive _).mp hmem
  have hprio : k.prio t = p := hfit.1
  have hb := h.blockedOn_eq_none hlive (by rcases hfit.2 with hs | hs <;> simp [hs])
  have hset : (L.remove (.ready p) t).set (.ready p) (L.remove (.ready p) t (.ready p) ++ [t])
      = L.set (.ready p) (r ++ [t]) := by
    simp only [Layout.remove, Layout.set_self, hp, List.erase_cons_head]
    simp only [Layout.set, Function.update_idem]
  have hrm : ListsOk (osTaskRemoveFromReady k t) (L.remove (.ready p) t) := by
    rw [← hprio]
    exact osTaskRemoveFromReady_lists h.lists (hprio ▸ hmem)
  obtain ⟨h₁, hd₁⟩ := h.toReady (v := k.tcb t) hmem hrm
    (by rw [data_osTaskRemoveFromReady, Kernel.setTcb, Function.update_eq_self]) hb
  have hpv : (k.tcb t).priority = p := hprio
  rw [hpv, hset] at h₁
  exact ⟨h₁, tcb_of_data hd₁⟩

/-- **`os_sched_select_next` picks the head of the first non-empty ready list**, after rotating that
list when the current task heads it; with no ready task it does nothing. -/
theorem TaskListInv.osSchedSelectNext (h : TaskListInv k L) :
    ((∀ p, L (.ready p) = []) ∧ osSchedSelectNext k = k) ∨
      ∃ p t r n, L (.ready p) = t :: r ∧ (∀ q, q < p → L (.ready q) = []) ∧
        (rotated k.current t r).head? = some n ∧
        TaskListInv (osSchedSelectNext k) (L.set (.ready p) (rotated k.current t r)) ∧
        Switched k (MiniRTOS.osSchedSelectNext k) n := by
  rcases ready_cases L with hnil | ⟨p, t, r, hp, hlow⟩
  · refine Or.inl ⟨hnil, ?_⟩
    rw [MiniRTOS.osSchedSelectNext, osTaskFindHighestReady_none h.lists hnil]
  · refine Or.inr ⟨p, t, r, ?_⟩
    have hfind := osTaskFindHighestReady_some h.lists hp hlow
    have hmem : t ∈ L (.ready p) := by simp [hp]
    by_cases hc : k.current = some t
    · have hfit := (h.placed t (h.live _ t hmem) _).mp hmem
      obtain ⟨h₁, htcb₁⟩ := h.rotate hp
      set k₁ := osTaskAddToReady (osTaskRemoveFromReady k t) t with hk₁
      have hcur₁ : k₁.current = some t := hc
      obtain ⟨n, r', hn⟩ : ∃ n r', r ++ [t] = n :: r' :=
        List.exists_cons_of_ne_nil (by simp)
      have hfind₁ : osTaskFindHighestReady k₁ = some n := by
        refine osTaskFindHighestReady_some (p := p) (r := r') h₁.lists ?_ fun q hq => ?_
        · rw [Layout.set_self, hn]
        · rw [Layout.set_of_ne _ _ (by simpa using ne_of_lt hq)]
          exact hlow q hq
      have hsel : MiniRTOS.osSchedSelectNext k = MiniRTOS.switchTo k₁ n := by
        simp only [MiniRTOS.osSchedSelectNext, hfind, hc, if_true, ← hk₁, hfind₁]
      have hsw := switchTo_switched k₁ n
      have hnmem : n ∈ L.set (.ready p) (r ++ [t]) (.ready p) := by
        rw [Layout.set_self, hn]
        simp
      refine ⟨n, hp, hlow, ?_, ?_, ?_⟩
      · rw [rotated, if_pos hc, hn]
        rfl
      · rw [rotated, if_pos hc, hsel]
        exact h₁.switched (h₁.lists.switchTo n) hsw hnmem
      · rw [hsel]
        refine ⟨fun x => ?_, hsw.next, fun x hx => ?_, ?_⟩
        · rw [hsw.same x, htcb₁, Function.update_apply]
          split
          · next hxt => rw [hxt]
          · rfl
        · rw [hsw.others x hx, htcb₁, Function.update_apply, hcur₁]
          by_cases hxt : x = t
          · subst hxt
            rcases hfit.2 with hs | hs <;> simp [hc, hs]
          · simp [hxt, hc, Ne.symm hxt, eq_comm]
        · rw [hsw.data]
          rfl
    · have hsel : MiniRTOS.osSchedSelectNext k = MiniRTOS.switchTo k t := by
        simp only [MiniRTOS.osSchedSelectNext, hfind, if_neg hc]
      have hset : L.set (.ready p) (t :: r) = L := by
        rw [← hp]
        exact Function.update_eq_self ..
      refine ⟨t, hp, hlow, ?_, ?_, ?_⟩
      · rw [rotated, if_neg hc]
        rfl
      · rw [rotated, if_neg hc, hsel, hset]
        exact h.switched (h.lists.switchTo t) (switchTo_switched k t) hmem
      · rw [hsel]
        exact switchTo_switched k t

/-! ## The tick -/

/-- What a tick does to the control block of a task in `blocked_list`. -/
def Tcb.ticked (v : Tcb) : Tcb :=
  if v.delayTicks = 0 then v
  else if v.delayTicks = 1 then { v with delayTicks := 0, state := .ready }
  else { v with delayTicks := v.delayTicks - 1 }

/-- The delay of the task ends at the next tick. -/
def Kernel.expiring (k : Kernel) (x : TaskId) : Bool := (k.tcb x).delayTicks == 1

/-- The delay of a task after the tick. -/
theorem Tcb.delayTicks_ticked (v : Tcb) : v.ticked.delayTicks = v.delayTicks - 1 := by
  unfold Tcb.ticked
  split
  · next h => rw [h]
  · split
    · next h => rw [h]
    · rfl

/-- The state of a task after the tick. -/
theorem Tcb.state_ticked (v : Tcb) :
    v.ticked.state = if v.delayTicks = 1 then .ready else v.state := by
  unfold Tcb.ticked
  split
  · next h => rw [h, if_neg (by decide)]
  · split <;> rfl

/-- The tick writes delay and state. -/
theorem Tcb.ticked_eq (v : Tcb) :
    v.ticked = { v with delayTicks := v.ticked.delayTicks, state := v.ticked.state } := by
  unfold Tcb.ticked
  split
  · rfl
  · split <;> rfl

/-- A delay that ends moves the task to its ready list. -/
theorem tickTask_expiring (h : TaskListInv k L) (ht : t ∈ L .blocked) (he : k.expiring t = true) :
    TaskListInv (tickTask k t)
        ((L.remove .blocked t).set (.ready (k.prio t)) (L (.ready (k.prio t)) ++ [t])) ∧
      (tickTask k t).data = (k.setTcb t (k.tcb t).ticked).data := by
  have hone : (k.tcb t).delayTicks = 1 := by simpa [Kernel.expiring] using he
  have hlive := h.live _ t ht
  have hb : (k.tcb t).blockedOn = none := ((h.placed t hlive .blocked).mp ht).2
  set v : Tcb := { k.tcb t with delayTicks := (k.tcb t).delayTicks - 1 } with hv
  have htick : tickTask k t = osTaskAddToReady (osTaskRemoveFromBlocked (k.setTcb t v) t) t := by
    have htcb : (k.setTcb t v).tcb t = v := Function.update_self ..
    have htcb' : (osTaskRemoveFromBlocked (k.setTcb t v) t).tcb t = v := htcb
    have hz : v.delayTicks = 0 := by simp [hv, hone]
    have hpos : (k.tcb t).delayTicks > 0 := by omega
    have hbv : v.blockedOn = none := hb
    simp only [tickTask, if_pos hpos, ← hv, htcb, hz, if_true, htcb', hbv, Option.isSome_none,
      Bool.false_eq_true, if_false]
  have hready : L.remove .blocked t (.ready (k.prio t)) = L (.ready (k.prio t)) :=
    Layout.set_of_ne _ _ (by simp)
  obtain ⟨h', hd'⟩ := h.toReady (v := v) ht
    (osTaskRemoveFromBlocked_lists (h.lists.setTcb t v) ht) rfl hb
  have hpv : v.priority = k.prio t := rfl
  rw [hpv, hready] at h'
  rw [htick]
  refine ⟨h', hd'.trans ?_⟩
  have hticked : (k.tcb t).ticked = { v with state := .ready } := by
    simp [Tcb.ticked, hone, hv]
  rw [hticked]

/-- A delay that does not end yet leaves the task where it is. -/
theorem tickTask_waiting (h : TaskListInv k L) (he : k.expiring t = false) :
    TaskListInv (tickTask k t) L ∧ (tickTask k t).data = (k.setTcb t (k.tcb t).ticked).data := by
  have hone : (k.tcb t).delayTicks ≠ 1 := by simpa [Kernel.expiring] using he
  by_cases hz : (k.tcb t).delayTicks = 0
  · have htick : tickTask k t = k := by simp [tickTask, hz]
    have hticked : (k.tcb t).ticked = k.tcb t := by simp [Tcb.ticked, hz]
    rw [htick, hticked, Kernel.setTcb, Function.update_eq_self]
    exact ⟨h, rfl⟩
  · have hticked : (k.tcb t).ticked = { k.tcb t with delayTicks := (k.tcb t).delayTicks - 1 } := by
      simp [Tcb.ticked, hz, hone]
    have htick : tickTask k t = k.setTcb t (k.tcb t).ticked := by
      have hpos : (k.tcb t).delayTicks > 0 := by omega
      have hne : ¬ ((k.setTcb t { k.tcb t with delayTicks := (k.tcb t).delayTicks - 1 }).tcb t).delayTicks
          = 0 := by
        show ¬ (Function.update k.tcb t _ t).delayTicks = 0
        rw [Function.update_self]
        show ¬ (k.tcb t).delayTicks - 1 = 0
        omega
      simp only [tickTask, if_pos hpos, if_neg hne, hticked]
    rw [htick]
    refine ⟨h.setTcb (fun P => ?_) fun hc => ?_, rfl⟩
    · rw [hticked]
      cases P <;> rfl
    · rw [hticked]
      exact hc

/-- The layout after the tick has walked over `rest`, the part of `blocked_list` behind `done`. -/
def tickedLayout (k : Kernel) (L : Layout) (done rest : List TaskId) : Layout
  | .ready p => L (.ready p) ++ rest.filter fun x => k.expiring x && decide (k.prio x = p)
  | .blocked => done ++ rest.filter fun x => !k.expiring x
  | .wait w => L (.wait w)
  | .deferred => L .deferred

/-- The control blocks after the tick has walked over `rest`. -/
def tickedTcb (k : Kernel) (rest : List TaskId) : TaskId → Tcb :=
  fun x => if x ∈ rest then (k.tcb x).ticked else k.tcb x

/-- A tick counts down the delays of the blocked tasks. -/
theorem tickedTcb_delayTicks (k : Kernel) (l : List TaskId) (x : TaskId) :
    (tickedTcb k l x).delayTicks
      = if x ∈ l then (k.tcb x).delayTicks - 1 else (k.tcb x).delayTicks := by
  unfold tickedTcb
  split
  · exact Tcb.delayTicks_ticked _
  · rfl

/-- A tick makes those tasks ready whose delay was one. -/
theorem tickedTcb_state (k : Kernel) (l : List TaskId) (x : TaskId) :
    (tickedTcb k l x).state
      = if x ∈ l ∧ (k.tcb x).delayTicks = 1 then .ready else (k.tcb x).state := by
  unfold tickedTcb
  by_cases hx : x ∈ l
  · simp only [hx, true_and]
    exact Tcb.state_ticked _
  · simp only [hx, false_and, if_false]

/-- The control block after a tick, field by field. -/
theorem tickedTcb_eq (k : Kernel) (l : List TaskId) (x : TaskId) :
    tickedTcb k l x = { k.tcb x with
      delayTicks := (tickedTcb k l x).delayTicks, state := (tickedTcb k l x).state } := by
  unfold tickedTcb
  split
  · exact Tcb.ticked_eq _
  · rfl

/-- The layout after the walk only depends on the delays and priorities of the tasks walked over. -/
theorem tickedLayout_congr {k₁ : Kernel} {done rest : List TaskId}
    (h : ∀ x ∈ rest, k₁.expiring x = k.expiring x ∧ k₁.prio x = k.prio x) :
    tickedLayout k₁ L done rest = tickedLayout k L done rest := by
  funext P
  cases P with
  | ready p =>
      refine congrArg (L (.ready p) ++ ·) (List.filter_congr fun x hx => ?_)
      rw [(h x hx).1, (h x hx).2]
  | blocked =>
      refine congrArg (done ++ ·) (List.filter_congr fun x hx => ?_)
      rw [(h x hx).1]
  | wait w => rfl
  | deferred => rfl

/-- Walking over a task whose delay ends. -/
theorem tickedLayout_expiring {done rest : List TaskId} (he : k.expiring t = true) :
    tickedLayout k
        ((L.remove .blocked t).set (.ready (k.prio t)) (L (.ready (k.prio t)) ++ [t])) done rest
      = tickedLayout k L done (t :: rest) := by
  funext P
  cases P with
  | ready p =>
      simp only [tickedLayout, List.filter_cons, he, Bool.true_and]
      by_cases hp : k.prio t = p
      · subst hp
        simp
      · have hne : Place.ready p ≠ .ready (k.prio t) := by
          simpa using fun hh => hp hh.symm
        rw [Layout.set_of_ne _ _ hne, Layout.remove, Layout.set_of_ne _ _ (by simp)]
        simp [hp]
  | blocked =>
      simp only [tickedLayout, List.filter_cons, he, Bool.not_true, Bool.false_eq_true, if_false]
  | wait w =>
      simp only [tickedLayout, Layout.remove]
      rw [Layout.set_of_ne _ _ (by simp), Layout.set_of_ne _ _ (by simp)]
  | deferred =>
      simp only [tickedLayout, Layout.remove]
      rw [Layout.set_of_ne _ _ (by simp), Layout.set_of_ne _ _ (by simp)]

/-- Walking over a task whose delay does not end yet. -/
theorem tickedLayout_waiting {done rest : List TaskId} (he : k.expiring t = false) :
    tickedLayout k L (done ++ [t]) rest = tickedLayout k L done (t :: rest) := by
  funext P
  cases P <;> simp [tickedLayout, he]

/-- **The walk of `os_task_tick` over `blocked_list`** returns; it counts every delay down and moves
exactly the tasks whose delay ends to the tails of their ready lists, in list order. -/
theorem tickWalk_inv {rest : List TaskId} {fuel : Nat} (done : List TaskId) (h : TaskListInv k L)
    (hb : L .blocked = done ++ rest) (hfuel : rest.length ≤ fuel) :
    ∃ k', tickWalk fuel k rest.head? = some k' ∧ TaskListInv k' (tickedLayout k L done rest) ∧
      k'.data = { k with tcb := tickedTcb k rest }.data := by
  induction rest generalizing k L done fuel with
  | nil =>
      refine ⟨k, by cases fuel <;> rfl, ?_, ?_⟩
      · have hlay : tickedLayout k L done [] = L := by
          funext P
          cases P <;> simp [tickedLayout, hb]
        rw [hlay]
        exact h
      · have htcb : tickedTcb k [] = k.tcb := by
          funext x
          simp [tickedTcb]
        rw [htcb]
  | cons t rest ih =>
      obtain ⟨fuel, rfl⟩ : ∃ n, fuel = n + 1 := ⟨fuel - 1, by simp at hfuel; omega⟩
      have hmem : t ∈ L .blocked := by simp [hb]
      have hnd := hb ▸ h.lists.nodup .blocked
      have htr : t ∉ rest := by
        have := (List.nodup_append.mp hnd).2.1
        exact (List.nodup_cons.mp this).1
      have hnext : k.links.next t = rest.head? :=
        (hb ▸ h.lists.seg .blocked (by simp) : k.links.Seg none (done ++ t :: rest) none).at_mid.2
      rw [List.head?_cons, tickWalk, hnext]
      -- whichever way the task goes, the rest of the walk sees the other control blocks unchanged
      have hd₁ : (tickTask k t).data = (k.setTcb t (k.tcb t).ticked).data := by
        by_cases he : k.expiring t = true
        · exact (tickTask_expiring h hmem he).2
        · exact (tickTask_waiting h (by simpa using he)).2
      have htcb : (tickTask k t).tcb = Function.update k.tcb t (k.tcb t).ticked := tcb_of_data hd₁
      have hrest : ∀ x ∈ rest,
          (tickTask k t).expiring x = k.expiring x ∧ (tickTask k t).prio x = k.prio x := by
        intro x hx
        have hxt : x ≠ t := fun hxt => htr (hxt ▸ hx)
        simp [Kernel.expiring, Kernel.prio, htcb, hxt]
      have hticked : tickedTcb (tickTask k t) rest = tickedTcb k (t :: rest) := by
        funext x
        by_cases hx : x = t
        · subst hx
          simp [tickedTcb, htcb, htr]
        · simp [tickedTcb, htcb, hx]
      have hdata : ∀ {k' : Kernel},
          k'.data = { tickTask k t with tcb := tickedTcb (tickTask k t) rest }.data →
          k'.data = { k with tcb := tickedTcb k (t :: rest) }.data := by
        intro k' hd'
        rw [hd', hticked]
        have := congrArg (fun d : Kernel => { d with tcb := tickedTcb k (t :: rest) }) hd₁
        exact this
      by_cases he : k.expiring t = true
      · obtain ⟨h₁, -⟩ := tickTask_expiring h hmem he
        have hb₁ : (L.remove .blocked t).set (.ready (k.prio t)) (L (.ready (k.prio t)) ++ [t])
            .blocked = done ++ rest := by
          have htd : t ∉ done := fun htd => (List.nodup_append.mp hnd).2.2 t htd t (by simp) rfl
          rw [Layout.set_of_ne _ _ (by simp), Layout.remove, Layout.set_self, hb,
            List.erase_append_right _ htd, List.erase_cons_head]
        obtain ⟨k', hk', h', hd'⟩ := ih _ h₁ hb₁ (by simpa using hfuel)
        rw [tickedLayout_congr hrest, tickedLayout_expiring he] at h'
        exact ⟨k', hk', h', hdata hd'⟩
      · have he' : k.expiring t = false := by simpa using he
        obtain ⟨h₁, -⟩ := tickTask_waiting h he'
        have hb₁ : L .blocked = (done ++ [t]) ++ rest := by simp [hb]
        obtain ⟨k', hk', h', hd'⟩ := ih _ h₁ hb₁ (by simpa using hfuel)
        rw [tickedLayout_congr hrest, tickedLayout_waiting he'] at h'
        exact ⟨k', hk', h', hdata hd'⟩

/-! ## Deferred deletion -/

/-- The frees of the deferred-delete loop, in order. -/
def deferredFrees (k : Kernel) (l : List TaskId) : List Addr :=
  l.flatMap fun t => if (k.tcb t).stackBase ≠ idleTaskStack then [(k.tcb t).stackBase, t] else [t]

/-- The tasks that the deferred-delete loop visits. -/
def deferredTasks (k : Kernel) : Nat → Option TaskId → Option (List TaskId)
  | _, none => some []
  | 0, some _ => none
  | fuel + 1, some t => (deferredTasks k fuel (k.links.next t)).map (t :: ·)

/-- The loop visits a list that ends. -/
theorem deferredTasks_eq {l : List TaskId} (fuel : Nat) (hpath : Path k.links.next l none)
    (hfuel : l.length ≤ fuel) : deferredTasks k fuel l.head? = some l := by
  induction l generalizing fuel with
  | nil => cases fuel <;> rfl
  | cons t l ih =>
      obtain ⟨fuel, rfl⟩ : ∃ n, fuel = n + 1 := ⟨fuel - 1, by simp at hfuel; omega⟩
      have hnext : k.links.next t = l.head? := by simpa using hpath.1
      have hlen : l.length ≤ fuel := by simpa using hfuel
      rw [List.head?_cons, deferredTasks, hnext, ih fuel hpath.2 hlen, Option.map_some]

/-- **The deferred-delete loop** frees stack and control block of every task it visits. -/
theorem freeDeferred_eq (k : Kernel) (fuel : Nat) (p : Option TaskId) :
    freeDeferred fuel k p
      = (deferredTasks k fuel p).map fun l =>
          { k with
            freed := k.freed ++ deferredFrees k l
            liveTcbs := k.liveTcbs.diff l } := by
  induction fuel generalizing k p with
  | zero => cases p <;> simp [freeDeferred, deferredTasks, deferredFrees]
  | succ fuel ih =>
      cases p with
      | none => simp [freeDeferred, deferredTasks, deferredFrees]
      | some t =>
          have hcons : ∀ l, deferredFrees k (t :: l)
              = (if (k.tcb t).stackBase ≠ idleTaskStack then [(k.tcb t).stackBase, t] else [t])
                ++ deferredFrees k l := fun l => List.flatMap_cons ..
          -- freeing changes neither the links nor the control blocks
          have htasks : ∀ k' : Kernel, k'.links = k.links → ∀ n p,
              deferredTasks k' n p = deferredTasks k n p := by
            intro k' hlinks n
            induction n with
            | zero => intro p; cases p <;> rfl
            | succ n ihn => intro p; cases p <;> simp [deferredTasks, hlinks, ihn]
          have hfrees : ∀ k' : Kernel, k'.tcb = k.tcb → ∀ l, deferredFrees k' l = deferredFrees k l :=
            fun k' htcb l => by simp only [deferredFrees, htcb]
          rw [freeDeferred, deferredTasks, ih, Option.map_map]
          by_cases hs : (k.tcb t).stackBase ≠ idleTaskStack
          · rw [if_pos hs, htasks (freeTcb (freeStack k (k.tcb t).stackBase) t) rfl]
            congr 1
            funext l
            rw [Function.comp_apply, hcons, if_pos hs,
              hfrees (freeTcb (freeStack k (k.tcb t).stackBase) t) rfl]
            simp [freeTcb, freeStack, List.diff_cons]
          · rw [if_neg hs, htasks (freeTcb k t) rfl]
            congr 1
            funext l
            rw [Function.comp_apply, hcons, if_neg hs, hfrees (freeTcb k t) rfl]
            simp [freeTcb, List.diff_cons]

/-- The stack of the current task has its canary; a damaged one halts the system at the next
tick. -/
def Kernel.canaryIntact (k : Kernel) : Prop :=
  ∀ c, k.current = some c → k.stackMem (k.tcb c).stackBase = stackCanaryValue

/-- The stack high-water update changes at most one field of one control block. -/
theorem updateHighWater_cases (k : Kernel) :
    updateHighWater k = k ∨
      ∃ c n, updateHighWater k = k.setTcb c { k.tcb c with stackHighWater := n } := by
  unfold updateHighWater
  split
  · exact Or.inl rfl
  · next c _ =>
      dsimp only
      split
      · exact Or.inr ⟨c, _, rfl⟩
      · exact Or.inl rfl

/-- Outside the control blocks the high-water update changes nothing. -/
theorem updateHighWater_eq (k : Kernel) :
    (updateHighWater k).data = { k with tcb := (updateHighWater k).tcb }.data ∧
      ∀ x, ∃ n, (updateHighWater k).tcb x = { k.tcb x with stackHighWater := n } := by
  rcases updateHighWater_cases k with he | ⟨c, n, he⟩
  · rw [he]
    exact ⟨rfl, fun x => ⟨(k.tcb x).stackHighWater, rfl⟩⟩
  · rw [he]
    refine ⟨rfl, fun x => ?_⟩
    by_cases hx : x = c
    · subst hx
      exact ⟨n, Function.update_self ..⟩
    · exact ⟨(k.tcb x).stackHighWater, Function.update_of_ne hx _ _⟩

/-- The high-water mark is no part of the invariant. -/
theorem TaskListInv.updateHighWater (h : TaskListInv k L) : TaskListInv (updateHighWater k) L := by
  rcases updateHighWater_cases k with he | ⟨c, n, he⟩
  · rw [he]
    exact h
  · rw [he]
    exact h.setTcb (fun P => by cases P <;> rfl) fun hc => hc

/-- **What a tick changes outside the lists**: the control blocks of delayed tasks, the high-water
mark, and what the deferred deletions free. -/
structure Ticked (k k' : Kernel) (L : Layout) : Prop where
  /-- Control blocks, up to the high-water mark. -/
  tcb : ∀ x, ∃ n, k'.tcb x = { tickedTcb k (L .blocked) x with stackHighWater := n }
  /-- Freed control blocks. -/
  live : k'.liveTcbs = k.liveTcbs.diff (L .deferred)
  /-- The rest of the state. -/
  data : k'.data
    = { k with tcb := k'.tcb, freed := k'.freed, liveTcbs := k'.liveTcbs }.data

/-- The delays after `os_task_tick`. -/
theorem Ticked.delayTicks (h : Ticked k k' L) (x : TaskId) :
    (k'.tcb x).delayTicks
      = if x ∈ L .blocked then (k.tcb x).delayTicks - 1 else (k.tcb x).delayTicks := by
  obtain ⟨n, hn⟩ := h.tcb x
  rw [hn]
  exact tickedTcb_delayTicks ..

/-- The states after `os_task_tick`. -/
theorem Ticked.state (h : Ticked k k' L) (x : TaskId) :
    (k'.tcb x).state
      = if x ∈ L .blocked ∧ (k.tcb x).delayTicks = 1 then .ready else (k.tcb x).state := by
  obtain ⟨n, hn⟩ := h.tcb x
  rw [hn]
  exact tickedTcb_state ..

/-- A tick writes delay, state and high-water mark of a control block. -/
theorem Ticked.fields (h : Ticked k k' L) (x : TaskId) :
    ∃ n, k'.tcb x = { k.tcb x with
      delayTicks := (k'.tcb x).delayTicks, state := (k'.tcb x).state, stackHighWater := n } := by
  obtain ⟨n, hn⟩ := h.tcb x
  refine ⟨n, ?_⟩
  rw [hn]
  conv_lhs => rw [tickedTcb_eq]

/-- What processing the deferred deletions does: it empties the list and frees its tasks. -/
theorem TaskListInv.osTaskProcessDeferredDelete_eq (h : TaskListInv k L) :
    osTaskProcessDeferredDelete k
      = some { osSchedExitCritical { osSchedEnterCritical k with deferredDeleteList := none } with
          freed := k.freed ++ deferredFrees k (L .deferred)
          liveTcbs := k.liveTcbs.diff (L .deferred) } := by
  have hhead := h.lists.head .deferred
  simp only [Kernel.listHead] at hhead
  have htasks := deferredTasks_eq (k := osSchedExitCritical
    { osSchedEnterCritical k with deferredDeleteList := none }) maxTasks h.lists.path
    (h.length_le .deferred)
  have hdel : osTaskProcessDeferredDelete k = freeDeferred maxTasks (osSchedExitCritical
      { osSchedEnterCritical k with deferredDeleteList := none }) (L .deferred).head? := by
    rw [← hhead]
    rfl
  rw [hdel, freeDeferred_eq, htasks]
  rfl

/-- Freeing the deferred tasks keeps the invariant. -/
theorem TaskListInv.osTaskProcessDeferredDelete (h : TaskListInv k L) :
    ∃ k', osTaskProcessDeferredDelete k = some k' ∧ TaskListInv k' (L.set .deferred []) ∧
      k'.liveTcbs = k.liveTcbs.diff (L .deferred) ∧
      k'.data = { k with freed := k'.freed, liveTcbs := k'.liveTcbs }.data := by
  rw [h.osTaskProcessDeferredDelete_eq]
  refine ⟨_, rfl, ?_, rfl, rfl⟩
  have hother : ∀ P, P ≠ .deferred → L.set .deferred [] P = L P :=
    fun P hP => Layout.set_of_ne _ _ hP
  have hsub : ∀ P x, x ∈ L.set .deferred [] P → P ≠ .deferred ∧ x ∈ L P := by
    intro P x hx
    rw [Layout.set_apply] at hx
    split at hx
    · simp at hx
    · next hP => exact ⟨hP, hx⟩
  have hmem : ∀ x, x ∈ k.liveTcbs.diff (L .deferred) ↔ x ∈ k.liveTcbs ∧ x ∉ L .deferred :=
    fun x => List.Nodup.mem_sdiff_iff h.liveNodup
  refine ⟨⟨fun P hP => ?_, ?_, fun P => ?_, fun p => ?_, fun p => ?_, fun p => ?_,
    h.lists.bitmapHigh, fun P => ?_, fun P Q x hx hx' => ?_⟩, fun P x hx => ?_, fun x hx P => ?_,
    fun x hx => ?_, ?_, ?_, h.tableBound⟩
  · rw [hother P hP]
    exact h.lists.seg P hP
  · rw [Layout.set_self]
    trivial
  · by_cases hP : P = .deferred
    · subst hP
      rw [Layout.set_self]
      rfl
    · rw [hother P hP, ← h.lists.head P]
      cases P with
      | deferred => exact absurd rfl hP
      | wait w => cases w <;> rfl
      | _ => rfl
  · rw [hother _ (by simp)]
    exact h.lists.tail p
  · rw [hother _ (by simp)]
    exact h.lists.count p
  · rw [hother _ (by simp)]
    exact h.lists.bitmap p
  · rw [Layout.set_apply]
    split
    · exact List.nodup_nil
    · exact h.lists.nodup P
  · exact h.lists.disjoint P Q x (hsub P x hx).2 (hsub Q x hx').2
  · obtain ⟨hP, hx⟩ := hsub P x hx
    exact (hmem x).mpr ⟨h.live P x hx, h.lists.not_mem_of_ne hP hx⟩
  · obtain ⟨hxl, hxd⟩ := (hmem x).mp hx
    show _ ↔ (k.tcb x).Fits P
    rw [← h.placed x hxl P]
    by_cases hP : P = .deferred
    · subst hP
      simp [hxd]
    · rw [hother P hP]
  · exact h.coherent x ((hmem x).mp hx).1
  · exact List.Nodup.diff h.liveNodup
  · have hlen : (k.liveTcbs.diff (L .deferred)).length ≤ k.liveTcbs.length :=
      (List.diff_sublist _ _).length_le
    exact hlen.trans h.liveCount

/-- The tick walk leaves the current task, the stacks and the stack bounds alone. -/
theorem tickWalk_stacks {k₁ : Kernel} {l : List TaskId}
    (hd : k₁.data = { k with tcb := tickedTcb k l }.data) :
    (updateHighWater k₁).current = k.current ∧ (updateHighWater k₁).stackMem = k.stackMem ∧
      ∀ x, ((updateHighWater k₁).tcb x).stackBase = (k.tcb x).stackBase := by
  obtain ⟨hd₂, htcb₂⟩ := updateHighWater_eq k₁
  have htcb₁ : k₁.tcb = tickedTcb k l := tcb_of_data hd
  refine ⟨?_, ?_, fun x => ?_⟩
  · have h₁ := current_of_data hd
    have h₂ := current_of_data hd₂
    exact h₂.trans h₁
  · have h₁ := congrArg Kernel.stackMem hd
    have h₂ := congrArg Kernel.stackMem hd₂
    exact h₂.trans h₁
  · obtain ⟨n, hn⟩ := htcb₂ x
    rw [hn, htcb₁]
    unfold tickedTcb
    split
    · unfold Tcb.ticked
      split
      · rfl
      · split <;> rfl
    · rfl

/-- **`os_task_tick`** returns while the current task's canary is intact, and keeps the
invariant. -/
theorem TaskListInv.osTaskTick (h : TaskListInv k L) (hcan : k.canaryIntact) :
    ∃ k', osTaskTick k = some k' ∧
      TaskListInv k' ((tickedLayout k L [] (L .blocked)).set .deferred []) ∧ Ticked k k' L := by
  have hhead := h.lists.head .blocked
  simp only [Kernel.listHead] at hhead
  obtain ⟨k₁, hk₁, h₁, hd₁⟩ := tickWalk_inv [] h rfl (h.length_le .blocked)
  have htcb₁ : k₁.tcb = tickedTcb k (L .blocked) := tcb_of_data hd₁
  obtain ⟨hd₂, htcb₂⟩ := updateHighWater_eq k₁
  have h₂ := h₁.updateHighWater
  set k₂ := MiniRTOS.updateHighWater k₁ with hk₂
  have hcheck : osTaskCheckStackOverflow k₂ = some k₂ := by
    obtain ⟨hcur, hmem, hbase⟩ := tickWalk_stacks hd₁
    unfold osTaskCheckStackOverflow
    rw [hcur]
    cases hc : k.current with
    | none => rfl
    | some c =>
        dsimp only
        rw [hbase, hmem, if_pos (hcan c hc)]
  obtain ⟨k₃, hk₃, h₃, hlive₃, hd₃⟩ := h₂.osTaskProcessDeferredDelete
  have hlive : k₂.liveTcbs = k.liveTcbs := by
    have h₁' := liveTcbs_of_data hd₁
    have h₂' := liveTcbs_of_data hd₂
    exact h₂'.trans h₁'
  refine ⟨k₃, ?_, h₃, ⟨fun x => ?_, ?_, ?_⟩⟩
  · rw [MiniRTOS.osTaskTick, hhead, hk₁]
    show (osTaskCheckStackOverflow k₂).bind _ = _
    rw [hcheck]
    exact hk₃
  · have htcb₃ : k₃.tcb = k₂.tcb := (tcb_of_data hd₃ : _)
    obtain ⟨n, hn⟩ := htcb₂ x
    exact ⟨n, by rw [htcb₃, hn, htcb₁]⟩
  · rw [hlive₃, hlive]
    rfl
  · rw [hd₃]
    have e₂ := congrArg
      (fun d : Kernel => { d with tcb := k₃.tcb, freed := k₃.freed, liveTcbs := k₃.liveTcbs }) hd₂
    have e₁ := congrArg
      (fun d : Kernel => { d with tcb := k₃.tcb, freed := k₃.freed, liveTcbs := k₃.liveTcbs }) hd₁
    have htcb₃ : k₃.tcb = k₂.tcb := (tcb_of_data hd₃ : _)
    calc ({ k₂ with freed := k₃.freed, liveTcbs := k₃.liveTcbs } : Kernel).data
        = ({ k₂ with tcb := k₃.tcb, freed := k₃.freed, liveTcbs := k₃.liveTcbs } : Kernel).data := by
          rw [htcb₃]
      _ = ({ k₁ with tcb := k₃.tcb, freed := k₃.freed, liveTcbs := k₃.liveTcbs } : Kernel).data := e₂
      _ = ({ k with tcb := k₃.tcb, freed := k₃.freed, liveTcbs := k₃.liveTcbs } : Kernel).data := e₁

/-- The tasks that `os_task_process_deferred_delete` frees at a tick. -/
def reapedAtTick (k : Kernel) : Option (List TaskId) := do
  let k₁ ← tickWalk maxTasks k k.blockedList
  let k₂ ← osTaskCheckStackOverflow (updateHighWater k₁)
  deferredTasks k₂ maxTasks k₂.deferredDeleteList

/-- **What a tick frees**: the tasks on the deferred list. -/
theorem TaskListInv.osTaskTick_frees {k' : Kernel} (h : TaskListInv k L)
    (hk : MiniRTOS.osTaskTick k = some k') :
    reapedAtTick k = some (L .deferred) ∧ k'.freed = k.freed ++ deferredFrees k (L .deferred) := by
  have hhead := h.lists.head .blocked
  simp only [Kernel.listHead] at hhead
  obtain ⟨k₁, hk₁, h₁, hd₁⟩ := tickWalk_inv [] h rfl (h.length_le .blocked)
  have h₂ := h₁.updateHighWater
  obtain ⟨-, -, hbase⟩ := tickWalk_stacks hd₁
  have hfreed : (MiniRTOS.updateHighWater k₁).freed = k.freed := by
    have e₂ := congrArg Kernel.freed (updateHighWater_eq k₁).1
    have e₁ := congrArg Kernel.freed hd₁
    exact e₂.trans e₁
  rw [MiniRTOS.osTaskTick, hhead, hk₁] at hk
  change (osTaskCheckStackOverflow (MiniRTOS.updateHighWater k₁)).bind _ = _ at hk
  obtain ⟨k₂, hk₂, hk⟩ := Option.bind_eq_some_iff.mp hk
  have hsame : k₂ = MiniRTOS.updateHighWater k₁ := by
    unfold osTaskCheckStackOverflow at hk₂
    split at hk₂
    · exact (Option.some.inj hk₂).symm
    · split at hk₂
      · exact (Option.some.inj hk₂).symm
      · cases hk₂
  subst hsame
  have hdeferred := h₂.lists.head .deferred
  simp only [Kernel.listHead] at hdeferred
  constructor
  · rw [reapedAtTick, hhead, hk₁]
    show (osTaskCheckStackOverflow (MiniRTOS.updateHighWater k₁)).bind _ = _
    rw [hk₂, Option.bind_some, hdeferred]
    exact deferredTasks_eq maxTasks h₂.lists.path (h₂.length_le .deferred)
  · rw [h₂.osTaskProcessDeferredDelete_eq] at hk
    obtain rfl := Option.some.inj hk
    show (MiniRTOS.updateHighWater k₁).freed ++ deferredFrees (MiniRTOS.updateHighWater k₁) (L .deferred)
      = _
    rw [hfreed]
    simp only [deferredFrees, hbase]

/-- A damaged canary halts the system at the tick. -/
theorem TaskListInv.osTaskTick_halts (h : TaskListInv k L) (hcan : ¬ k.canaryIntact) :
    MiniRTOS.osTaskTick k = none := by
  have hhead := h.lists.head .blocked
  simp only [Kernel.listHead] at hhead
  obtain ⟨k₁, hk₁, -, hd₁⟩ := tickWalk_inv [] h rfl (h.length_le .blocked)
  obtain ⟨hcur, hmem, hbase⟩ := tickWalk_stacks hd₁
  simp only [Kernel.canaryIntact, not_forall] at hcan
  obtain ⟨c, hc, hne⟩ := hcan
  have hcheck : osTaskCheckStackOverflow (MiniRTOS.updateHighWater k₁) = none := by
    unfold osTaskCheckStackOverflow
    rw [hcur, hc]
    dsimp only
    rw [hbase, hmem, if_neg hne]
  rw [MiniRTOS.osTaskTick, hhead, hk₁]
  show (osTaskCheckStackOverflow (MiniRTOS.updateHighWater k₁)).bind _ = none
  rw [hcheck]
  rfl

/-- A tick changes no state but BLOCKED to READY. -/
theorem Ticked.state_or_ready (h : Ticked k k' L) (x : TaskId) :
    (k'.tcb x).state = (k.tcb x).state ∨ (k'.tcb x).state = .ready := by
  rw [h.state]
  split
  · exact Or.inr rfl
  · exact Or.inl rfl

/-- **The tick is calm.** -/
theorem TaskListInv.calm_osTaskTick (h : TaskListInv k L) (hcan : k.canaryIntact) :
    ∃ k', MiniRTOS.osTaskTick k = some k' ∧ CalmInv k L k' := by
  obtain ⟨k', hk', h', ht⟩ := h.osTaskTick hcan
  have hmem : ∀ x, x ∈ k'.liveTcbs ↔ x ∈ k.liveTcbs ∧ x ∉ L .deferred := by
    intro x
    rw [ht.live]
    exact List.Nodup.mem_sdiff_iff h.liveNodup
  have hcur : k'.current = k.current := by
    have := congrArg Kernel.current ht.data
    exact this
  have hwait : ∀ w, (tickedLayout k L [] (L .blocked)).set .deferred [] (.wait w) = L (.wait w) := by
    intro w
    rw [Layout.set_wait _ (by simp)]
    rfl
  refine ⟨k', hk', _, h', ⟨fun m => hwait (.mutex m), hcur, fun x hx hs => ⟨?_, ?_⟩, fun x hx hs => ?_,
    fun x hx hs => ?_⟩, fun w => by rw [hwait w]⟩
  · rw [hmem]
    refine ⟨hx, fun hd => ?_⟩
    exact hs ((h.placed x hx .deferred).mp hd)
  · rcases ht.state_or_ready x with he | he
    · exact fun hd => hs (he.symm.trans hd)
    · exact fun hd => by
        have := he.symm.trans hd
        cases this
  · refine ⟨((hmem x).mp hx).1, ?_⟩
    rcases ht.state_or_ready x with he | he
    · exact he.symm.trans hs
    · have := he.symm.trans hs
      cases this
  · obtain ⟨n, hn⟩ := ht.fields x
    rw [hn] at hs
    exact ⟨((hmem x).mp hx).1, hs⟩

end MiniRTOS
