import MiniRTOS.Kernel.SystemInv
import MiniRTOS.Kernel.Waits
import MiniRTOS.Lib.ConsumingPass

/-! # One pass over the waiters of an event group

The setting calls test the waiters in list order. A satisfied waiter is given the bits as they are then
and takes its own with it when it asked for that, so the bits change while the list is walked, and the
walk unlinks the elements it stands on.

* **`Swept`** — the walk is the pass of `ConsumingPass` over the wait list.
* **`BitsSet`** — what a setting call does to bits, waiters and ready lists.
* **`eventBits_set`** — both setting calls do it, whoever waits. -/

namespace MiniRTOS

open Runs ConsumingPass

variable {k k' : Kernel} {L L' : Layout} {t : TaskId} {e : Addr} {b s : BitVec 32}

/-! ## Waiters -/

/-- The bits `b` satisfy the wait of a task. -/
def Kernel.metBy (k : Kernel) (t : TaskId) (b : BitVec 32) : Bool :=
  eventSatisfied b (k.tcb t).eventWaitBits (k.tcb t).eventWaitOptions

/-- The bits that a task takes when it wakes up. -/
def Kernel.takenBy (k : Kernel) (t : TaskId) : BitVec 32 :=
  if (k.tcb t).eventWaitOptions &&& eventClearOnExit ≠ 0 then (k.tcb t).eventWaitBits else 0

/-- What it leaves. -/
def Kernel.leftBy (k : Kernel) (t : TaskId) (b : BitVec 32) : BitVec 32 := b &&& ~~~k.takenBy t

/-- The bits that all tasks of a list take. -/
def Kernel.takenByAll (k : Kernel) (l : List TaskId) : BitVec 32 :=
  l.foldr (fun t m => k.takenBy t ||| m) 0

/-- The control block of a task that a setting call wakes, `b` being the bits of the group. -/
def Tcb.wokenWith (v : Tcb) (b : BitVec 32) : Tcb :=
  { v with
    eventReturnBits := b, blockedOn := none, blockedReason := .none, delayTicks := 0
    timedOut := false, state := .ready }

/-- The tasks that wake up, each with the bits it is given. -/
def Kernel.wakesAt (k : Kernel) (b : BitVec 32) (l : List TaskId) : List (TaskId × BitVec 32) :=
  served k.metBy k.leftBy b l

/-- Only the control blocks of the waiters matter. -/
theorem pass_of_tcb (k k' : Kernel) (l : List TaskId) (h : ∀ t ∈ l, k'.tcb t = k.tcb t)
    (b : BitVec 32) :
    k'.wakesAt b l = k.wakesAt b l ∧
      left k'.metBy k'.leftBy b l = left k.metBy k.leftBy b l ∧
      level k'.metBy k'.leftBy b l = level k.metBy k.leftBy b l := by
  refine pass_congr (fun t ht => ?_) (fun t ht => ?_) b
  · funext c
    unfold Kernel.metBy
    rw [h t ht]
  · funext c
    unfold Kernel.leftBy Kernel.takenBy
    rw [h t ht]

/-! ## Bits -/

/-- A condition looks at the bits waited for only. -/
theorem eventSatisfied_congr {c c' wanted options : BitVec 32} (h : c &&& wanted = c' &&& wanted) :
    eventSatisfied c wanted options = eventSatisfied c' wanted options := by
  unfold eventSatisfied
  rw [h]

/-- **A condition that clearing `m` breaks needs a bit of `m`.** -/
theorem exists_needed {c m wanted options : BitVec 32} (h : eventSatisfied c wanted options = true)
    (h' : eventSatisfied (c &&& ~~~m) wanted options = false) :
    ∃ i : Nat, m.getLsbD i = true ∧ wanted.getLsbD i = true ∧ c.getLsbD i = true := by
  by_contra hno
  have hsame : c &&& wanted = (c &&& ~~~m) &&& wanted := by
    refine BitVec.eq_of_getLsbD_eq fun i hi => ?_
    simp only [BitVec.getLsbD_and, BitVec.getLsbD_not, hi, decide_true, Bool.true_and]
    cases hm : m.getLsbD i with
    | false => simp
    | true =>
        cases hw : wanted.getLsbD i with
        | false => simp
        | true =>
            cases hc : c.getLsbD i with
            | false => simp
            | true => exact absurd ⟨i, hm, hw, hc⟩ hno
  rw [eventSatisfied_congr hsame] at h
  cases h.symm.trans h'

/-- Clearing nothing. -/
theorem and_not_zero (b : BitVec 32) : b &&& ~~~(0 : BitVec 32) = b := by
  refine BitVec.eq_of_getLsbD_eq fun i hi => ?_
  simp only [BitVec.getLsbD_and, BitVec.getLsbD_not, BitVec.ofNat_eq_ofNat, BitVec.getLsbD_zero, hi,
    decide_true, Bool.not_false, Bool.and_true]

/-- Taking bits one task after the other takes those of all of them. -/
theorem foldl_leftBy (l : List TaskId) (b : BitVec 32) :
    l.foldl (fun b t => k.leftBy t b) b = b &&& ~~~k.takenByAll l := by
  induction l generalizing b with
  | nil => exact (and_not_zero b).symm
  | cons t l ih =>
      rw [List.foldl_cons, ih]
      show b &&& ~~~k.takenBy t &&& ~~~k.takenByAll l = b &&& ~~~(k.takenBy t ||| k.takenByAll l)
      rw [BitVec.not_or, BitVec.and_assoc]

/-- Bits are only taken. -/
def BitsWithin (c b : BitVec 32) : Prop := ∀ i : Nat, c.getLsbD i = true → b.getLsbD i = true

/-- A served waiter only takes bits. -/
theorem within_leftBy (t : TaskId) (b : BitVec 32) : BitsWithin (k.leftBy t b) b :=
  fun _ hi => getLsbD_of_clear hi

/-- Bits taken twice are taken. -/
theorem BitsWithin.trans {a c : BitVec 32} (h : BitsWithin a c) (h' : BitsWithin c b) : BitsWithin a b :=
  fun i hi => h' i (h i hi)

/-! ## One waiter -/

/-- What a setting call does with one satisfied waiter. -/
theorem data_wakeWaiter (k : Kernel) (e : Addr) (t : TaskId) :
    (EventGroup.wakeWaiter k e t).data
      = ((k.setEventGroup e
          { k.eventGroups e with bits := k.leftBy t (k.eventGroups e).bits }).setTcb t
            ((k.tcb t).wokenWith (k.eventGroups e).bits)).data := by
  set x : Tcb := { k.tcb t with eventReturnBits := (k.eventGroups e).bits } with hx
  have hself : (k.setTcb t x).tcb t = x := Function.update_self ..
  set k₂ := if x.eventWaitOptions &&& eventClearOnExit ≠ 0 then
      (k.setTcb t x).setEventGroup e
        { k.eventGroups e with bits := (k.eventGroups e).bits &&& ~~~x.eventWaitBits }
    else k.setTcb t x with hk₂
  have hgroup : k₂ = (k.setEventGroup e
      { k.eventGroups e with bits := k.leftBy t (k.eventGroups e).bits }).setTcb t x := by
    rw [hk₂]
    unfold Kernel.leftBy Kernel.takenBy
    by_cases hclear : (k.tcb t).eventWaitOptions &&& eventClearOnExit ≠ 0
    · have hclear' : x.eventWaitOptions &&& eventClearOnExit ≠ 0 := hclear
      rw [if_pos hclear, if_pos hclear']
      rfl
    · have hclear' : ¬ x.eventWaitOptions &&& eventClearOnExit ≠ 0 := hclear
      rw [if_neg hclear, if_neg hclear', and_not_zero]
      unfold Kernel.setEventGroup
      rw [Function.update_eq_self]
  have hwake : EventGroup.wakeWaiter k e t = osTaskAddToReady
      ((unblockTask k₂ (.eventGroup e) t).setTcb t
        { (unblockTask k₂ (.eventGroup e) t).tcb t with delayTicks := 0, timedOut := false }) t := by
    unfold EventGroup.wakeWaiter
    simp only [← hx, hself, ← hk₂]
  have htcb : (unblockTask k₂ (.eventGroup e) t).tcb t
      = { x with blockedOn := none, blockedReason := .none } := by
    rw [tcb_of_data (data_unblockTask k₂ (.eventGroup e) t), hgroup]
    show Function.update _ t _ t = _
    rw [Function.update_self]
    show ({ Function.update k.tcb t x t with blockedOn := none, blockedReason := .none } : Tcb) = _
    rw [Function.update_self]
  have hd := data_unblockTask k₂ (.eventGroup e) t
  rw [hwake, data_osTaskAddToReady, Kernel.tcb_setTcb_self, Kernel.setTcb_setTcb, htcb,
    data_setTcb_congr hd, Kernel.setTcb_setTcb, hgroup, Kernel.setTcb_setTcb]
  rfl

/-- Its control block and the others. -/
theorem tcb_wakeWaiter_self (k : Kernel) (e : Addr) (t : TaskId) :
    (EventGroup.wakeWaiter k e t).tcb t = (k.tcb t).wokenWith (k.eventGroups e).bits := by
  rw [tcb_of_data (data_wakeWaiter k e t)]
  exact Kernel.tcb_setTcb_self ..

/-- Waking one waiter leaves the control blocks of the others. -/
theorem tcb_wakeWaiter_of_ne {x : TaskId} (h : x ≠ t) :
    (EventGroup.wakeWaiter k e t).tcb x = k.tcb x := by
  rw [tcb_of_data (data_wakeWaiter k e t)]
  exact Function.update_of_ne h _ _

/-- The bits it leaves. -/
theorem bits_wakeWaiter (k : Kernel) (e : Addr) (t : TaskId) :
    ((EventGroup.wakeWaiter k e t).eventGroups e).bits = k.leftBy t (k.eventGroups e).bits := by
  have hd := congrArg (fun d : Kernel => (d.eventGroups e).bits) (data_wakeWaiter k e t)
  refine Eq.trans hd ?_
  show (Function.update k.eventGroups e _ e).bits = _
  rw [Function.update_self]

/-- Waking one waiter leaves the bits of the other groups. -/
theorem bits_wakeWaiter_of_ne {x : Addr} (h : x ≠ e) :
    ((EventGroup.wakeWaiter k e t).eventGroups x).bits = (k.eventGroups x).bits := by
  have hd := congrArg (fun d : Kernel => (d.eventGroups x).bits) (data_wakeWaiter k e t)
  refine Eq.trans hd ?_
  show (Function.update k.eventGroups e _ x).bits = _
  rw [Function.update_of_ne h]

/-- Nothing but control blocks and event groups. -/
theorem data_wakeWaiter_rest (k : Kernel) (e : Addr) (t : TaskId) :
    (EventGroup.wakeWaiter k e t).data = { k with
      tcb := (EventGroup.wakeWaiter k e t).tcb
      eventGroups := (EventGroup.wakeWaiter k e t).eventGroups }.data := by
  have hd := congrArg (fun d : Kernel => { d with
    tcb := (EventGroup.wakeWaiter k e t).tcb
    eventGroups := (EventGroup.wakeWaiter k e t).data.eventGroups }) (data_wakeWaiter k e t)
  exact hd

/-- No priority changes. -/
theorem prio_wakeWaiter (k : Kernel) (e : Addr) (t : TaskId) :
    (EventGroup.wakeWaiter k e t).prio = k.prio := by
  funext x
  show ((EventGroup.wakeWaiter k e t).tcb x).priority = (k.tcb x).priority
  by_cases hx : x = t
  · subst hx
    rw [tcb_wakeWaiter_self]
    rfl
  · rw [tcb_wakeWaiter_of_ne hx]

/-! ## The walk -/

/-- The tasks of a list that have one priority. -/
def Kernel.atPrio (k : Kernel) (l : List TaskId) (p : Prio) : List TaskId :=
  l.filter fun x => decide (k.prio x = p)

/-- A satisfied waiter is the first to wake up, and the pass goes on with what it leaves. -/
theorem wakesAt_cons {rest : List TaskId} (hout : t ∉ rest)
    (hsat : k.metBy t (k.eventGroups e).bits = true) :
    k.wakesAt (k.eventGroups e).bits (t :: rest) = (t, (k.eventGroups e).bits) ::
      (EventGroup.wakeWaiter k e t).wakesAt ((EventGroup.wakeWaiter k e t).eventGroups e).bits rest := by
  -- the rest of the pass looks at control blocks that have not changed
  obtain ⟨hwakes, -⟩ := pass_of_tcb k (EventGroup.wakeWaiter k e t) rest
    (fun x hx => tcb_wakeWaiter_of_ne fun hxt => hout (hxt ▸ hx)) (k.leftBy t (k.eventGroups e).bits)
  rw [bits_wakeWaiter, hwakes]
  exact served_cons_pos hsat

/-- **A walk over the waiters `rest`** that finds `done` in front of them. -/
structure Swept (e : Addr) (k k' : Kernel) (L L' : Layout) (done rest : List TaskId) : Prop where
  /-- The task lists. -/
  inv : TaskListInv k' L'
  /-- Those that are not satisfied stay. -/
  waits : L' (.wait (.eventGroup e)) = done ++ left k.metBy k.leftBy (k.eventGroups e).bits rest
  /-- The others go to the tails of the ready lists. -/
  ready : ∀ p, L' (.ready p)
    = L (.ready p) ++ k.atPrio ((k.wakesAt (k.eventGroups e).bits rest).map Prod.fst) p
  /-- The other lists. -/
  others : ∀ P, (∀ p, P ≠ .ready p) → P ≠ .wait (.eventGroup e) → L' P = L P
  /-- The woken tasks. -/
  woken : ∀ q ∈ k.wakesAt (k.eventGroups e).bits rest, k'.tcb q.1 = (k.tcb q.1).wokenWith q.2
  /-- The other tasks. -/
  same : ∀ t, t ∉ (k.wakesAt (k.eventGroups e).bits rest).map Prod.fst → k'.tcb t = k.tcb t
  /-- The bits that are left. -/
  bits : (k'.eventGroups e).bits = level k.metBy k.leftBy (k.eventGroups e).bits rest
  /-- The other groups. -/
  groups : ∀ x, x ≠ e → (k'.eventGroups x).bits = (k.eventGroups x).bits
  /-- Everything else. -/
  data : k'.data = { k with tcb := k'.tcb, eventGroups := k'.eventGroups }.data

/-- The end of the list. -/
theorem Swept.nil {done : List TaskId} (h : TaskListInv k L)
    (hw : L (.wait (.eventGroup e)) = done) : Swept e k k L L done [] := by
  constructor
  case inv => exact h
  case waits =>
    rw [hw]
    exact (List.append_nil _).symm
  case ready =>
    intro p
    exact (List.append_nil _).symm
  case others =>
    intro P _ _
    rfl
  case woken =>
    intro q hq
    cases hq
  case same =>
    intro t _
    rfl
  case bits => rfl
  case groups =>
    intro x _
    rfl
  case data => rfl

/-- A waiter that goes on waiting. -/
theorem Swept.skip {done rest : List TaskId} (hun : k.metBy t (k.eventGroups e).bits = false)
    (h : Swept e k k' L L' (done ++ [t]) rest) : Swept e k k' L L' done (t :: rest) := by
  have hserved : k.wakesAt (k.eventGroups e).bits (t :: rest) = k.wakesAt (k.eventGroups e).bits rest :=
    served_cons_neg hun
  constructor
  case inv => exact h.inv
  case waits =>
    rw [h.waits, left_cons_neg hun, List.append_assoc]
    rfl
  case ready =>
    rw [hserved]
    exact h.ready
  case others => exact h.others
  case woken =>
    rw [hserved]
    exact h.woken
  case same =>
    rw [hserved]
    exact h.same
  case bits =>
    rw [level_cons_neg hun]
    exact h.bits
  case groups => exact h.groups
  case data => exact h.data

/-- A waiter that wakes up. -/
theorem Swept.wake {done rest : List TaskId} (hnd : (t :: rest).Nodup)
    (hsat : k.metBy t (k.eventGroups e).bits = true)
    (h : Swept e (EventGroup.wakeWaiter k e t) k' ((L.remove (.wait (.eventGroup e)) t).set
      (.ready (k.prio t)) (L (.ready (k.prio t)) ++ [t])) L' done rest) :
    Swept e k k' L L' done (t :: rest) := by
  set k₁ := EventGroup.wakeWaiter k e t with hk₁
  have hout : t ∉ rest := (List.nodup_cons.mp hnd).1
  have hbits : (k₁.eventGroups e).bits = k.leftBy t (k.eventGroups e).bits := bits_wakeWaiter k e t
  obtain ⟨-, hleft, hlevel⟩ := pass_of_tcb k k₁ rest
    (fun x hx => tcb_wakeWaiter_of_ne fun hxt => hout (hxt ▸ hx)) (k.leftBy t (k.eventGroups e).bits)
  have hserved : k.wakesAt (k.eventGroups e).bits (t :: rest)
      = (t, (k.eventGroups e).bits) :: k₁.wakesAt (k₁.eventGroups e).bits rest :=
    wakesAt_cons hout hsat
  have hfront : t ∉ (k₁.wakesAt (k₁.eventGroups e).bits rest).map Prod.fst :=
    fun hm => hout (served_sublist.subset hm)
  have hprio : k₁.prio = k.prio := prio_wakeWaiter k e t
  constructor
  case inv => exact h.inv
  case waits => rw [h.waits, left_cons_pos hsat, hbits, hleft]
  case ready =>
    intro p
    rw [h.ready, hserved, List.map_cons]
    unfold Kernel.atPrio
    rw [hprio, List.filter_cons, Layout.set_apply]
    by_cases hp : k.prio t = p
    · subst hp
      simp
    · have hne : Place.ready p ≠ .ready (k.prio t) := by
        intro heq
        exact hp (Place.ready.inj heq).symm
      have hkeep : L.remove (.wait (.eventGroup e)) t (.ready p) = L (.ready p) :=
        Layout.set_of_ne _ _ (by simp)
      simp [hp, hne, hkeep]
  case others =>
    intro P hr hw
    rw [h.others P hr hw, Layout.set_of_ne _ _ (hr _), Layout.remove, Layout.set_of_ne _ _ hw]
  case woken =>
    intro q hq
    rw [hserved] at hq
    rcases List.mem_cons.mp hq with rfl | hq
    · rw [h.same t hfront]
      exact tcb_wakeWaiter_self k e t
    · have hqt : q.1 ≠ t := fun hqt => hfront (hqt ▸ List.mem_map_of_mem hq)
      rw [h.woken q hq, tcb_wakeWaiter_of_ne hqt]
  case same =>
    intro x hx
    rw [hserved, List.map_cons, List.mem_cons, not_or] at hx
    rw [h.same x hx.2, tcb_wakeWaiter_of_ne hx.1]
  case bits => rw [h.bits, level_cons_pos hsat, hbits, hlevel]
  case groups =>
    intro x hx
    rw [h.groups x hx, bits_wakeWaiter_of_ne hx]
  case data =>
    have hd := congrArg (fun d : Kernel => { d with
      tcb := k'.tcb, eventGroups := k'.data.eventGroups }) (data_wakeWaiter_rest k e t)
    exact h.data.trans hd

/-- **The walk is the pass.** -/
theorem EventGroup.wakeWalk_swept {rest : List TaskId} {fuel : Nat} (done woken : List TaskId)
    (h : TaskListInv k L) (hw : L (.wait (.eventGroup e)) = done ++ rest) (hfuel : rest.length ≤ fuel) :
    ∃ k' L', EventGroup.wakeWalk e fuel k woken rest.head?
        = some (k', woken ++ (k.wakesAt (k.eventGroups e).bits rest).map Prod.fst) ∧
      Swept e k k' L L' done rest := by
  induction rest generalizing k L done woken fuel with
  | nil =>
      refine ⟨k, L, ?_, .nil h (hw.trans (List.append_nil _))⟩
      have hnone : k.wakesAt (k.eventGroups e).bits [] = [] := rfl
      rw [hnone, List.map_nil, List.append_nil]
      cases fuel <;> rfl
  | cons t rest ih =>
      obtain ⟨fuel, rfl⟩ : ∃ n, fuel = n + 1 := ⟨fuel - 1, by simp at hfuel; omega⟩
      have hlen : rest.length ≤ fuel := by simpa using hfuel
      have hnd : (t :: rest).Nodup := by
        have hall := h.lists.nodup (.wait (.eventGroup e))
        rw [hw] at hall
        exact (List.nodup_append.mp hall).2.1
      have hcheck : EventGroup.prvCheckCondition k e t = k.metBy t (k.eventGroups e).bits := rfl
      rw [List.head?_cons, EventGroup.wakeWalk, h.next_waiter hw, hcheck]
      cases hsat : k.metBy t (k.eventGroups e).bits with
      | true =>
          obtain ⟨h₁, -⟩ := h.wakeWaiter (e := e) (t := t) (by simp [hw])
          obtain ⟨k', L', hwalk, hswept⟩ := ih done (woken ++ [t]) h₁ (h.waits_without hw) hlen
          refine ⟨k', L', ?_, hswept.wake hnd hsat⟩
          rw [if_pos rfl, hwalk, wakesAt_cons (List.nodup_cons.mp hnd).1 hsat, List.map_cons,
            List.append_assoc]
          rfl
      | false =>
          have hw' : L (.wait (.eventGroup e)) = (done ++ [t]) ++ rest := by
            rw [hw, List.append_assoc]
            rfl
          obtain ⟨k', L', hwalk, hswept⟩ := ih (done ++ [t]) woken h hw' hlen
          refine ⟨k', L', ?_, hswept.skip hsat⟩
          have hserved : k.wakesAt (k.eventGroups e).bits (t :: rest)
              = k.wakesAt (k.eventGroups e).bits rest := served_cons_neg hsat
          rw [if_neg (by simp), hwalk, hserved]

/-! ## The setting calls -/

/-- The task takes its bits when it wakes up. -/
def Kernel.Clears (k : Kernel) (t : TaskId) : Prop :=
  (k.tcb t).eventWaitOptions &&& eventClearOnExit ≠ 0

/-- **Setting the bits `s` of a group**, from the layout `L` to the layout `L'`; `woken` are the tasks
that wake up. -/
structure BitsSet (e : Addr) (s : BitVec 32) (k k' : Kernel) (L L' : Layout) (woken : List TaskId) :
    Prop where
  /-- They are waiters, in list order. -/
  order : woken.Sublist (L (.wait (.eventGroup e)))
  /-- The bits a task is given satisfy it, and are among those set before and now. -/
  given : ∀ t ∈ woken, k.metBy t (k'.tcb t).eventReturnBits = true ∧
    BitsWithin (k'.tcb t).eventReturnBits ((k.eventGroups e).bits ||| s)
  /-- What is left of the bits is what no woken task takes. -/
  bits : (k'.eventGroups e).bits = ((k.eventGroups e).bits ||| s) &&& ~~~k.takenByAll woken
  /-- The other waiters stay, in order. -/
  stay : L' (.wait (.eventGroup e)) = (L (.wait (.eventGroup e))).filter fun t => decide (t ∉ woken)
  /-- No other control block changes. -/
  same : ∀ t, t ∉ woken → k'.tcb t = k.tcb t
  /-- A waiter that the new bits satisfy stays only when a woken task ahead of it took a bit it needs. -/
  denied : ∀ l t r, L (.wait (.eventGroup e)) = l ++ t :: r → t ∉ woken →
    k.metBy t ((k.eventGroups e).bits ||| s) = true →
      ∃ u ∈ woken, u ∈ l ∧ k.Clears u ∧ ∃ i : Nat, (k.tcb u).eventWaitBits.getLsbD i = true ∧
        (k.tcb t).eventWaitBits.getLsbD i = true ∧
        ((k.eventGroups e).bits ||| s).getLsbD i = true
  /-- A woken task is READY, waits for nothing and has not timed out. -/
  ready : ∀ t ∈ woken, k'.tcb t = (k.tcb t).wokenWith (k'.tcb t).eventReturnBits
  /-- It goes to the tail of its ready list, behind those woken before it. -/
  tails : ∀ p, L' (.ready p) = L (.ready p) ++ k.atPrio woken p
  /-- The other lists. -/
  others : ∀ P, (∀ p, P ≠ .ready p) → P ≠ .wait (.eventGroup e) → L' P = L P
  /-- The other groups. -/
  groups : ∀ x, x ≠ e → (k'.eventGroups x).bits = (k.eventGroups x).bits
  /-- Everything else. -/
  rest : k'.data = { k with tcb := k'.tcb, eventGroups := k'.eventGroups }.data

/-- A task that takes nothing leaves the bits as they are. -/
theorem Kernel.leftBy_of_not_clears (h : ¬ k.Clears t) (b : BitVec 32) : k.leftBy t b = b := by
  have h' : ¬ (k.tcb t).eventWaitOptions &&& eventClearOnExit ≠ 0 := h
  unfold Kernel.leftBy Kernel.takenBy
  rw [if_neg h']
  exact and_not_zero b

/-- A task that takes its bits. -/
theorem Kernel.leftBy_of_clears (h : k.Clears t) (b : BitVec 32) :
    k.leftBy t b = b &&& ~~~(k.tcb t).eventWaitBits := by
  have h' : (k.tcb t).eventWaitOptions &&& eventClearOnExit ≠ 0 := h
  unfold Kernel.leftBy Kernel.takenBy
  rw [if_pos h']

/-- **Why a waiter is passed over.** -/
theorem denied_of_left {l : List TaskId} (h : k.metBy t b = true)
    (h' : k.metBy t (level k.metBy k.leftBy b l) = false) :
    ∃ q ∈ k.wakesAt b l, k.Clears q.1 ∧ ∃ i : Nat, (k.tcb q.1).eventWaitBits.getLsbD i = true ∧
      (k.tcb t).eventWaitBits.getLsbD i = true ∧ b.getLsbD i = true := by
  obtain ⟨q, hq, hbefore, hafter⟩ := exists_cause h h'
  have hclears : k.Clears q.1 := by
    by_contra hno
    rw [Kernel.leftBy_of_not_clears hno] at hafter
    cases hbefore.symm.trans hafter
  rw [Kernel.leftBy_of_clears hclears] at hafter
  obtain ⟨i, hu, ht, hi⟩ := exists_needed hbefore hafter
  have hwithin : BitsWithin q.2 b :=
    served_below (r := BitsWithin) (fun _ _ h => h) (fun _ _ _ => BitsWithin.trans) within_leftBy hq
  exact ⟨q, hq, hclears, i, hu, ht, hwithin i hi⟩

/-- The pass over all waiters, read as the claim of the call. -/
theorem Swept.bitsSet {k₀ : Kernel} (hnd : (L (.wait (.eventGroup e))).Nodup)
    (htcb : k.tcb = k₀.tcb) (hb : (k.eventGroups e).bits = (k₀.eventGroups e).bits ||| s)
    (hgroups : ∀ x, x ≠ e → (k.eventGroups x).bits = (k₀.eventGroups x).bits)
    (hdata : k.data = { k₀ with tcb := k.tcb, eventGroups := k.eventGroups }.data)
    (h : Swept e k k' L L' [] (L (.wait (.eventGroup e)))) :
    BitsSet e s k₀ k' L L'
      ((k.wakesAt (k.eventGroups e).bits (L (.wait (.eventGroup e)))).map Prod.fst) := by
  set l := L (.wait (.eventGroup e)) with hl
  have hmet : k.metBy = k₀.metBy := by
    unfold Kernel.metBy
    rw [htcb]
  have htaken : k.takenByAll = k₀.takenByAll := by
    unfold Kernel.takenByAll Kernel.takenBy
    rw [htcb]
  have hgiven : ∀ q ∈ k.wakesAt (k.eventGroups e).bits l, (k'.tcb q.1).eventReturnBits = q.2 := by
    intro q hq
    rw [h.woken q hq]
    rfl
  constructor
  case order => exact served_sublist
  case given =>
    intro t ht
    obtain ⟨q, hq, rfl⟩ := List.mem_map.mp ht
    rw [hgiven q hq, ← hmet, ← hb]
    refine ⟨sat_of_served hq, ?_⟩
    exact served_below (r := BitsWithin) (fun _ _ h => h) (fun _ _ _ => BitsWithin.trans)
      within_leftBy hq
  case bits =>
    rw [h.bits, level_eq_foldl, foldl_leftBy, htaken, hb]
    rfl
  case stay =>
    rw [h.waits, List.nil_append]
    exact left_eq_filter hnd
  case same =>
    intro t ht
    rw [h.same t ht, htcb]
  case denied =>
    intro f t r hsplit hout hsat
    rw [← hb, ← hmet] at hsat
    have hcut : l = f ++ t :: r := hsplit
    have hnd' : (f ++ t :: r).Nodup := hcut ▸ hnd
    -- the waiter stays, so what is left when its turn comes does not satisfy it
    have hleft : t ∈ left k.metBy k.leftBy (k.eventGroups e).bits (f ++ t :: r) := by
      rw [← hcut, left_eq_filter hnd]
      refine List.mem_filter.mpr ⟨?_, by simpa [Kernel.wakesAt] using hout⟩
      rw [hcut]
      exact List.mem_append_right _ (List.mem_cons_self ..)
    obtain ⟨q, hq, hclears, i, hu, ht, hi⟩ := denied_of_left hsat ((mem_left_iff hnd').mp hleft)
    refine ⟨q.1, ?_, served_sublist.subset (List.mem_map_of_mem hq), ?_, i, ?_, ?_, ?_⟩
    · refine List.mem_map_of_mem ?_
      rw [hcut]
      unfold Kernel.wakesAt
      rw [served_append]
      exact List.mem_append_left _ hq
    · unfold Kernel.Clears at hclears ⊢
      rwa [← htcb]
    · rwa [← htcb]
    · rwa [← htcb]
    · rwa [← hb]
  case ready =>
    intro t ht
    obtain ⟨q, hq, rfl⟩ := List.mem_map.mp ht
    rw [hgiven q hq, h.woken q hq, htcb]
  case tails =>
    intro p
    rw [h.ready]
    unfold Kernel.atPrio Kernel.prio
    rw [htcb]
  case others => exact h.others
  case groups =>
    intro x hx
    rw [h.groups x hx, hgroups x hx]
  case rest =>
    have hd := congrArg (fun d : Kernel => { d with
      tcb := k'.tcb, eventGroups := k'.data.eventGroups }) hdata
    exact h.data.trans hd

/-- **The call did so**, and the task lists are well formed. -/
def SetsBits (e : Addr) (s : BitVec 32) (k : Kernel) (L : Layout) (k' : Kernel) : Prop :=
  ∃ L' woken, TaskListInv k' L' ∧ BitsSet e s k k' L L' woken

/-- The state `k'` is `k` but for critical sections and switch requests. -/
structure Settles (k k' : Kernel) : Prop where
  /-- Control blocks. -/
  tcb : k'.tcb = k.tcb
  /-- Event groups. -/
  eventGroups : k'.eventGroups = k.eventGroups
  /-- Everything but the lists. -/
  data : k'.data = k.data
  /-- The lists. -/
  lists : ∀ L, TaskListInv k L → TaskListInv k' L

/-- The end of the critical section. -/
theorem settles_exit (k : Kernel) : Settles k (osSchedExitCritical k) :=
  ⟨rfl, rfl, rfl, fun _ h => h.exitCritical⟩

/-- A request to switch behind a critical section settles. -/
theorem settles_exit_yield (k : Kernel) : Settles k (osSchedYield (osSchedExitCritical k)) :=
  ⟨rfl, rfl, rfl, fun _ h => h.exitCritical.yield⟩

/-- So does one from an interrupt. -/
theorem settles_exit_request (k : Kernel) :
    Settles k (osSchedRequestSwitchFromIsr (osSchedExitCritical k)) :=
  ⟨rfl, rfl, rfl, fun _ h => h.exitCritical.requestSwitch⟩

/-- `os_eventgroup_set_bits` is its critical section. -/
theorem osEventgroupSetBits_settles {k₁ : Kernel} {woken : List TaskId} {c : TaskId}
    (hset : EventGroup.setAndWake (osSchedEnterCritical k) e s = some (k₁, woken))
    (hc : k₁.current = some c) :
    ∃ k', osEventgroupSetBits k e s = some (k', .ok) ∧ Settles k₁ k' := by
  have hcur : (osSchedExitCritical k₁).current = some c := hc
  unfold osEventgroupSetBits
  rw [hset]
  dsimp only [Option.bind_eq_bind, Option.bind_some]
  split
  · exact ⟨_, rfl, settles_exit k₁⟩
  · rw [hcur, Option.bind_some]
    split
    · exact ⟨_, rfl, settles_exit_yield k₁⟩
    · exact ⟨_, rfl, settles_exit k₁⟩

/-- So is its variant for handlers. -/
theorem osEventgroupSetBitsFromIsr_settles {k₁ : Kernel} {woken : List TaskId}
    (hset : EventGroup.setAndWake (osSchedEnterCritical k) e s = some (k₁, woken)) :
    ∃ k', osEventgroupSetBitsFromIsr k e s = some (k', .ok) ∧ Settles k₁ k' := by
  unfold osEventgroupSetBitsFromIsr
  rw [hset]
  dsimp only [Option.bind_eq_bind, Option.bind_some]
  split
  · exact ⟨_, rfl, settles_exit k₁⟩
  · exact ⟨_, rfl, settles_exit_request k₁⟩

/-- What settles does what its critical section does. -/
theorem BitsSet.settled {k₁ : Kernel} {woken : List TaskId} (h : BitsSet e s k k₁ L L' woken)
    (hset : Settles k₁ k') : BitsSet e s k k' L L' woken := by
  constructor
  case order => exact h.order
  case given =>
    rw [hset.tcb]
    exact h.given
  case bits =>
    rw [hset.eventGroups]
    exact h.bits
  case stay => exact h.stay
  case same =>
    rw [hset.tcb]
    exact h.same
  case denied => exact h.denied
  case ready =>
    rw [hset.tcb]
    exact h.ready
  case tails => exact h.tails
  case others => exact h.others
  case groups =>
    rw [hset.eventGroups]
    exact h.groups
  case rest =>
    rw [hset.data, hset.tcb, hset.eventGroups]
    exact h.rest

/-- The group after its bits were set. -/
def Kernel.withBits (k : Kernel) (e : Addr) (b : BitVec 32) : Kernel :=
  k.setEventGroup e { k.eventGroups e with bits := b }

/-- The bits of the group as they were written. -/
theorem bits_withBits (k : Kernel) (e : Addr) (b : BitVec 32) :
    ((k.withBits e b).eventGroups e).bits = b := by
  show (Function.update k.eventGroups e _ e).bits = _
  rw [Function.update_self]

/-- **The critical section of the setting calls** is the pass over all waiters. -/
theorem TaskListInv.setAndWake (h : TaskListInv k L) (e : Addr) (s : BitVec 32) :
    ∃ k' L', EventGroup.setAndWake (osSchedEnterCritical k) e s = some (k',
        (k.wakesAt ((k.eventGroups e).bits ||| s) (L (.wait (.eventGroup e)))).map Prod.fst) ∧
      Swept e ((osSchedEnterCritical k).withBits e ((k.eventGroups e).bits ||| s)) k' L L' []
        (L (.wait (.eventGroup e))) := by
  set k₁ := (osSchedEnterCritical k).withBits e ((k.eventGroups e).bits ||| s) with hk₁
  have h₁ : TaskListInv k₁ L := h.enterCritical.setEventBits _
  have hb : (k₁.eventGroups e).bits = (k.eventGroups e).bits ||| s := bits_withBits ..
  obtain ⟨k', L', hwalk, hswept⟩ := EventGroup.wakeWalk_swept (e := e) [] [] h₁ rfl (h₁.length_le _)
  have hhead : (k₁.eventGroups e).waitList = (L (.wait (.eventGroup e))).head? :=
    h₁.lists.head (.wait (.eventGroup e))
  refine ⟨k', L', ?_, hswept⟩
  obtain ⟨hwakes, -⟩ := pass_of_tcb k k₁ (L (.wait (.eventGroup e)))
    (fun _ _ => rfl) ((k.eventGroups e).bits ||| s)
  show EventGroup.wakeWalk e maxTasks k₁ [] (k₁.eventGroups e).waitList = _
  rw [hhead, hwalk, List.nil_append, hb, hwakes]

/-- What the critical section does. -/
theorem TaskListInv.bitsSet (h : TaskListInv k L)
    (hswept : Swept e ((osSchedEnterCritical k).withBits e ((k.eventGroups e).bits ||| s)) k' L L' []
      (L (.wait (.eventGroup e)))) :
    BitsSet e s k k' L L'
      ((k.wakesAt ((k.eventGroups e).bits ||| s) (L (.wait (.eventGroup e)))).map Prod.fst) := by
  set k₁ := (osSchedEnterCritical k).withBits e ((k.eventGroups e).bits ||| s) with hk₁
  have hb : (k₁.eventGroups e).bits = (k.eventGroups e).bits ||| s := bits_withBits ..
  have hothers : ∀ x, x ≠ e → (k₁.eventGroups x).bits = (k.eventGroups x).bits := by
    intro x hx
    show (Function.update k.eventGroups e _ x).bits = _
    rw [Function.update_of_ne hx]
  have hset : BitsSet e s k k' L L'
      ((k₁.wakesAt (k₁.eventGroups e).bits (L (.wait (.eventGroup e)))).map Prod.fst) :=
    hswept.bitsSet (h.lists.nodup _) rfl hb hothers rfl
  rw [hb] at hset
  exact hset

/-- The current task stays. -/
theorem Swept.current {done rest : List TaskId} (h : Swept e k k' L L' done rest) :
    k'.current = k.current := by
  have hd := current_of_data h.data
  exact hd

/-- **Setting event bits.** In every state with well-formed task lists, whoever waits and for whatever,
`os_eventgroup_set_bits` called by a task, and its variant for handlers, return and do to bits, waiters
and ready lists what `BitsSet` says. -/
theorem eventBits_set (h : TaskListInv k L) (e : Addr) (s : BitVec 32) :
    (∀ c, k.current = some c →
        ∃ k', osEventgroupSetBits k e s = some (k', .ok) ∧ SetsBits e s k L k') ∧
      ∃ k', osEventgroupSetBitsFromIsr k e s = some (k', .ok) ∧ SetsBits e s k L k' := by
  obtain ⟨k₁, L', hset, hswept⟩ := h.setAndWake e s
  have hbits := h.bitsSet hswept
  constructor
  · intro c hc
    obtain ⟨k', hk', hsettles⟩ := osEventgroupSetBits_settles hset (hswept.current.trans hc)
    exact ⟨k', hk', L', _, hsettles.lists L' hswept.inv, hbits.settled hsettles⟩
  · obtain ⟨k', hk', hsettles⟩ := osEventgroupSetBitsFromIsr_settles hset
    exact ⟨k', hk', L', _, hsettles.lists L' hswept.inv, hbits.settled hsettles⟩

/-- Three tasks wait for bit 0, for bits 0 and 1, and for bit 1. -/
def threeWaitersTrace : List Op :=
  [.create (taskAt 0x100 2), .create (taskAt 0x200 3), .create (taskAt 0x300 4),
    .create (taskAt 0x400 9), .eventCreate 0x20, .selectNext, .eventWait 0x20 1 eventClearOnExit 10,
    .selectNext, .eventWait 0x20 3 eventWaitAll 10, .selectNext, .eventWait 0x20 2 0 10, .selectNext]

/-- The first waiter takes the bit that the second one needs. -/
theorem eventBits_set_threeWaiters :
    ∃ s L, Run WithoutMutexes step .boot threeWaitersTrace s ∧
      s.kernel.waitHead (.eventGroup 0x20) = some 0x100 ∧
      ∃ k', osEventgroupSetBitsFromIsr s.kernel 0x20 3 = some (k', .ok) ∧
        SetsBits 0x20 3 s.kernel L k' := by
  obtain ⟨s, hr, hhead⟩ := exists_run_of_exec WithoutMutexes step Sys.boot threeWaitersTrace
    (fun s => s.kernel.waitHead (.eventGroup 0x20) = some 0x100) (by decide +kernel)
  obtain ⟨L, h⟩ := taskListInv_of_run Sys.boot_init hr
  exact ⟨s, L, hr, hhead, (eventBits_set h 0x20 3).2⟩

end MiniRTOS
