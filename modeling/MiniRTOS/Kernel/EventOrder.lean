import MiniRTOS.Kernel.EventPass
import MiniRTOS.Kernel.WaitOrder

/-! # Waiting before or after the event

A task that calls `os_eventgroup_wait_bits` when its bits are set already goes through a test and a
clearing of its own, apart from those in the setting calls. A task that no other waiter has to yield to
stands last in the wait list, so it meets the bits that the pass over the others leaves, and these are
also the bits it would have found by calling later.

* **`WaitThenSet`, `SetThenWait`** — the two orders, with anything in between that leaves the group and
  its waiters alone.
* **`event_before_or_after`** — they end alike. -/

namespace MiniRTOS

open Runs ConsumingPass

variable {k k' k₁ k₂ : Kernel} {L : Layout} {t w : TaskId} {e : Addr} {s mask options : BitVec 32}
  {n : Nat}

/-! ## The two orders -/

/-- Who sets the bits. -/
inductive Setter
  | task | isr

/-- The setting call. -/
def Setter.set : Setter → Kernel → Addr → BitVec 32 → Option Kernel
  | .task, k, e, s => (osEventgroupSetBits k e s).map Prod.fst
  | .isr, k, e, s => (osEventgroupSetBitsFromIsr k e s).map Prod.fst

/-- Two states of a control block in which the task waits for the same at the same priority. -/
def Tcb.SameWait (v v' : Tcb) : Prop :=
  v'.priority = v.priority ∧ v'.eventWaitBits = v.eventWaitBits ∧
    v'.eventWaitOptions = v.eventWaitOptions

/-- **What can happen between two calls**: context switches and calls on other objects, say, as long as
the group, its waiters and the task `w` are left alone. -/
structure Between (e : Addr) (w : TaskId) (k k' : Kernel) : Prop where
  /-- The task lists are well formed. -/
  lists : ∃ L, TaskListInv k' L
  /-- The bits. -/
  bits : (k'.eventGroups e).bits = (k.eventGroups e).bits
  /-- The waiters. -/
  waiters : k'.waiters (.eventGroup e) = k.waiters (.eventGroup e)
  /-- What they wait for. -/
  waits : ∀ t, t ∈ k.waiters (.eventGroup e) ∨ t = w → (k.tcb t).SameWait (k'.tcb t)

/-- The task can make a call. -/
structure Kernel.Calling (k : Kernel) (w : TaskId) : Prop where
  /-- It is current. -/
  current : k.current = some w
  /-- It is live. -/
  live : w ∈ k.liveTcbs
  /-- It can run. -/
  state : (k.tcb w).state = .ready ∨ (k.tcb w).state = .running

/-- **The task waits first**, and then the bits are set. -/
def WaitThenSet (e : Addr) (w : TaskId) (mask options : BitVec 32) (n : Nat) (s : BitVec 32)
    (k k' : Kernel) : Prop :=
  ∃ k₁ k₂ setter, osEventgroupWaitBits k e mask options n = some (k₁, .blocked) ∧
    Between e w k₁ k₂ ∧ Setter.set setter k₂ e s = some k'

/-- **The bits are set first**, and then the task makes its call, with the outcome `r`. -/
def SetThenWait (e : Addr) (w : TaskId) (mask options : BitVec 32) (n : Nat) (s : BitVec 32)
    (k k' : Kernel) (r : Outcome (BitVec 32)) : Prop :=
  ∃ k₀ k₁ k₂ setter, Between e w k k₀ ∧ Setter.set setter k₀ e s = some k₁ ∧ Between e w k₁ k₂ ∧
    k₂.Calling w ∧ osEventgroupWaitBits k₂ e mask options n = some (k', r)

/-- **The same end**: `kA` after waiting first, `kB` after setting first, where the call of `w` had the
outcome `r`. -/
structure SameEnd (e : Addr) (w : TaskId) (kA kB : Kernel) (r : Outcome (BitVec 32)) : Prop where
  /-- The bits. -/
  bits : (kA.eventGroups e).bits = (kB.eventGroups e).bits
  /-- The waiters, in order. -/
  waiters : kA.waiters (.eventGroup e) = kB.waiters (.eventGroup e)
  /-- The task waits in both. -/
  waiting : r = .blocked → w ∈ kA.waiters (.eventGroup e) ∧ (kA.tcb w).state = .blocked ∧
    (kB.tcb w).state = .blocked
  /-- Or it is satisfied in both, and gets the same bits. -/
  satisfied : ∀ b, r = .done b → w ∉ kA.waiters (.eventGroup e) ∧ (kA.tcb w).state = .ready ∧
    osEventgroupWaitBitsResume kA w = b

/-! ## Setting -/

/-- **The group after a setting call**, by the pass over its waiters. -/
structure GroupAfter (e : Addr) (s : BitVec 32) (k k' : Kernel) : Prop where
  /-- The task lists. -/
  lists : ∃ L, TaskListInv k' L
  /-- The bits. -/
  bits : (k'.eventGroups e).bits
    = level k.metBy k.leftBy ((k.eventGroups e).bits ||| s) (k.waiters (.eventGroup e))
  /-- The waiters. -/
  waiters : k'.waiters (.eventGroup e)
    = left k.metBy k.leftBy ((k.eventGroups e).bits ||| s) (k.waiters (.eventGroup e))
  /-- The woken tasks. -/
  woken : ∀ q ∈ k.wakesAt ((k.eventGroups e).bits ||| s) (k.waiters (.eventGroup e)),
    k'.tcb q.1 = (k.tcb q.1).wokenWith q.2
  /-- The other tasks. -/
  same : ∀ t, t ∉ (k.wakesAt ((k.eventGroups e).bits ||| s) (k.waiters (.eventGroup e))).map Prod.fst →
    k'.tcb t = k.tcb t

/-- The end of `os_eventgroup_set_bits`. -/
theorem settles_of_set {woken : List TaskId} {r : Kernel × Status}
    (hset : EventGroup.setAndWake (osSchedEnterCritical k) e s = some (k₁, woken))
    (h : osEventgroupSetBits k e s = some r) : Settles k₁ r.1 := by
  unfold osEventgroupSetBits at h
  rw [hset] at h
  dsimp only [Option.bind_eq_bind, Option.bind_some] at h
  split at h
  · obtain rfl := Option.some.inj h
    exact settles_exit k₁
  · obtain ⟨c, -, h⟩ := Option.bind_eq_some_iff.mp h
    obtain rfl := Option.some.inj h
    dsimp only
    split
    · exact settles_exit_yield k₁
    · exact settles_exit k₁

/-- What a setter does settles what the critical section did. -/
theorem Setter.set_settles {setter : Setter} {woken : List TaskId}
    (hset : EventGroup.setAndWake (osSchedEnterCritical k) e s = some (k₁, woken))
    (h : setter.set k e s = some k') : Settles k₁ k' := by
  cases setter with
  | task =>
      obtain ⟨r, hr, rfl⟩ := Option.map_eq_some_iff.mp h
      exact settles_of_set hset hr
  | isr =>
      obtain ⟨k'', hk'', hsettles⟩ := osEventgroupSetBitsFromIsr_settles hset
      rw [Setter.set, hk''] at h
      obtain rfl := Option.some.inj h
      exact hsettles

/-- **Every setting call runs the pass.** -/
theorem Setter.groupAfter {setter : Setter} (h : TaskListInv k L) (hs : setter.set k e s = some k') :
    GroupAfter e s k k' := by
  obtain ⟨k₁, L', hset, hswept⟩ := h.setAndWake e s
  have hsettles := set_settles hset hs
  have hb : (((osSchedEnterCritical k).withBits e ((k.eventGroups e).bits ||| s)).eventGroups e).bits
      = (k.eventGroups e).bits ||| s := bits_withBits ..
  have h' := hsettles.lists L' hswept.inv
  have hwaits := hswept.waits
  have hbits := hswept.bits
  have hwoken := hswept.woken
  have hsame := hswept.same
  rw [hb] at hwaits hbits hwoken hsame
  constructor
  case lists => exact ⟨L', h'⟩
  case bits =>
    rw [hsettles.eventGroups, hbits, h.waiters_eq]
    rfl
  case waiters =>
    rw [h'.waiters_eq, hwaits, h.waiters_eq, List.nil_append]
    rfl
  case woken =>
    rw [h.waiters_eq, hsettles.tcb]
    exact hwoken
  case same =>
    rw [h.waiters_eq, hsettles.tcb]
    exact hsame

/-- A handler can set bits at any time. -/
theorem Setter.isr_sets (h : TaskListInv k L) (e : Addr) (s : BitVec 32) :
    ∃ k', Setter.isr.set k e s = some k' := by
  obtain ⟨k₁, L', hset, -⟩ := h.setAndWake e s
  obtain ⟨k', hk', -⟩ := osEventgroupSetBitsFromIsr_settles hset
  refine ⟨k', ?_⟩
  rw [Setter.set, hk']
  rfl

/-- Priorities survive. -/
theorem GroupAfter.prio (h : GroupAfter e s k k') (t : TaskId) : k'.prio t = k.prio t := by
  show (k'.tcb t).priority = (k.tcb t).priority
  by_cases ht : t ∈ (k.wakesAt ((k.eventGroups e).bits ||| s) (k.waiters (.eventGroup e))).map Prod.fst
  · obtain ⟨q, hq, rfl⟩ := List.mem_map.mp ht
    rw [h.woken q hq]
    rfl
  · rw [h.same t ht]

/-! ## Waiting -/

/-- Nobody in the list comes after the new element. -/
theorem orderedInsert_last {l : List TaskId} (h : ∀ x ∈ l, k.prio x ≤ k.prio w) :
    l.orderedInsert k.before w = l ++ [w] := by
  induction l with
  | nil => rfl
  | cons x l ih =>
      have hx : ¬ k.before w x := not_lt.mpr (h x (List.mem_cons_self ..))
      rw [List.orderedInsert, if_neg hx, ih fun y hy => h y (List.mem_cons_of_mem _ hy)]
      rfl

/-- **A call that waits** puts its caller last, behind waiters of smaller or equal number. -/
structure WaitsLast (e : Addr) (w : TaskId) (mask options : BitVec 32) (k k' : Kernel) : Prop where
  /-- The task lists. -/
  lists : ∃ L, TaskListInv k' L
  /-- The bits. -/
  bits : (k'.eventGroups e).bits = (k.eventGroups e).bits
  /-- The waiters. -/
  waiters : k'.waiters (.eventGroup e) = k.waiters (.eventGroup e) ++ [w]
  /-- The caller. -/
  caller : (k'.tcb w).eventWaitBits = mask ∧ (k'.tcb w).eventWaitOptions = options ∧
    (k'.tcb w).state = .blocked
  /-- The others. -/
  same : ∀ t, t ≠ w → k'.tcb t = k.tcb t

/-- A caller whose condition is not met goes to sleep, behind the waiters that are as urgent. -/
theorem Kernel.Calling.waits (h : TaskListInv k L) (hcall : k.Calling w)
    (hun : eventSatisfied (k.eventGroups e).bits mask options = false) (hn : n ≠ waitNone)
    (hprio : ∀ t ∈ k.waiters (.eventGroup e), k.prio t ≤ k.prio w) :
    ∃ k', osEventgroupWaitBits k e mask options n = some (k', .blocked) ∧
      WaitsLast e w mask options k k' := by
  set v : Tcb := { k.tcb w with
    eventWaitBits := mask, eventWaitOptions := options, eventReturnBits := 0 } with hv
  set k₀ := (osSchedEnterCritical k).setTcb w v with hk₀
  have h₀ : TaskListInv k₀ L := h.enterCritical.setTcb (fun P => by cases P <;> rfl) fun hc => hc
  have htcb₀ : k₀.tcb w = v := Function.update_self ..
  obtain ⟨k₁, hk₁, h₁, hd⟩ := h₀.block (w := .eventGroup e) n (hcall.live : w ∈ k₀.liveTcbs)
    (by rw [htcb₀]; exact hcall.state)
  have hprio₀ : k₀.prio = (osSchedEnterCritical k).prio := prio_setTcb rfl
  have hlast : (L (.wait (.eventGroup e))).orderedInsert k₀.before w
      = L (.wait (.eventGroup e)) ++ [w] := by
    refine orderedInsert_last fun x hx => ?_
    rw [hprio₀]
    exact hprio x (by rwa [h.waiters_eq])
  rw [hlast] at h₁
  have htcb : k₁.tcb = Function.update k₀.tcb w ((k₀.tcb w).waiting n .onEventWait (.eventGroup e)) :=
    tcb_of_data hd
  have hblock : EventGroup.prvBlockTask (osSchedEnterCritical k) e w mask options n = some k₁ := hk₁
  refine ⟨_, by rw [osEventgroupWaitBits_unmet hcall.current hun, if_neg hn, hblock]; rfl, ?_⟩
  constructor
  case lists => exact ⟨_, h₁.exitCritical.yield⟩
  case bits =>
    have hb := congrArg (fun d : Kernel => (d.eventGroups e).bits) hd
    exact hb
  case waiters =>
    rw [h₁.exitCritical.yield.waiters_eq, h.waiters_eq]
    exact Layout.set_self ..
  case caller =>
    show (k₁.tcb w).eventWaitBits = mask ∧ (k₁.tcb w).eventWaitOptions = options ∧
      (k₁.tcb w).state = .blocked
    rw [htcb, Function.update_self, htcb₀]
    exact ⟨rfl, rfl, rfl⟩
  case same =>
    intro t ht
    show k₁.tcb t = k.tcb t
    rw [htcb, Function.update_of_ne ht]
    exact Function.update_of_ne ht _ _

/-- **A call whose condition holds** returns the bits, and takes its own when it should. -/
theorem Kernel.Calling.returns (h : TaskListInv k L)
    (hsat : eventSatisfied (k.eventGroups e).bits mask options = true) :
    ∃ k', osEventgroupWaitBits k e mask options n = some (k', .done (k.eventGroups e).bits) ∧
      (∃ L, TaskListInv k' L) ∧
      (k'.eventGroups e).bits = (if options &&& eventClearOnExit ≠ 0 then
        (k.eventGroups e).bits &&& ~~~mask else (k.eventGroups e).bits) ∧
      k'.waiters (.eventGroup e) = k.waiters (.eventGroup e) := by
  have hsat' : eventSatisfied ((osSchedEnterCritical k).eventGroups e).bits mask options = true := hsat
  unfold osEventgroupWaitBits
  dsimp only
  rw [if_pos hsat']
  by_cases hclear : options &&& eventClearOnExit ≠ 0
  · have h' : TaskListInv ((osSchedEnterCritical k).withBits e ((k.eventGroups e).bits &&& ~~~mask)) L :=
      h.enterCritical.setEventBits _
    rw [if_pos hclear, if_pos hclear]
    refine ⟨_, rfl, ⟨L, h'.exitCritical⟩, bits_withBits .., ?_⟩
    exact h'.exitCritical.waiters_eq _ |>.trans (h.waiters_eq _).symm
  · rw [if_neg hclear, if_neg hclear]
    refine ⟨_, rfl, ⟨L, h.enterCritical.exitCritical⟩, rfl, ?_⟩
    exact h.enterCritical.exitCritical.waiters_eq _ |>.trans (h.waiters_eq _).symm

/-! ## The two orders end alike -/

/-- A pass looks at what the waiters wait for only. -/
theorem pass_of_sameWait {l : List TaskId} (h : ∀ t ∈ l, (k.tcb t).SameWait (k'.tcb t))
    (b : BitVec 32) :
    k'.wakesAt b l = k.wakesAt b l ∧
      left k'.metBy k'.leftBy b l = left k.metBy k.leftBy b l ∧
      level k'.metBy k'.leftBy b l = level k.metBy k.leftBy b l := by
  refine pass_congr (fun t ht => ?_) (fun t ht => ?_) b
  · obtain ⟨-, hb, ho⟩ := h t ht
    funext c
    unfold Kernel.metBy
    rw [hb, ho]
  · obtain ⟨-, hb, ho⟩ := h t ht
    funext c
    unfold Kernel.leftBy Kernel.takenBy
    rw [hb, ho]

/-- What a task leaves, by its mask and options. -/
theorem Kernel.leftBy_eq (hm : (k.tcb w).eventWaitBits = mask)
    (ho : (k.tcb w).eventWaitOptions = options) (b : BitVec 32) :
    k.leftBy w b = if options &&& eventClearOnExit ≠ 0 then b &&& ~~~mask else b := by
  unfold Kernel.leftBy Kernel.takenBy
  rw [hm, ho]
  split
  · rfl
  · exact and_not_zero b

/-- **Waiting first**: the pass over the others, and then the task. -/
theorem WaitThenSet.ends (h : TaskListInv k L) (hcall : k.Calling w)
    (hun : eventSatisfied (k.eventGroups e).bits mask options = false) (hn : n ≠ waitNone)
    (hprio : ∀ t ∈ k.waiters (.eventGroup e), k.prio t ≤ k.prio w)
    (hrun : WaitThenSet e w mask options n s k k') :
    let l := k.waiters (.eventGroup e)
    let b := level k.metBy k.leftBy ((k.eventGroups e).bits ||| s) l
    let rest := left k.metBy k.leftBy ((k.eventGroups e).bits ||| s) l
    if eventSatisfied b mask options then
      (k'.eventGroups e).bits = (if options &&& eventClearOnExit ≠ 0 then b &&& ~~~mask else b) ∧
        k'.waiters (.eventGroup e) = rest ∧ w ∉ rest ∧ (k'.tcb w).state = .ready ∧
        (k'.tcb w).eventReturnBits = b
    else
      (k'.eventGroups e).bits = b ∧ k'.waiters (.eventGroup e) = rest ++ [w] ∧
        (k'.tcb w).state = .blocked := by
  intro l b rest
  obtain ⟨k₁, k₂, setter, hwait, hbetween, hset⟩ := hrun
  obtain ⟨k₁', hwait', hw⟩ := hcall.waits h hun hn hprio
  obtain rfl : k₁ = k₁' := (Prod.mk.inj (Option.some.inj (hwait.symm.trans hwait'))).1
  obtain ⟨L₂, h₂⟩ := hbetween.lists
  have hafter := Setter.groupAfter h₂ hset
  have hout : w ∉ l := by
    show w ∉ k.waiters (.eventGroup e)
    rw [h.waiters_eq]
    exact h.not_waiting hcall.state
  have hlist : k₂.waiters (.eventGroup e) = l ++ [w] := hbetween.waiters.trans hw.waiters
  have hstart : (k₂.eventGroups e).bits = (k.eventGroups e).bits := hbetween.bits.trans hw.bits
  have hfellow : ∀ t ∈ l, (k.tcb t).SameWait (k₂.tcb t) := by
    intro t ht
    have htw : t ≠ w := fun htw => hout (htw ▸ ht)
    have hsame := hbetween.waits t (Or.inl (by rw [hw.waiters]; exact List.mem_append_left _ ht))
    rwa [hw.same t htw] at hsame
  obtain ⟨hwakes, hleft, hlevel⟩ := pass_of_sameWait hfellow ((k.eventGroups e).bits ||| s)
  -- the task itself
  obtain ⟨-, hmask, hoptions⟩ := hbetween.waits w (Or.inr rfl)
  rw [hw.caller.1] at hmask
  rw [hw.caller.2.1] at hoptions
  have hmet : k₂.metBy w b = eventSatisfied b mask options := by
    unfold Kernel.metBy
    rw [hmask, hoptions]
  have hbits := hafter.bits
  have hwaiters := hafter.waiters
  have hwoken := hafter.woken
  have hsame := hafter.same
  rw [hlist, hstart] at hbits hwaiters hwoken hsame
  rw [level_append, hlevel] at hbits
  rw [left_append, hleft, hlevel] at hwaiters
  have hserved : k₂.wakesAt ((k.eventGroups e).bits ||| s) (l ++ [w])
      = k.wakesAt ((k.eventGroups e).bits ||| s) l ++ k₂.wakesAt b [w] := by
    rw [← hwakes]
    unfold Kernel.wakesAt
    rw [served_append, hlevel]
  rw [hserved] at hwoken hsame
  split
  · next hsat =>
      have hsat' : k₂.metBy w b = true := hmet.trans hsat
      have hone : k₂.wakesAt b [w] = [(w, b)] := served_cons_pos hsat'
      rw [level_cons_pos hsat', Kernel.leftBy_eq hmask hoptions] at hbits
      rw [left_cons_pos hsat'] at hwaiters
      have hwoke := hwoken (w, b) (List.mem_append_right _ (by rw [hone]; exact List.mem_cons_self ..))
      refine ⟨hbits, hwaiters.trans (List.append_nil _), ?_, ?_, ?_⟩
      · exact fun hm => hout (left_sublist.subset hm)
      · rw [hwoke]
        rfl
      · rw [hwoke]
        rfl
  · next hsat =>
      have hsat' : k₂.metBy w b = false := hmet.trans (by simpa using hsat)
      have hnone : k₂.wakesAt b [w] = [] := served_cons_neg hsat'
      rw [level_cons_neg hsat'] at hbits
      rw [left_cons_neg hsat'] at hwaiters
      have hstays : w ∉ (k.wakesAt ((k.eventGroups e).bits ||| s) l ++ k₂.wakesAt b [w]).map
          Prod.fst := by
        rw [hnone, List.append_nil]
        exact fun hm => hout (served_sublist.subset hm)
      refine ⟨hbits, hwaiters, ?_⟩
      rw [hsame w hstays]
      have hmem : w ∈ L₂ (.wait (.eventGroup e)) := by
        rw [← h₂.waiters_eq, hlist]
        exact List.mem_append_right _ (List.mem_cons_self ..)
      exact (h₂.stands hmem).1

/-- **Setting first**: the pass over the others, and then the call. -/
theorem SetThenWait.ends {r : Outcome (BitVec 32)} (h : TaskListInv k L) (hcall : k.Calling w)
    (hn : n ≠ waitNone) (hprio : ∀ t ∈ k.waiters (.eventGroup e), k.prio t ≤ k.prio w)
    (hrun : SetThenWait e w mask options n s k k' r) :
    let l := k.waiters (.eventGroup e)
    let b := level k.metBy k.leftBy ((k.eventGroups e).bits ||| s) l
    let rest := left k.metBy k.leftBy ((k.eventGroups e).bits ||| s) l
    if eventSatisfied b mask options then
      r = .done b ∧ k'.waiters (.eventGroup e) = rest ∧
        (k'.eventGroups e).bits = (if options &&& eventClearOnExit ≠ 0 then b &&& ~~~mask else b)
    else
      r = .blocked ∧ k'.waiters (.eventGroup e) = rest ++ [w] ∧ (k'.eventGroups e).bits = b ∧
        (k'.tcb w).state = .blocked := by
  intro l b rest
  obtain ⟨k₀, k₁, k₂, setter, hbefore, hset, hbetween, hcall₂, hwait⟩ := hrun
  obtain ⟨L₀, h₀⟩ := hbefore.lists
  obtain ⟨L₂, h₂⟩ := hbetween.lists
  have hafter := Setter.groupAfter h₀ hset
  have hout : w ∉ l := by
    show w ∉ k.waiters (.eventGroup e)
    rw [h.waiters_eq]
    exact h.not_waiting hcall.state
  obtain ⟨-, hleft, hlevel⟩ := pass_of_sameWait (fun t ht => hbefore.waits t (Or.inl ht))
    ((k.eventGroups e).bits ||| s)
  have hbits : (k₂.eventGroups e).bits = b := by
    rw [hbetween.bits, hafter.bits, hbefore.waiters, hbefore.bits]
    exact hlevel
  have hrest : k₂.waiters (.eventGroup e) = rest := by
    rw [hbetween.waiters, hafter.waiters, hbefore.waiters, hbefore.bits]
    exact hleft
  have hprio₂ : ∀ t ∈ k₂.waiters (.eventGroup e), k₂.prio t ≤ k₂.prio w := by
    intro t ht
    have htl : t ∈ l := left_sublist.subset (hrest ▸ ht)
    have hsame : ∀ x, x ∈ l ∨ x = w → k₁.prio x = k.prio x := fun x hx =>
      (hafter.prio x).trans (hbefore.waits x hx).1
    have ht₁ : t ∈ k₁.waiters (.eventGroup e) := hbetween.waiters ▸ ht
    have h₁ : k₂.prio t = k.prio t := (hbetween.waits t (Or.inl ht₁)).1.trans (hsame t (Or.inl htl))
    have h₂ : k₂.prio w = k.prio w := (hbetween.waits w (Or.inr rfl)).1.trans (hsame w (Or.inr rfl))
    rw [h₁, h₂]
    exact hprio t htl
  split
  · next hsat =>
      obtain ⟨k₃, hk₃, -, hb₃, hw₃⟩ := Kernel.Calling.returns (n := n) h₂ (hbits ▸ hsat)
      obtain ⟨rfl, rfl⟩ := Prod.mk.inj (Option.some.inj (hwait.symm.trans hk₃))
      rw [hbits] at hb₃ ⊢
      exact ⟨rfl, hw₃.trans hrest, hb₃⟩
  · next hsat =>
      have hun : eventSatisfied (k₂.eventGroups e).bits mask options = false := by
        rw [hbits]
        simpa using hsat
      obtain ⟨k₃, hk₃, hw₃⟩ := hcall₂.waits h₂ hun hn hprio₂
      obtain ⟨rfl, rfl⟩ := Prod.mk.inj (Option.some.inj (hwait.symm.trans hk₃))
      refine ⟨rfl, ?_, hw₃.bits.trans hbits, hw₃.caller.2.2⟩
      rw [hw₃.waiters, hrest]

/-- Nothing happened. -/
theorem Between.refl (h : TaskListInv k L) (e : Addr) (w : TaskId) : Between e w k k :=
  ⟨⟨L, h⟩, rfl, rfl, fun _ _ => ⟨rfl, rfl, rfl⟩⟩

/-- A context switch happens to the group as little. -/
theorem Between.selectNext (h : TaskListInv k L) (e : Addr) (w : TaskId) :
    Between e w k (osSchedSelectNext k) := by
  rcases h.osSchedSelectNext with ⟨-, he⟩ | ⟨p, t, r, n, -, -, -, h', hs⟩
  · rw [he]
    exact .refl h e w
  · constructor
    case lists => exact ⟨_, h'⟩
    case bits =>
      have hb := congrArg (fun d : Kernel => (d.eventGroups e).bits) hs.data
      exact hb
    case waiters =>
      rw [h'.waiters_eq, h.waiters_eq]
      exact Layout.set_wait _ (by simp) _ _
    case waits =>
      intro x _
      rw [hs.same x]
      exact ⟨rfl, rfl, rfl⟩

/-- Waiting first can be done, with an interrupt that sets the bits. -/
theorem Kernel.Calling.waitThenSet (h : TaskListInv k L) (hcall : k.Calling w)
    (hun : eventSatisfied (k.eventGroups e).bits mask options = false) (hn : n ≠ waitNone)
    (hprio : ∀ t ∈ k.waiters (.eventGroup e), k.prio t ≤ k.prio w) (s : BitVec 32) :
    ∃ k', WaitThenSet e w mask options n s k k' := by
  obtain ⟨k₁, hk₁, hw⟩ := hcall.waits h hun hn hprio
  obtain ⟨L₁, h₁⟩ := hw.lists
  obtain ⟨k', hk'⟩ := Setter.isr_sets h₁ e s
  exact ⟨k', k₁, k₁, .isr, hk₁, .refl h₁ e w, hk'⟩

/-- A waiting list that the interrupt leaves does not hold the caller up. -/
theorem GroupAfter.calling (h : GroupAfter e s k k') (hout : w ∉ k.waiters (.eventGroup e))
    (hcall : k.Calling w) (hcur : k'.current = k.current) (hlive : k'.liveTcbs = k.liveTcbs) :
    k'.Calling w := by
  have hsame : k'.tcb w = k.tcb w := h.same w fun hm => hout (served_sublist.subset hm)
  refine ⟨hcur.trans hcall.current, hlive ▸ hcall.live, ?_⟩
  rw [hsame]
  exact hcall.state

/-- Setting first can be done, too. -/
theorem Kernel.Calling.setThenWait (h : TaskListInv k L) (hcall : k.Calling w) (n : Nat)
    (s mask options : BitVec 32) : ∃ k' r, SetThenWait e w mask options n s k k' r := by
  obtain ⟨k₁, L₁, hset, hswept⟩ := h.setAndWake e s
  obtain ⟨k₂, hk₂, hsettles⟩ := osEventgroupSetBitsFromIsr_settles hset
  have hk₂' : Setter.isr.set k e s = some k₂ := by
    rw [Setter.set, hk₂]
    rfl
  have hafter := Setter.groupAfter h hk₂'
  have hout : w ∉ k.waiters (.eventGroup e) := by
    rw [h.waiters_eq]
    exact h.not_waiting hcall.state
  have hcur : k₂.current = k.current := by
    have hc : k₂.current = k₁.current := current_of_data hsettles.data
    exact hc.trans hswept.current
  have hlive : k₂.liveTcbs = k.liveTcbs := by
    have hl : k₂.liveTcbs = k₁.liveTcbs := liveTcbs_of_data hsettles.data
    have hl' : k₁.liveTcbs = k.liveTcbs := by
      have hd := liveTcbs_of_data hswept.data
      exact hd
    exact hl.trans hl'
  have hcall₂ := hafter.calling hout hcall hcur hlive
  obtain ⟨L₂, h₂⟩ := hafter.lists
  obtain ⟨r, hr, -⟩ := h₂.osEventgroupWaitBits (e := e) mask options n hcall₂.current hcall₂.live
    hcall₂.state
  exact ⟨r.1, r.2, k, k₂, k₂, .isr, .refl h e w, hk₂', .refl h₂ e w, hcall₂, hr⟩

/-- **Waiting before or after the event.** A task whose condition does not hold, and whose fellow waiters
have no larger priority number, can wait first or call after the bits were set, by a task or a handler
and with whatever happens in between to other objects. Both orders can be run, and they end with the
same bits and waiters, the same fate of the task and, if it is satisfied, the same bits returned. -/
theorem event_before_or_after (h : TaskListInv k L) (hcall : k.Calling w)
    (hun : eventSatisfied (k.eventGroups e).bits mask options = false) (hn : n ≠ waitNone)
    (hprio : ∀ t ∈ k.waiters (.eventGroup e), k.prio t ≤ k.prio w) (s : BitVec 32) :
    (∃ kA, WaitThenSet e w mask options n s k kA) ∧
      (∃ kB r, SetThenWait e w mask options n s k kB r) ∧
      ∀ kA kB r, WaitThenSet e w mask options n s k kA → SetThenWait e w mask options n s k kB r →
        SameEnd e w kA kB r := by
  refine ⟨hcall.waitThenSet h hun hn hprio s, hcall.setThenWait h n s mask options, ?_⟩
  intro kA kB r hA hB
  have hendA := hA.ends h hcall hun hn hprio
  have hendB := hB.ends h hcall hn hprio
  dsimp only at hendA hendB
  split at hendA
  · next hsat =>
      rw [if_pos hsat] at hendB
      obtain ⟨hbitsA, hwaitA, hout, hready, hret⟩ := hendA
      obtain ⟨rfl, hwaitB, hbitsB⟩ := hendB
      constructor
      case bits => rw [hbitsA, hbitsB]
      case waiters => rw [hwaitA, hwaitB]
      case waiting =>
        intro hr
        cases hr
      case satisfied =>
        intro b hb
        obtain rfl := Outcome.done.inj hb
        rw [hwaitA]
        exact ⟨hout, hready, hret⟩
  · next hsat =>
      rw [if_neg hsat] at hendB
      obtain ⟨hbitsA, hwaitA, hblocked⟩ := hendA
      obtain ⟨rfl, hwaitB, hbitsB, hblockedB⟩ := hendB
      constructor
      case bits => rw [hbitsA, hbitsB]
      case waiters => rw [hwaitA, hwaitB]
      case waiting =>
        intro _
        refine ⟨?_, hblocked, hblockedB⟩
        rw [hwaitA]
        exact List.mem_append_right _ (List.mem_cons_self ..)
      case satisfied =>
        intro b hb
        cases hb

/-- A task waits for bit 0 and takes it, and another one is about to wait for bits 0 and 1. -/
def fellowTrace : List Op :=
  [.create (taskAt 0x100 2), .create (taskAt 0x200 3), .eventCreate 0x20, .selectNext,
    .eventWait 0x20 1 eventClearOnExit 10, .selectNext]

/-- Bit 1 is what the fellow leaves. -/
theorem event_before_or_after_fellow :
    ∃ s, Run WithoutMutexes step .boot fellowTrace s ∧
      s.kernel.waiters (.eventGroup 0x20) = [0x100] ∧
      ∀ kA kB r, WaitThenSet 0x20 0x200 3 0 waitForever 3 s.kernel kA →
        SetThenWait 0x20 0x200 3 0 waitForever 3 s.kernel kB r → SameEnd 0x20 0x200 kA kB r := by
  obtain ⟨s, hr, hcur, hlive, hst, hun, hwaiters, hle⟩ := exists_run_of_exec WithoutMutexes step Sys.boot
    fellowTrace (fun s => s.kernel.current = some 0x200 ∧ 0x200 ∈ s.kernel.liveTcbs ∧
      ((s.kernel.tcb 0x200).state = .ready ∨ (s.kernel.tcb 0x200).state = .running) ∧
      eventSatisfied (s.kernel.eventGroups 0x20).bits 3 0 = false ∧
      s.kernel.waiters (.eventGroup 0x20) = [0x100] ∧ s.kernel.prio 0x100 ≤ s.kernel.prio 0x200)
    (by decide +kernel)
  obtain ⟨L, h⟩ := taskListInv_of_run Sys.boot_init hr
  have hprio : ∀ t ∈ s.kernel.waiters (.eventGroup 0x20), s.kernel.prio t ≤ s.kernel.prio 0x200 := by
    intro t ht
    rw [hwaiters] at ht
    obtain rfl := List.mem_singleton.mp ht
    exact hle
  exact ⟨s, hr, hwaiters,
    (event_before_or_after h ⟨hcur, hlive, hst⟩ hun (by decide) hprio 3).2.2⟩

end MiniRTOS
