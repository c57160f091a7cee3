import Mathlib.Data.Nat.Prime.Basic
import MiniRTOS.Kernel.Context
import MiniRTOS.Kernel.SystemInv
import MiniRTOS.Lib.RoundRobin

/-! # Time slicing

Tasks of one priority share the CPU: `os_sched_select_next` moves a current task that heads its ready
list to the tail and takes the new head. In the build without interrupt nesting one system tick makes
two selections, one in `os_kernel_tick_increment` and one in the `PendSV_Handler` that
`SysTick_Handler` triggers. So the turn passes on by two tasks per tick: an odd number of tasks take
their turns, each of them once in a round; of an even number, every second one is never current after
a tick.

* **`Kernel.TakesTurns`** — the tasks of the highest priority are among themselves.
* **`TurnsTo`** — whose turn it is, along a fixed ring.
* **`roundRobin_iff`** — one round of ticks, for every number of tasks. -/

namespace MiniRTOS

open Runs RoundRobin

variable {k k' : Kernel} {L : Layout} {p : Prio} {n j : Nat} {us : List TaskId}

/-! ## Ticks -/

/-- **One system tick**: `SysTick_Handler`, then the `PendSV_Handler` that it triggers. -/
def cpuTick (c : Cpu) : Option Cpu := (cpuStep c (.sysTick [] [])).bind fun c => cpuStep c .pendSv

/-- Consecutive system ticks. -/
def cpuTicks : Nat → Cpu → Option Cpu
  | 0, c => some c
  | m + 1, c => (cpuTicks m c).bind cpuTick

/-- The live tasks of a priority that are READY or RUNNING. -/
def Kernel.readyAt (k : Kernel) (p : Prio) : List TaskId :=
  k.liveTcbs.filter fun t => decide
    ((k.tcb t).priority = p ∧ ((k.tcb t).state = .ready ∨ (k.tcb t).state = .running))

/-- **The tasks of the highest priority are among themselves** for the next `n` ticks: one of them is
current, their stacks are sound, no more urgent task is ready, and no delay ends. -/
structure Kernel.TakesTurns (k : Kernel) (p : Prio) (n : Nat) : Prop where
  /-- The lists are well formed. -/
  lists : ∃ L, TaskListInv k L
  /-- One of them is current. -/
  current : ∃ c ∈ k.readyAt p, k.current = some c
  /-- No ready task is more urgent. -/
  top : ∀ t ∈ k.liveTcbs, (k.tcb t).state = .ready ∨ (k.tcb t).state = .running →
    p ≤ (k.tcb t).priority
  /-- Their stacks are sound. -/
  canary : ∀ t ∈ k.readyAt p, k.stackMem (k.tcb t).stackBase = stackCanaryValue
  /-- No delay ends. -/
  delays : ∀ t ∈ k.liveTcbs, (k.tcb t).Fits .blocked →
    (k.tcb t).delayTicks = 0 ∨ n < (k.tcb t).delayTicks

/-! ## The ring -/

/-- What `TakesTurns` says about the lists. -/
structure Peers (k : Kernel) (L : Layout) (p : Prio) (n : Nat) : Prop where
  /-- The lists are well formed. -/
  inv : TaskListInv k L
  /-- The lists of the more urgent priorities are empty. -/
  top : ∀ q, q < p → L (.ready q) = []
  /-- The stacks are sound. -/
  canary : ∀ t ∈ L (.ready p), k.stackMem (k.tcb t).stackBase = stackCanaryValue
  /-- No delay ends. -/
  delays : ∀ t ∈ L .blocked, (k.tcb t).delayTicks = 0 ∨ n < (k.tcb t).delayTicks

/-- **The next selection passes the turn on to position `j + 1` of the ring.** -/
def TurnsTo (k : Kernel) (us : List TaskId) (p : Prio) (n j : Nat) : Prop :=
  ∃ L t r, Peers k L p n ∧ (∃ c ∈ t :: r, k.current = some c) ∧ L (.ready p) = t :: r ∧
    rotated k.current t r = us.rotate (j + 1)

/-- The tasks of a ready list. -/
theorem TaskListInv.mem_readyAt (h : TaskListInv k L) {t : TaskId} :
    t ∈ k.readyAt p ↔ t ∈ L (.ready p) := by
  rw [Kernel.readyAt, List.mem_filter, decide_eq_true_iff]
  constructor
  · rintro ⟨hl, hfit⟩
    exact (h.placed t hl _).mpr hfit
  · intro ht
    have hl := h.live _ t ht
    exact ⟨hl, (h.placed t hl _).mp ht⟩

/-- A selection passes the turn on. -/
theorem Peers.select {t : TaskId} {r : List TaskId} (h : Peers k L p n) (hp : L (.ready p) = t :: r) :
    Peers (osSchedSelectNext k) (L.set (.ready p) (rotated k.current t r)) p n ∧
      (osSchedSelectNext k).current = (rotated k.current t r).head? := by
  rcases h.inv.osSchedSelectNext with ⟨hnil, -⟩ | ⟨q, t', r', m, hq, hlow, hhead, hinv, hsw⟩
  · -- There are ready tasks, the peers.
    rw [hnil p] at hp
    cases hp
  · -- the first non-empty list is that of the peers
    obtain rfl : q = p := by
      rcases lt_trichotomy q p with hlt | heq | hgt
      · rw [h.top q hlt] at hq
        cases hq
      · exact heq
      · rw [hlow p hgt] at hp
        cases hp
    rw [hp] at hq
    obtain ⟨rfl, rfl⟩ := List.cons.inj hq
    -- A switch writes the current task, run times and states, nothing the peers depend on.
    have hcur : (osSchedSelectNext k).current = some m := by
      have hc := congrArg Kernel.current hsw.data
      exact hc
    have hmem : (osSchedSelectNext k).stackMem = k.stackMem := by
      have hm := congrArg Kernel.stackMem hsw.data
      exact hm
    refine ⟨⟨hinv, fun q' hq' => ?_, fun x hx => ?_, fun x hx => ?_⟩, hcur.trans hhead.symm⟩
    · rw [Layout.set_of_ne _ _ (by simpa using ne_of_lt hq')]
      exact hlow q' hq'
    · rw [Layout.set_self, mem_rotated, ← hp] at hx
      rw [hmem, hsw.same x]
      exact h.canary x hx
    · rw [Layout.set_of_ne _ _ (by simp)] at hx
      rw [hsw.same x]
      exact h.delays x hx

/-- **Passing the turn on.** -/
theorem TurnsTo.select (h : TurnsTo k us p n j) :
    TurnsTo (osSchedSelectNext k) us p n (j + 1) ∧
      (osSchedSelectNext k).current = (us.rotate (j + 1)).head? := by
  obtain ⟨L, t, r, hpeers, -, hp, hrot⟩ := h
  obtain ⟨hpeers', hcur⟩ := hpeers.select hp
  rw [hrot] at hpeers' hcur
  obtain ⟨t', r', hcons⟩ : ∃ t' r', us.rotate (j + 1) = t' :: r' := by
    refine List.exists_cons_of_ne_nil ?_
    rw [← hrot]
    exact List.ne_nil_of_mem (mem_rotated.mpr (List.mem_cons_self (a := t)))
  refine ⟨⟨_, t', r', hpeers', ⟨t', List.mem_cons_self, ?_⟩, ?_, ?_⟩, hcur⟩
  · rw [hcur, hcons, List.head?_cons]
  · rw [Layout.set_self, hcons]
  · rw [hcur, hcons, List.head?_cons, rotated, if_pos rfl]
    exact (rotate_add_one_of_cons hcons).symm

/-- Writing to control blocks and flags that the turn does not depend on. -/
theorem TurnsTo.congr (h : TurnsTo k us p n j) (hinv : ∀ L, TaskListInv k L → TaskListInv k' L)
    (hcur : k'.current = k.current) (hmem : k'.stackMem = k.stackMem)
    (htcb : ∀ x, (k'.tcb x).stackBase = (k.tcb x).stackBase ∧
      (k'.tcb x).delayTicks = (k.tcb x).delayTicks) : TurnsTo k' us p n j := by
  obtain ⟨L, t, r, hpeers, hc, hp, hrot⟩ := h
  refine ⟨L, t, r, ⟨hinv L hpeers.inv, hpeers.top, fun x hx => ?_, fun x hx => ?_⟩, hcur ▸ hc, hp,
    hcur ▸ hrot⟩
  · rw [hmem, (htcb x).1]
    exact hpeers.canary x hx
  · rw [(htcb x).2]
    exact hpeers.delays x hx

/-! ## One tick -/

/-- A tick that ends no delay leaves every list but the deferred deletions alone. -/
theorem tickedLayout_of_calm (h : ∀ t ∈ L .blocked, (k.tcb t).delayTicks ≠ 1) :
    tickedLayout k L [] (L .blocked) = L := by
  have hexp : ∀ t ∈ L .blocked, k.expiring t = false := by
    intro t ht
    simpa [Kernel.expiring] using h t ht
  funext P
  cases P with
  | ready q =>
      show L (.ready q) ++ _ = _
      rw [List.filter_eq_nil_iff.mpr, List.append_nil]
      intro t ht
      simp [hexp t ht]
  | blocked =>
      show [] ++ _ = _
      rw [List.nil_append, List.filter_eq_self.mpr]
      intro t ht
      simp [hexp t ht]
  | wait w => rfl
  | deferred => rfl

/-- **`os_task_tick`** does not change whose turn it is. -/
theorem TurnsTo.tick (h : TurnsTo k us p (n + 1) j) :
    ∃ k', osTaskTick k = some k' ∧ TurnsTo k' us p n j := by
  obtain ⟨L, t, r, hpeers, ⟨c, hc, hcur⟩, hp, hrot⟩ := h
  have hcan : k.canaryIntact := by
    intro c' hc'
    rw [hcur] at hc'
    obtain rfl := Option.some.inj hc'
    exact hpeers.canary c (hp ▸ hc)
  obtain ⟨k', hk', hinv, hticked⟩ := hpeers.inv.osTaskTick hcan
  -- No delay ends, so the walk moves nobody and only counts.
  have hcalm : ∀ x ∈ L .blocked, (k.tcb x).delayTicks ≠ 1 := by
    intro x hx
    have := hpeers.delays x hx
    omega
  rw [tickedLayout_of_calm hcalm] at hinv
  have hcur' : k'.current = k.current := (congrArg Kernel.current hticked.data : _)
  have hmem' : k'.stackMem = k.stackMem := (congrArg Kernel.stackMem hticked.data : _)
  -- The stack bounds are not among what a tick writes.
  have hbase : ∀ x, (k'.tcb x).stackBase = (k.tcb x).stackBase := by
    intro x
    obtain ⟨m, hx⟩ := hticked.fields x
    rw [hx]
  refine ⟨k', hk', L.set .deferred [], t, r, ⟨hinv, fun q hq => ?_, fun x hx => ?_, fun x hx => ?_⟩,
    ⟨c, hc, hcur'.trans hcur⟩, ?_, hcur' ▸ hrot⟩
  · rw [Layout.set_of_ne _ _ (by simp)]
    exact hpeers.top q hq
  · rw [Layout.set_of_ne _ _ (by simp)] at hx
    rw [hmem', hbase x]
    exact hpeers.canary x hx
  · rw [Layout.set_of_ne _ _ (by simp)] at hx
    have hkeep := hpeers.delays x hx
    rw [hticked.delayTicks, if_pos hx]
    omega
  · rw [Layout.set_of_ne _ _ (by simp)]
    exact hp

/-- `SysTick_Handler` passes the turn on once. -/
theorem TurnsTo.sysTick {s : Sys} (h : TurnsTo s.kernel us p (n + 1) j) :
    ∃ s', sysTickHandler s [] [] = some s' ∧ s'.kernel.pendSv = true ∧
      TurnsTo s'.kernel us p n (j + 1) := by
  have hnow : TurnsTo { s.kernel with systemTick := (s.kernel.systemTick + 1) % 2 ^ 32 } us p (n + 1) j :=
    h.congr (fun L hL => hL.objects (fun w => by cases w <;> rfl) rfl rfl rfl rfl rfl rfl rfl rfl) rfl rfl
      fun _ => ⟨rfl, rfl⟩
  obtain ⟨k₁, hk₁, h₁⟩ := hnow.tick
  have h₂ := h₁.select.1
  have hhandler : sysTickHandler s [] []
      = some { s with kernel := { osSchedSelectNext k₁ with pendSv := true }, needSelect := false } := by
    unfold sysTickHandler osKernelTickIncrement beforeSelect
    simp only [exec, step, Sys.onIsr, Option.bind_eq_bind, Option.bind_some]
    dsimp only at hk₁
    rw [hk₁]
    rfl
  refine ⟨_, hhandler, rfl, ?_⟩
  exact h₂.congr (fun L hL => hL.objects (fun w => by cases w <;> rfl) rfl rfl rfl rfl rfl rfl rfl rfl)
    rfl rfl fun _ => ⟨rfl, rfl⟩

/-- Storing a stack pointer leaves the lists alone. -/
theorem TaskListInv.setStackPtr {t : TaskId} (h : TaskListInv k L) (sp : Nat) :
    TaskListInv (k.setTcb t { k.tcb t with stackPtr := sp }) L :=
  h.setTcb (fun P => by cases P <;> rfl) fun hc => hc

/-- `PendSV_Handler` passes it on once more. -/
theorem TurnsTo.pendSv {c : Cpu} (h : TurnsTo c.sys.kernel us p n j) :
    ∃ c', pendSvHandler c = some c' ∧ TurnsTo c'.sys.kernel us p n (j + 1) ∧
      c'.sys.kernel.current = (us.rotate (j + 1)).head? := by
  obtain ⟨cur, hcur⟩ : ∃ cur, c.sys.kernel.current = some cur := by
    obtain ⟨_, _, _, -, ⟨cur, -, hcur⟩, -⟩ := h
    exact ⟨cur, hcur⟩
  -- Saving the context writes only the stack pointer of the task that leaves.
  have hsaved : TurnsTo (saveContext c.sys.kernel cur c.psp) us p n j := by
    refine h.congr (fun L hL => ?_) rfl rfl fun x => ?_
    · have hset := hL.setStackPtr (t := cur) (stmdb c.psp)
      exact hset.objects (fun w => by cases w <;> rfl) rfl rfl rfl rfl rfl rfl rfl rfl
    · show (Function.update c.sys.kernel.tcb cur _ x).stackBase = _ ∧
        (Function.update c.sys.kernel.tcb cur _ x).delayTicks = _
      rw [Function.update_apply]
      split
      · next hx => exact hx ▸ ⟨rfl, rfl⟩
      · exact ⟨rfl, rfl⟩
  -- One more rotation.
  obtain ⟨hturn, hhead⟩ := hsaved.select
  obtain ⟨m, hm⟩ : ∃ m, (osSchedSelectNext (saveContext c.sys.kernel cur c.psp)).current = some m := by
    obtain ⟨_, _, _, -, ⟨m, -, hm⟩, -⟩ := hturn
    exact ⟨m, hm⟩
  have hhandler : pendSvHandler c = some
      { sys := { c.sys with
          kernel := osSchedSelectNext (saveContext c.sys.kernel cur c.psp), needSelect := false }
        psp := pspOf ((osSchedSelectNext (saveContext c.sys.kernel cur c.psp)).tcb m).stackPtr
        running := m
        savedPsp := Function.update c.savedPsp c.running c.psp } := by
    simp [pendSvHandler, hcur, step, Sys.onIsr, hm]
  exact ⟨_, hhandler, hturn, hhead⟩

/-- **One system tick passes the turn on twice.** -/
theorem TurnsTo.cpuTick {c : Cpu} (h : TurnsTo c.sys.kernel us p (n + 1) j) :
    ∃ c', MiniRTOS.cpuTick c = some c' ∧ TurnsTo c'.sys.kernel us p n (j + 2) ∧
      c'.sys.kernel.current = (us.rotate (j + 2)).head? := by
  obtain ⟨s', hs', hpend, h'⟩ := h.sysTick
  obtain ⟨c', hc', hturn, hcur⟩ := TurnsTo.pendSv (c := c.withSys s') h'
  refine ⟨c', ?_, hturn, hcur⟩
  have hfirst : cpuStep c (.sysTick [] []) = some (c.withSys s') := by
    rw [cpuStep, hs']
    rfl
  have hsecond : cpuStep (c.withSys s') .pendSv = some c' := by
    show (if s'.kernel.pendSv then pendSvHandler (c.withSys s') else none) = some c'
    rw [if_pos hpend]
    exact hc'
  rw [MiniRTOS.cpuTick, hfirst]
  exact hsecond

/-- **A run of ticks.** -/
theorem TurnsTo.cpuTicks {c : Cpu} (h : TurnsTo c.sys.kernel us p n j) (m : Nat) (hm : m ≤ n) :
    ∃ c', MiniRTOS.cpuTicks m c = some c' ∧ TurnsTo c'.sys.kernel us p (n - m) (j + 2 * m) ∧
      (1 ≤ m → c'.sys.kernel.current = (us.rotate (j + 2 * m)).head?) := by
  induction m with
  | zero => exact ⟨c, rfl, h, fun h => absurd h (by omega)⟩
  | succ m ih =>
      obtain ⟨c₁, hc₁, h₁, -⟩ := ih (by omega)
      rw [show n - m = n - (m + 1) + 1 by omega] at h₁
      obtain ⟨c₂, hc₂, h₂, hcur⟩ := h₁.cpuTick
      refine ⟨c₂, ?_, h₂, fun _ => hcur⟩
      rw [MiniRTOS.cpuTicks, hc₁]
      exact hc₂

/-! ## A round -/

/-- The ring at the start: the ready list as it is when the current task heads it; otherwise the first
selection goes to the head of the list, and the ring starts one task earlier. -/
theorem Kernel.TakesTurns.ring (h : k.TakesTurns p n) :
    ∃ us, us.Perm (k.readyAt p) ∧ us.Nodup ∧ TurnsTo k us p n 0 := by
  obtain ⟨L, hL⟩ := h.lists
  obtain ⟨c, hc, hcur⟩ := h.current
  have hcL : c ∈ L (.ready p) := hL.mem_readyAt.mp hc
  have hperm : (L (.ready p)).Perm (k.readyAt p) :=
    (List.perm_ext_iff_of_nodup (hL.lists.nodup _) (hL.liveNodup.filter _)).mpr
      fun t => hL.mem_readyAt.symm
  -- A more urgent ready task would contradict that the peers have the highest priority.
  have hpeers : Peers k L p n := by
    refine ⟨hL, fun q hq => ?_, fun t ht => h.canary t (hL.mem_readyAt.mpr ht), fun t ht => ?_⟩
    · refine List.eq_nil_iff_forall_not_mem.mpr fun t ht => ?_
      have hl := hL.live _ t ht
      obtain ⟨hprio, hst⟩ := (hL.placed t hl _).mp ht
      exact absurd (h.top t hl hst) (by rw [hprio]; exact not_le.mpr hq)
    · have hl := hL.live _ t ht
      exact h.delays t hl ((hL.placed t hl _).mp ht)
  obtain ⟨t, r, hp⟩ := List.exists_cons_of_ne_nil (List.ne_nil_of_mem hcL)
  by_cases hhead : c = t
  · -- The current task heads its list: the next selection rotates it once, so the ring starts
    -- with the list as it is.
    subst hhead
    refine ⟨L (.ready p), hperm, hL.lists.nodup _, L, c, r, hpeers, ⟨c, hp ▸ hcL, hcur⟩, hp, ?_⟩
    rw [rotated, if_pos hcur, hp, List.rotate_cons_succ, List.rotate_zero]
  · -- It does not: the next selection rotates nothing, so the ring starts one place earlier.
    refine ⟨(L (.ready p)).rotate r.length, (List.rotate_perm _ _).trans hperm,
      List.nodup_rotate.mpr (hL.lists.nodup _), L, t, r, hpeers, ⟨c, hp ▸ hcL, hcur⟩, hp, ?_⟩
    have hne : k.current ≠ some t := by
      rw [hcur]
      exact fun he => hhead (Option.some.inj he)
    rw [rotated, if_neg hne, List.rotate_rotate, hp, ← List.length_cons (a := t)]
    exact (List.rotate_length _).symm

/-- **Round robin.** Whenever, with well-formed task lists, `n` tasks of the highest priority are among
themselves for `n` ticks, the ticks take place, and each task is current after exactly one of them if
and only if `n` is odd. -/
theorem roundRobin_iff {c : Cpu} (hn : (c.sys.kernel.readyAt p).length = n)
    (h : c.sys.kernel.TakesTurns p n) :
    (∀ m ≤ n, ∃ c', cpuTicks m c = some c') ∧
      ((∀ t ∈ c.sys.kernel.readyAt p, ∃! m, (1 ≤ m ∧ m ≤ n) ∧
          ∃ c', cpuTicks m c = some c' ∧ c'.sys.kernel.current = some t) ↔ Odd n) := by
  obtain ⟨us, hperm, hnd, hturns⟩ := h.ring
  have hlen : us.length = n := hperm.length_eq.trans hn
  have hpos : 0 < us.length := by
    obtain ⟨cur, hcur, -⟩ := h.current
    exact List.length_pos_of_mem (hperm.mem_iff.mpr hcur)
  -- the task that is current after `m` ticks has gone round `2 * m` places
  have hlook : ∀ m t, (1 ≤ m ∧ m ≤ n) ∧ (∃ c', cpuTicks m c = some c' ∧
      c'.sys.kernel.current = some t) ↔ (1 ≤ m ∧ m ≤ us.length) ∧ (us.rotate (2 * m)).head? = some t := by
    intro m t
    rw [hlen]
    refine and_congr_right fun hm => ?_
    obtain ⟨c', hc', -, hcur⟩ := hturns.cpuTicks m hm.2
    have hcur := hcur hm.1
    rw [Nat.zero_add] at hcur
    constructor
    · rintro ⟨c'', hc'', ht⟩
      rw [hc'] at hc''
      obtain rfl := Option.some.inj hc''
      exact hcur.symm.trans ht
    · intro ht
      exact ⟨c', hc', hcur.trans ht⟩
  refine ⟨fun m hm => ?_, ?_⟩
  · obtain ⟨c', hc', -⟩ := hturns.cpuTicks m hm
    exact ⟨c', hc'⟩
  · rw [← Nat.coprime_two_left, ← hlen, ← visits_once_iff hnd hpos 2]
    simp only [hlen, hlook]
    exact forall_congr' fun t => by rw [← hperm.mem_iff]

/-- The CPU executes `t` from its saved context. -/
def Cpu.executing (s : Sys) (t : TaskId) : Cpu where
  sys := s
  psp := pspOf (s.kernel.tcb t).stackPtr
  running := t
  savedPsp x := pspOf (s.kernel.tcb x).stackPtr

/-- The part of `TakesTurns` that can be decided, for a priority of which `n` tasks are ready. -/
def Kernel.TurnsVisibly (k : Kernel) (p : Prio) (n : Nat) : Prop :=
  (k.readyAt p).length = n ∧ (∃ c ∈ k.readyAt p, k.current = some c) ∧
    (∀ t ∈ k.liveTcbs, (k.tcb t).state = .ready ∨ (k.tcb t).state = .running →
      p ≤ (k.tcb t).priority) ∧
    (∀ t ∈ k.readyAt p, k.stackMem (k.tcb t).stackBase = stackCanaryValue) ∧
    ∀ t ∈ k.liveTcbs, (k.tcb t).state ≠ .blocked

/-- The visible part of taking turns can be decided. -/
instance (k : Kernel) (p : Prio) (n : Nat) : Decidable (k.TurnsVisibly p n) :=
  inferInstanceAs (Decidable (_ ∧ _))

/-- In states with well-formed lists the visible part is all of it. -/
theorem Kernel.TurnsVisibly.takesTurns (h : k.TurnsVisibly p n) (hL : TaskListInv k L) :
    k.TakesTurns p n :=
  ⟨⟨L, hL⟩, h.2.1, h.2.2.1, h.2.2.2.1, fun t ht hfit => absurd hfit.1 (h.2.2.2.2 t ht)⟩

/-- Three tasks of priority 3, the first of which runs. -/
def threePeers : List Op :=
  [.create (taskAt 0x100 3), .create (taskAt 0x200 3), .create (taskAt 0x300 3), .selectNext]

/-- Each of three tasks of one priority is current after exactly one of three ticks. -/
theorem roundRobin_threePeers : ∃ s, Run WithoutMutexes step .boot threePeers s ∧
    ∀ t ∈ s.kernel.readyAt 3, ∃! m, (1 ≤ m ∧ m ≤ 3) ∧
      ∃ c', cpuTicks m (Cpu.executing s 0x100) = some c' ∧ c'.sys.kernel.current = some t := by
  obtain ⟨s, hr, hturns⟩ := exists_run_of_exec WithoutMutexes step Sys.boot threePeers
    (fun s => s.kernel.TurnsVisibly 3 3) (by decide +kernel)
  obtain ⟨L, hL⟩ := taskListInv_of_run Sys.boot_init hr
  exact ⟨s, hr, (roundRobin_iff (c := Cpu.executing s 0x100) hturns.1
    (hturns.takesTurns hL)).2.mpr (by decide)⟩

/-- Two tasks of priority 3, the first of which runs. -/
def twoPeers : List Op := [.create (taskAt 0x100 3), .create (taskAt 0x200 3), .selectNext]

/-- The second task is ready at the highest priority, and is current after neither of two ticks. -/
theorem roundRobin_starves : ∃ s, Run WithoutMutexes step .boot twoPeers s ∧
    s.kernel.TakesTurns 3 2 ∧ s.kernel.readyAt 3 = [0x100, 0x200] ∧
      ¬ ∀ t ∈ s.kernel.readyAt 3, ∃! m, (1 ≤ m ∧ m ≤ 2) ∧
        ∃ c', cpuTicks m (Cpu.executing s 0x100) = some c' ∧ c'.sys.kernel.current = some t := by
  obtain ⟨s, hr, hturns, hpeers, hone, htwo⟩ := exists_run_of_exec WithoutMutexes step Sys.boot twoPeers
    (fun s => s.kernel.TurnsVisibly 3 2 ∧ s.kernel.readyAt 3 = [0x100, 0x200] ∧
      (cpuTicks 1 (Cpu.executing s 0x100)).map (fun c => c.sys.kernel.current) = some (some 0x100) ∧
      (cpuTicks 2 (Cpu.executing s 0x100)).map (fun c => c.sys.kernel.current) = some (some 0x100))
    (by decide +kernel)
  obtain ⟨L, hL⟩ := taskListInv_of_run Sys.boot_init hr
  refine ⟨s, hr, hturns.takesTurns hL, hpeers, fun h => ?_⟩
  obtain ⟨m, ⟨⟨hlo, hhi⟩, c', hc', hcur⟩, -⟩ := h 0x200 (by rw [hpeers]; simp)
  obtain rfl | rfl : m = 1 ∨ m = 2 := by omega
  · rw [hc', Option.map_some, hcur] at hone
    exact absurd hone (by decide)
  · rw [hc', Option.map_some, hcur] at htwo
    exact absurd htwo (by decide)

end MiniRTOS
