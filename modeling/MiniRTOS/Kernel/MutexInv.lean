import MiniRTOS.Kernel.MutexCalls
import MiniRTOS.Kernel.SystemFrames
import MiniRTOS.Kernel.SystemInv

/-! # Mutual exclusion over whole runs

`LockInv` ties the fields of each mutex to its wait list, to the lock calls in progress and to the
results its callers have seen. It is kept by every step but one: the full release of a mutex by an
owner whose priority was boosted. That release gives the RUNNING owner a new priority and leaves it in
the ready list of the old one, and from then on the task lists are not reliable. -/

namespace MiniRTOS

open PtrList Runs

variable {s s' s₀ : Sys} {L L' : Layout} {op : Op} {c : TaskId} {m : Addr}

/-! ## The runs -/

/-- The mutex that a step locks. -/
def Op.locked : Op → Option Addr
  | .mutexLock m _ => some m
  | _ => none

/-- The mutex that a step unlocks. -/
def Op.unlocked : Op → Option Addr
  | .mutexUnlock m => some m
  | _ => none

/-- **A full release by a boosted owner**: `os_mutex_unlock` by the owner, at lock count one, with a
priority that is not the one the mutex remembers. -/
def Sys.BoostedRelease (s : Sys) (op : Op) : Prop :=
  ∃ m ∈ op.unlocked, (s.kernel.mutexes m).owner = s.kernel.current ∧ (s.kernel.mutexes m).lastLock ∧
    ∃ c ∈ s.kernel.current, s.kernel.prio c ≠ (s.kernel.mutexes m).originalPrio

/-- Whether a step is a boosted release can be decided. -/
instance (s : Sys) (op : Op) : Decidable (s.BoostedRelease op) :=
  inferInstanceAs (Decidable (∃ m ∈ op.unlocked, _))

/-- **The proper use of mutexes**: no held mutex is initialised again, no task deletes itself while it
owns one, and no owner locks `2^32` deep. -/
def Sys.ProperUse (s : Sys) (op : Op) : Prop :=
  op.Allowed s ∧ (∀ m ∈ op.newMutex, (s.kernel.mutexes m).owner = none) ∧
    (op.deletes = true → ∀ c ∈ s.kernel.current, ∀ m, (s.kernel.mutexes m).owner ≠ some c) ∧
    ∀ m ∈ op.locked, (s.kernel.mutexes m).owner = s.kernel.current →
      (s.kernel.mutexes m).lockCount + 1 < 2 ^ 32

/-- The uses without deletion, which can be decided. -/
def Sys.PlainUse (s : Sys) (op : Op) : Prop :=
  op.Allowed s ∧ (∀ m ∈ op.newMutex, (s.kernel.mutexes m).owner = none) ∧ op.deletes = false ∧
    ∀ m ∈ op.locked, (s.kernel.mutexes m).owner = s.kernel.current →
      (s.kernel.mutexes m).lockCount + 1 < 2 ^ 32

/-- Whether a use is plain can be decided. -/
instance (s : Sys) (op : Op) : Decidable (s.PlainUse op) := inferInstanceAs (Decidable (_ ∧ _))

/-- A plain use is a proper one. -/
theorem Sys.PlainUse.proper (h : s.PlainUse op) : s.ProperUse op := by
  refine ⟨h.1, h.2.1, fun hdel => ?_, h.2.2.2⟩
  rw [h.2.2.1] at hdel
  cases hdel

/-- The steps of the runs below. -/
def SafeStep (s : Sys) (op : Op) : Prop := s.ProperUse op ∧ ¬ s.BoostedRelease op

/-! ## Who got how much -/

/-- The event counts as one lock of `m` by `t`. -/
def Event.takes (m : Addr) (t : TaskId) : Event → Nat
  | .lockDone m' t' .ok => if m' = m ∧ t' = t then 1 else 0
  | .handOff m' t' => if m' = m ∧ t' = t then 1 else 0
  | _ => 0

/-- The event counts as one unlock of `m` by `t`. -/
def Event.gives (m : Addr) (t : TaskId) : Event → Nat
  | .unlockDone m' t' .ok => if m' = m ∧ t' = t then 1 else 0
  | _ => 0

/-- How often `t` got `m`. -/
def taken (m : Addr) (t : TaskId) (log : List Event) : Nat := (log.map (Event.takes m t)).sum

/-- How often `t` gave `m` back. -/
def given (m : Addr) (t : TaskId) (log : List Event) : Nat := (log.map (Event.gives m t)).sum

/-- Locks are counted along a log. -/
@[simp] theorem taken_append (m : Addr) (t : TaskId) (l es : List Event) :
    taken m t (l ++ es) = taken m t l + taken m t es := by simp [taken]

/-- So are releases. -/
@[simp] theorem given_append (m : Addr) (t : TaskId) (l es : List Event) :
    given m t (l ++ es) = given m t l + given m t es := by simp [given]

/-- The locks of a first event and the rest. -/
@[simp] theorem taken_cons (m : Addr) (t : TaskId) (e : Event) (es : List Event) :
    taken m t (e :: es) = e.takes m t + taken m t es := by simp [taken]

/-- The releases of a first event and the rest. -/
@[simp] theorem given_cons (m : Addr) (t : TaskId) (e : Event) (es : List Event) :
    given m t (e :: es) = e.gives m t + given m t es := by simp [given]

/-- An empty log has no locks. -/
@[simp] theorem taken_nil (m : Addr) (t : TaskId) : taken m t [] = 0 := rfl

/-- Nor releases. -/
@[simp] theorem given_nil (m : Addr) (t : TaskId) : given m t [] = 0 := rfl

/-- Events that are not about mutexes count nothing. -/
theorem counts_eq_zero {es : List Event} (h : ∀ e ∈ es, e.onMutex = false) (m : Addr) (t : TaskId) :
    taken m t es = 0 ∧ given m t es = 0 := by
  induction es with
  | nil => exact ⟨rfl, rfl⟩
  | cons e es ih =>
      obtain ⟨h₁, h₂⟩ := ih fun x hx => h x (List.mem_cons_of_mem _ hx)
      have he := h e (List.mem_cons_self ..)
      cases e with
      | lockDone _ _ _ => cases he
      | handOff _ _ => cases he
      | unlockDone _ _ _ => cases he
      | _ => exact ⟨by simpa [Event.takes] using h₁, by simpa [Event.gives] using h₂⟩

/-! ## The invariant -/

/-- How often `t` holds the mutex. -/
def Mutex.heldBy (mu : Mutex) (t : TaskId) : Nat := if mu.owner = some t then mu.lockCount else 0

/-- The fields of one mutex, its waiters `l`, the calls in progress and the log agree. -/
structure MutexOk (mu : Mutex) (m : Addr) (l : List TaskId) (call : TaskId → Call)
    (log : List Event) : Prop where
  /-- Free means not locked. -/
  free : mu.owner = none ↔ mu.lockCount = 0
  /-- The count is a 32-bit value. -/
  bound : mu.lockCount < 2 ^ 32
  /-- Only a held mutex has waiters. -/
  held : l ≠ [] → mu.owner ≠ none
  /-- The owner does not wait for itself. -/
  notSelf : ∀ o, mu.owner = some o → o ∉ l
  /-- A task inside a lock call waits, or has been handed the mutex. -/
  calls : ∀ t, call t = .mutexLock m → t ∈ l ∨ mu.owner = some t
  /-- The results its callers have seen. -/
  ledger : ∀ t, taken m t log = given m t log + mu.heldBy t

/-- The part of the invariant about tasks. -/
structure TasksOk (k : Kernel) (L : Layout) : Prop where
  /-- The task lists. -/
  lists : TaskListInv k L
  /-- Only the current task is RUNNING. -/
  running : ∀ t ∈ k.liveTcbs, (k.tcb t).state = .running → k.current = some t
  /-- No wait has timed out. -/
  timedOut : ∀ t ∈ k.liveTcbs, (k.tcb t).timedOut = false
  /-- Owners are alive. -/
  owners : ∀ m o, (k.mutexes m).owner = some o → o ∈ k.liveTcbs ∧ (k.tcb o).state ≠ .deleted

/-- **The invariant.** -/
structure LockInv (s : Sys) (L : Layout) : Prop where
  /-- Tasks and lists. -/
  tasks : TasksOk s.kernel L
  /-- Every mutex. -/
  mutexes : ∀ m, MutexOk (s.kernel.view.locks m) m (L (.wait (.mutex m))) s.call s.log

/-! ## Steps that leave the mutexes alone -/

variable {k k' : Kernel} {L₀ : Layout}

/-- What a mild step keeps. -/
theorem TasksOk.calm (h : TasksOk k L) (h' : TaskListInv k' L') (hcalm : Mild k L₀ k' L')
    (ho : ∀ m o, (k'.mutexes m).owner = some o → o ∈ k.liveTcbs ∧ (k.tcb o).state ≠ .deleted) :
    TasksOk k' L' := by
  refine ⟨h', fun t ht hr => ?_, fun t ht => ?_, fun m o hm => ?_⟩
  · obtain ⟨ht', hr'⟩ := hcalm.running t ht hr
    rw [hcalm.current]
    exact h.running t ht' hr'
  · by_contra hto
    obtain ⟨ht', hto'⟩ := hcalm.timedOut t ht (by simpa using hto)
    rw [h.timedOut t ht'] at hto'
    cases hto'
  · obtain ⟨hl, hs⟩ := ho m o hm
    exact hcalm.live o hl hs

/-- Selecting the next task keeps owners alive and leaves one task RUNNING. -/
theorem TasksOk.selectNext (h : TasksOk k L) :
    ∃ L', TasksOk (osSchedSelectNext k) L' ∧ ∀ m, L' (.wait (.mutex m)) = L (.wait (.mutex m)) := by
  rcases h.lists.osSchedSelectNext with ⟨-, he⟩ | ⟨p, t, r, n, hp, -, hn, h', hsw⟩
  · rw [he]
    exact ⟨L, h, fun _ => rfl⟩
  have hcur : (osSchedSelectNext k).current = some n := by
    have := congrArg Kernel.current hsw.data
    exact this
  have hlive : (osSchedSelectNext k).liveTcbs = k.liveTcbs := by
    have := congrArg Kernel.liveTcbs hsw.data
    exact this
  refine ⟨_, ⟨h', fun x hx hr => ?_, fun x hx => ?_, fun m o hm => ?_⟩,
    fun m => Layout.set_wait _ (by simp) _ _⟩
  · -- a RUNNING task was current, and the current task is RUNNING no longer unless it was selected
    by_cases hxn : x = n
    · rw [hcur, hxn]
    · rw [hsw.others x hxn] at hr
      split at hr
      · cases hr
      · next hnot => exact absurd ⟨h.running x (hlive ▸ hx) hr, hr⟩ hnot
  · rw [hsw.same x]
    exact h.timedOut x (hlive ▸ hx)
  · have howner : (k.mutexes m).owner = some o := by
      have hl := congrArg (fun v => (v.locks m).owner) (view_osSchedSelectNext k)
      exact hl.symm.trans hm
    obtain ⟨hl, hs⟩ := h.owners m o howner
    refine ⟨hlive ▸ hl, ?_⟩
    by_cases hon : o = n
    · rw [hon, hsw.next]
      simp
    · rw [hsw.others o hon]
      split
      · simp
      · exact hs

/-- A task that owns no mutex deletes itself. -/
theorem TasksOk.deleteSelf (h : TasksOk k L) (hc : k.current = some c) (ht : c ∈ k.liveTcbs)
    (hs : (k.tcb c).state = .ready ∨ (k.tcb c).state = .running)
    (hfree : ∀ m, (k.mutexes m).owner ≠ some c) :
    ∃ k' L', osTaskDeleteSelf k = some k' ∧ TasksOk k' L' ∧
      ∀ m, L' (.wait (.mutex m)) = L (.wait (.mutex m)) := by
  obtain ⟨k', hk', h', hd'⟩ := h.lists.deleteSelf hc ht hs
  have htcb : k'.tcb = Function.update k.tcb c { k.tcb c with state := .deleted, pendingDelete := true } :=
    tcb_of_data hd'
  have hcur : k'.current = k.current := (current_of_data hd' : _)
  have hlive : k'.liveTcbs = k.liveTcbs := (liveTcbs_of_data hd' : _)
  refine ⟨k', _, hk', ⟨h', fun x hx hr => ?_, fun x hx => ?_, fun m o hm => ?_⟩, fun m => ?_⟩
  · rw [htcb, Function.update_apply] at hr
    split at hr
    · cases hr
    · rw [hcur]
      exact h.running x (hlive ▸ hx) hr
  · rw [htcb, Function.update_apply]
    split
    · next hxc => exact hxc ▸ h.timedOut x (hlive ▸ hx)
    · exact h.timedOut x (hlive ▸ hx)
  · have howner : (k.mutexes m).owner = some o := by
      have hv : k'.view = k.view := view_osTaskDeleteSelf hk'
      have hl := congrArg (fun v => (v.locks m).owner) hv
      exact hl.symm.trans hm
    obtain ⟨hl, hs'⟩ := h.owners m o howner
    have hoc : o ≠ c := fun hoc => hfree m (hoc ▸ howner)
    refine ⟨hlive ▸ hl, ?_⟩
    rw [htcb, Function.update_of_ne hoc]
    exact hs'
  · rw [Layout.set_wait _ (by simp), Layout.remove_wait _ (by simp)]

/-- The tasks after a step that is no mutex call. -/
theorem TasksOk.step (h : TasksOk s.kernel L) (hop : s.ProperUse op) (hm : op.mutex = none)
    (hs : step s op = some s') :
    ∃ L', TasksOk s'.kernel L' ∧ ∀ m, L' (.wait (.mutex m)) = L (.wait (.mutex m)) := by
  obtain ⟨ha, -, hdel, -⟩ := hop
  have hf := step_mutexFrame ha hm hs
  cases hcalm : op.calm with
  | true =>
      obtain ⟨s'', L', hs'', h', hc'⟩ := step_calm h.lists ha hcalm (h.lists.canary_of_step hs)
      obtain rfl : s' = s'' := Option.some.inj (hs.symm.trans hs'')
      refine ⟨L', h.calm h' hc' fun m o ho => h.owners m o ?_, hc'.waits⟩
      have hl := congrArg (fun f => (f m).owner) hf.locks
      exact hl.symm.trans ho
  | false =>
      cases op with
      | mutexLock m n => cases hm
      | mutexUnlock m => cases hm
      | deleteSelf =>
          obtain ⟨c, hc, hl, hst, -⟩ := Sys.Permits.task ha.1
          obtain ⟨k', L', hk', h', hw⟩ := h.deleteSelf hc hl hst (hdel rfl c hc)
          obtain ⟨k'', hk'', rfl⟩ := Option.map_eq_some_iff.mp hs
          obtain rfl : k' = k'' := Option.some.inj (hk'.symm.trans hk'')
          exact ⟨L', h', hw⟩
      | selectNext =>
          obtain rfl := Option.some.inj hs
          exact h.selectNext
      | _ => cases hcalm

/-- Events that are not about mutexes, and lock calls that end. -/
theorem MutexOk.mono {mu : Mutex} {l : List TaskId} {call call' : TaskId → Call}
    {log es : List Event} (h : MutexOk mu m l call log)
    (hcall : ∀ t, call' t = .mutexLock m → call t = .mutexLock m)
    (hes : ∀ e ∈ es, e.onMutex = false) : MutexOk mu m l call' (log ++ es) := by
  refine ⟨h.free, h.bound, h.held, h.notSelf, fun t ht => h.calls t (hcall t ht), fun t => ?_⟩
  obtain ⟨h₁, h₂⟩ := counts_eq_zero hes m t
  rw [taken_append, given_append, h₁, h₂]
  exact h.ledger t

/-- **Steps on other things keep the invariant.** -/
theorem LockInv.frame (h : LockInv s L) (hop : s.ProperUse op) (hm : op.mutex = none)
    (hs : step s op = some s') : ∃ L', LockInv s' L' ∧
      ∀ m, L' (.wait (.mutex m)) = L (.wait (.mutex m)) := by
  obtain ⟨L', h', hw⟩ := h.tasks.step hop hm hs
  have hf := step_mutexFrame hop.1 hm hs
  obtain ⟨es, hlog, hes, -⟩ := hf.events
  refine ⟨L', ⟨h', fun m => ?_⟩, hw⟩
  rw [hf.locks, hw, hlog]
  exact (h.mutexes m).mono (fun t ht => hf.calls t m ht) hes

/-! ## One mutex through lock and unlock -/

namespace MutexOk

variable {mu : Mutex} {l r : List TaskId} {call : TaskId → Call} {log es : List Event} {o : TaskId}

/-- A free mutex has no waiters. -/
theorem waiters_nil (h : MutexOk mu m l call log) (ho : mu.owner = none) : l = [] := by
  by_contra hl
  exact h.held hl ho

/-- The last lock is the only one. -/
theorem lockCount_eq_one (h : MutexOk mu m l call log) (ho : mu.owner = some o)
    (hlast : mu.lastLock) : mu.lockCount = 1 := by
  have hpos : mu.lockCount ≠ 0 := fun hz => by simp [h.free.mpr hz] at ho
  have hb := h.bound
  unfold Mutex.lastLock at hlast
  omega

/-- Results that count nothing for this mutex. -/
theorem events (h : MutexOk mu m l call log)
    (hes : ∀ t, taken m t es = 0 ∧ given m t es = 0) : MutexOk mu m l call (log ++ es) := by
  refine ⟨h.free, h.bound, h.held, h.notSelf, h.calls, fun t => ?_⟩
  rw [taken_append, given_append, (hes t).1, (hes t).2]
  exact h.ledger t

/-- A task takes a free mutex. -/
theorem acquire (h : MutexOk mu m l call log) (ho : mu.owner = none) (p : Prio) :
    MutexOk { mu with owner := some c, lockCount := 1, originalPrio := p } m l call
      (log ++ [.lockDone m c .ok]) := by
  have hl := h.waiters_nil ho
  subst hl
  refine ⟨by simp, by simp, fun hne => absurd rfl hne, fun o _ => List.not_mem_nil, fun t ht => ?_,
    fun t => ?_⟩
  · rcases h.calls t ht with hmem | hown
    · cases hmem
    · rw [ho] at hown
      cases hown
  · have hled := h.ledger t
    by_cases htc : c = t
    · simp [Mutex.heldBy, ho, Event.takes, Event.gives, htc] at hled ⊢
      omega
    · simpa [Mutex.heldBy, ho, Event.takes, Event.gives, htc] using hled

/-- The owner locks again. -/
theorem lockAgain (h : MutexOk mu m l call log) (ho : mu.owner = some c)
    (hb : mu.lockCount + 1 < 2 ^ 32) :
    MutexOk { mu with lockCount := (mu.lockCount + 1) % 2 ^ 32 } m l call
      (log ++ [.lockDone m c .ok]) := by
  rw [Nat.mod_eq_of_lt hb]
  refine ⟨by simp [ho], hb, h.held, h.notSelf, h.calls, fun t => ?_⟩
  have hled := h.ledger t
  by_cases htc : c = t
  · simp [Mutex.heldBy, ho, Event.takes, Event.gives, htc] at hled ⊢
    omega
  · simpa [Mutex.heldBy, ho, Event.takes, Event.gives, htc] using hled

/-- A task queues up behind the owner. -/
theorem enqueue (h : MutexOk mu m (l ++ r) call log) (ho : mu.owner = some o) (hne : o ≠ c) :
    MutexOk mu m (l ++ c :: r) (Function.update call c (.mutexLock m)) log := by
  refine ⟨h.free, h.bound, fun _ => by simp [ho], fun x hx => ?_, fun t ht => ?_, h.ledger⟩
  · have hxo : x = o := Option.some.inj (hx.symm.trans ho)
    have hnot := h.notSelf x hx
    simp only [List.mem_append, List.mem_cons, not_or] at hnot ⊢
    exact ⟨hnot.1, hxo ▸ hne, hnot.2⟩
  · rw [Function.update_apply] at ht
    split at ht
    · next htc =>
        left
        simp [htc]
    · rcases h.calls t ht with hmem | hown
      · left
        simp only [List.mem_append, List.mem_cons] at hmem ⊢
        tauto
      · exact Or.inr hown

/-- The owner unlocks one of several locks. -/
theorem unlockAgain (h : MutexOk mu m l call log) (ho : mu.owner = some c) (hlast : ¬ mu.lastLock) :
    MutexOk { mu with lockCount := (mu.lockCount + (2 ^ 32 - 1)) % 2 ^ 32 } m l call
      (log ++ [.unlockDone m c .ok]) := by
  have hpos : mu.lockCount ≠ 0 := fun hz => by simp [h.free.mpr hz] at ho
  have hb := h.bound
  have hcount : (mu.lockCount + (2 ^ 32 - 1)) % 2 ^ 32 = mu.lockCount - 1 := by omega
  have htwo : mu.lockCount - 1 ≠ 0 := by
    intro hz
    exact hlast (hcount.trans hz)
  rw [hcount]
  refine ⟨by simp [ho, htwo], show mu.lockCount - 1 < 2 ^ 32 by omega, h.held, h.notSelf, h.calls,
    fun t => ?_⟩
  have hled := h.ledger t
  by_cases htc : c = t
  · simp [Mutex.heldBy, ho, Event.takes, Event.gives, htc] at hled ⊢
    omega
  · simpa [Mutex.heldBy, ho, Event.takes, Event.gives, htc] using hled

/-- The owner releases a mutex that nobody waits for. -/
theorem releaseFree (h : MutexOk mu m [] call log) (ho : mu.owner = some c) (hlast : mu.lastLock)
    (hidle : call c = .idle) :
    MutexOk { mu with owner := none, lockCount := 0 } m [] call (log ++ [.unlockDone m c .ok]) := by
  have hone := h.lockCount_eq_one ho hlast
  refine ⟨by simp, by simp, fun hne => absurd rfl hne, fun o _ => List.not_mem_nil, fun t ht => ?_,
    fun t => ?_⟩
  · rcases h.calls t ht with hmem | hown
    · cases hmem
    · obtain rfl : c = t := Option.some.inj (ho.symm.trans hown)
      rw [hidle] at ht
      cases ht
  · have hled := h.ledger t
    by_cases htc : c = t
    · simp [Mutex.heldBy, ho, hone, Event.takes, Event.gives, htc] at hled ⊢
      omega
    · simpa [Mutex.heldBy, ho, Event.takes, Event.gives, htc] using hled

/-- The owner releases a mutex and the first waiter gets it. -/
theorem handOver {w : TaskId} (h : MutexOk mu m (w :: r) call log) (hnd : (w :: r).Nodup)
    (ho : mu.owner = some c) (hlast : mu.lastLock) (hidle : call c = .idle) (p : Prio) :
    MutexOk { mu with owner := some w, lockCount := 1, originalPrio := p } m r call
      (log ++ [.unlockDone m c .ok, .handOff m w]) := by
  have hone := h.lockCount_eq_one ho hlast
  have hwc : w ≠ c := by
    rintro rfl
    exact h.notSelf w ho (List.mem_cons_self ..)
  refine ⟨by simp, by simp, fun _ => by simp, fun o hown => ?_, fun t ht => ?_, fun t => ?_⟩
  · obtain rfl : w = o := Option.some.inj hown
    exact (List.nodup_cons.mp hnd).1
  · rcases h.calls t ht with hmem | hown
    · rcases List.mem_cons.mp hmem with rfl | hmem
      · exact Or.inr rfl
      · exact Or.inl hmem
    · obtain rfl : c = t := Option.some.inj (ho.symm.trans hown)
      rw [hidle] at ht
      cases ht
  · have hled := h.ledger t
    by_cases htc : c = t
    · subst htc
      simp [Mutex.heldBy, ho, hone, Event.takes, Event.gives, hwc] at hled ⊢
      omega
    · simp [Mutex.heldBy, ho, Event.takes, Event.gives, htc] at hled ⊢
      omega

end MutexOk

/-! ## Mutex calls -/

/-- Results of calls on `m` count nothing for another mutex. -/
theorem counts_of_ne {x : Addr} (hx : x ≠ m) (t : TaskId) :
    (∀ a, taken x t [.lockDone m c a] = 0 ∧ given x t [.lockDone m c a] = 0) ∧
      ∀ a w, taken x t (.unlockDone m c a :: handOffEvents m w) = 0 ∧
        given x t (.unlockDone m c a :: handOffEvents m w) = 0 := by
  have hmx : m ≠ x := Ne.symm hx
  refine ⟨fun a => ?_, fun a w => ?_⟩
  · cases a <;> simp [Event.takes, Event.gives, hmx]
  · cases a <;> cases w <;> simp [handOffEvents, Event.takes, Event.gives, hmx]

/-- **A step on one mutex**: what is to be shown for it, and what for the others. -/
theorem LockInv.update (es : List Event) (h : LockInv s L) (h' : TaskListInv s'.kernel L')
    (hcalm : Mild s.kernel L₀ s'.kernel L') (hL₀ : ∀ x ≠ m, L₀ (.wait (.mutex x)) = L (.wait (.mutex x)))
    (hlocks : ∀ x ≠ m, s'.kernel.view.locks x = s.kernel.view.locks x)
    (hcall : ∀ x ≠ m, ∀ t, s'.call t = .mutexLock x → s.call t = .mutexLock x)
    (hlog : s'.log = s.log ++ es) (hes : ∀ x ≠ m, ∀ t, taken x t es = 0 ∧ given x t es = 0)
    (howner : ∀ o, (s'.kernel.view.locks m).owner = some o →
      o ∈ s.kernel.liveTcbs ∧ (s.kernel.tcb o).state ≠ .deleted)
    (hm : MutexOk (s'.kernel.view.locks m) m (L₀ (.wait (.mutex m))) s'.call s'.log) :
    LockInv s' L' := by
  refine ⟨h.tasks.calm h' hcalm fun x o hx => ?_, fun x => ?_⟩
  · have hx' : (s'.kernel.view.locks x).owner = some o := hx
    by_cases hxm : x = m
    · exact howner o (hxm ▸ hx')
    · rw [hlocks x hxm] at hx'
      exact h.tasks.owners x o hx'
  · rw [hcalm.waits]
    by_cases hxm : x = m
    · exact hxm ▸ hm
    · rw [hlocks x hxm, hL₀ x hxm, hlog]
      have hx := (h.mutexes x).events (hes x hxm)
      exact ⟨hx.free, hx.bound, hx.held, hx.notSelf, fun t ht => hx.calls t (hcall x hxm t ht),
        hx.ledger⟩

/-- Initialising a mutex that nobody holds. -/
theorem LockInv.create (h : LockInv s L) (hop : s.ProperUse (.mutexCreate m))
    (hs : step s (.mutexCreate m) = some s') : ∃ L', LockInv s' L' := by
  have howner : (s.kernel.view.locks m).owner = none := hop.2.1 m rfl
  obtain ⟨s'', L', hs'', h', hc'⟩ := step_calm h.tasks.lists hop.1 rfl (by simp)
  obtain rfl : s' = s'' := Option.some.inj (hs.symm.trans hs'')
  obtain rfl := Option.some.inj hs
  -- only the record of `m` is new; every other lock is as it was
  have hlock : ∀ x, (s.kernel.setMutex m ⟨none, 0, 0, none⟩).view.locks x
      = if x = m then ⟨none, 0, 0, none⟩ else s.kernel.view.locks x := by
    intro x
    rw [view_setMutex, View.locks_setLock]
  have hnew := (hlock m).trans (if_pos rfl)
  refine ⟨L', h.update (m := m) [] h' hc' (fun _ _ => rfl)
    (fun x hx => (hlock x).trans (if_neg hx)) (fun _ _ _ ht => ht) (List.append_nil _).symm (by simp)
    (fun o ho => ?_) ?_⟩
  · have ho' : ((s.kernel.setMutex m ⟨none, 0, 0, none⟩).view.locks m).owner = some o := ho
    rw [hnew] at ho'
    cases ho'
  · show MutexOk ((s.kernel.setMutex m ⟨none, 0, 0, none⟩).view.locks m) m _ s.call s.log
    -- unowned before and after, so the ledger of `m` stays balanced
    have hm := h.mutexes m
    have hnil := hm.waiters_nil howner
    rw [hnil] at hm
    rw [hnew, hnil]
    refine ⟨by simp, by simp, fun hne => absurd rfl hne, fun o ho => (by cases ho), fun t ht => ?_,
      fun t => ?_⟩
    · have hcalls := hm.calls t ht
      rw [howner] at hcalls
      exact hcalls
    · have hled := hm.ledger t
      simpa [Mutex.heldBy, howner] using hled

/-- The owner of a mutex that another task wants is not RUNNING. -/
theorem TasksOk.owner_not_running (h : TasksOk k L) (hc : k.current = some c) {o : TaskId}
    (ho : (k.mutexes m).owner = some o) (hne : o ≠ c) :
    o ∈ k.liveTcbs ∧ (k.tcb o).state ≠ .running := by
  refine ⟨(h.owners m o ho).1, fun hr => hne ?_⟩
  have hcur := h.running o (h.owners m o ho).1 hr
  exact Option.some.inj (hcur.symm.trans hc)

/-- The layout after a lock call. -/
theorem LockInv.lock_layout {n : Nat} (h : LockInv s L) (hc : s.kernel.current = some c)
    (ht : c ∈ s.kernel.liveTcbs)
    (hst : (s.kernel.tcb c).state = .ready ∨ (s.kernel.tcb c).state = .running)
    (hs : step s (.mutexLock m n) = some s') :
    (s'.call = s.call ∧ CalmInv s.kernel L s'.kernel) ∨
      (s'.call = Function.update s.call c (.mutexLock m) ∧
        ∃ L' l r, Enqueued (.mutex m) c s.kernel L s'.kernel L' l r) := by
  obtain ⟨c', k, r, hc', hk, rfl⟩ := Sys.blockingCall_inv hs
  obtain rfl : c = c' := Option.some.inj (hc.symm.trans hc')
  obtain ⟨k', r', hk', hcase⟩ := h.tasks.lists.osMutexLock (m := m) n hc ht hst
    fun o ho hne => h.tasks.owner_not_running hc ho hne
  obtain ⟨rfl, rfl⟩ := Prod.mk.inj (Option.some.inj (hk.symm.trans hk'))
  rcases hcase with ⟨⟨a, rfl⟩, hcalm⟩ | ⟨rfl, henq⟩
  · exact Or.inl ⟨rfl, hcalm⟩
  · exact Or.inr ⟨rfl, henq⟩

/-- A running call of another task, or of another mutex, is not affected by a new lock call. -/
theorem call_of_update {call : TaskId → Call} {x : Addr} (hx : x ≠ m) (t : TaskId)
    (ht : Function.update call c (.mutexLock m) t = .mutexLock x) : call t = .mutexLock x := by
  rw [Function.update_apply] at ht
  split at ht
  · exact absurd (Call.mutexLock.inj ht).symm hx
  · exact ht

/-- **A lock call keeps the invariant.** -/
theorem LockInv.lock {n : Nat} (h : LockInv s L) (hop : s.ProperUse (.mutexLock m n))
    (hs : step s (.mutexLock m n) = some s') : ∃ L', LockInv s' L' := by
  obtain ⟨c, hc, hl, hst, hidle⟩ := Sys.Permits.task hop.1.1
  have hm := h.mutexes m
  have hcur : c ∈ s.kernel.liveTcbs ∧ (s.kernel.tcb c).state ≠ .deleted := by
    refine ⟨hl, ?_⟩
    rcases hst with hst | hst <;> simp [hst]
  -- a call that returned did not block, and the other way round
  have hnotBoth : s'.call = s.call → s'.call ≠ Function.update s.call c (.mutexLock m) := by
    intro h₁ h₂
    have hc' := congrFun (h₁.symm.trans h₂) c
    rw [Function.update_self, hidle] at hc'
    cases hc'
  have hcalm : s'.call = s.call → CalmInv s.kernel L s'.kernel := by
    intro hcall
    rcases h.lock_layout hc hl hst hs with ⟨-, hcalm⟩ | ⟨hcall', -⟩
    · exact hcalm
    · exact absurd hcall' (hnotBoth hcall)
  have hlocks := fun x (hx : x ≠ m) => step_locks_of_ne (m := x) hop.1
    (fun hxm => hx (Option.some.inj hxm).symm) hs
  cases step_mutexLock hc hs with
  -- nobody owned it: the caller takes it and its priority is saved
  | free howner hview hcall hlog =>
      obtain ⟨L', h', hc'⟩ := hcalm hcall
      have hlock : s'.kernel.view.locks m = { s.kernel.view.locks m with
          owner := some c, lockCount := 1, originalPrio := s.kernel.view.prios c } := by
        rw [hview, View.locks_setLock, if_pos rfl]
      refine ⟨L', h.update _ h' hc'.toMild (fun _ _ => rfl) hlocks (fun _ _ _ => by rw [hcall]; exact id) hlog
        (fun x hx t => (counts_of_ne hx t).1 _) (fun o ho => ?_) ?_⟩
      · rw [hlock] at ho
        exact Option.some.inj ho ▸ hcur
      · rw [hlock, hcall, hlog]
        exact hm.acquire howner _
  | again howner hview hcall hlog =>
      obtain ⟨L', h', hc'⟩ := hcalm hcall
      have hlock : s'.kernel.view.locks m = { s.kernel.view.locks m with
          lockCount := ((s.kernel.view.locks m).lockCount + 1) % 2 ^ 32 } := by
        rw [hview, View.locks_setLock, if_pos rfl]
      refine ⟨L', h.update _ h' hc'.toMild (fun _ _ => rfl) hlocks (fun _ _ _ => by rw [hcall]; exact id) hlog
        (fun x hx t => (counts_of_ne hx t).1 _) (fun o ho => ?_) ?_⟩
      · rw [hlock] at ho
        exact h.tasks.owners m o ho
      · rw [hlock, hcall, hlog]
        exact hm.lockAgain howner (hop.2.2.2 m rfl (howner.trans hc.symm))
  -- owned by another, no timeout: the owner may be boosted, and the lock is unchanged
  | refused o howner hne hview hcall r hr hlog =>
      obtain ⟨L', h', hc'⟩ := hcalm hcall
      have hlock : s'.kernel.view.locks m = s.kernel.view.locks m := by
        rw [hview, View.boost]
        split <;> rfl
      refine ⟨L', h.update _ h' hc'.toMild (fun _ _ => rfl) hlocks (fun _ _ _ => by rw [hcall]; exact id) hlog
        (fun x hx t => (counts_of_ne hx t).1 _) (fun o' ho' => ?_) ?_⟩
      · rw [hlock] at ho'
        exact h.tasks.owners m o' ho'
      · rw [hlock, hcall, hlog]
        refine hm.events fun t => ?_
        cases r <;> simp [Event.takes, Event.gives] at hr ⊢
  -- owned by another: the caller joins the wait list at its priority
  | blocked o howner hne hview hcall hlog =>
      have hlock : s'.kernel.view.locks m = s.kernel.view.locks m := by
        rw [hview, View.boost]
        split <;> rfl
      rcases h.lock_layout hc hl hst hs with ⟨hcall', -⟩ | ⟨-, L', l, r, hq⟩
      · exact absurd hcall (hnotBoth hcall')
      refine ⟨L', h.update (m := m) [] hq.inv hq.calm.toMild (fun x hx => ?_) hlocks
        (fun x hx t ht => call_of_update hx t (hcall ▸ ht)) (by rw [hlog, List.append_nil]) (by simp)
        (fun o' ho' => ?_) ?_⟩
      · rw [Layout.set_of_ne _ _ (by simpa using hx)]
      · rw [hlock] at ho'
        exact h.tasks.owners m o' ho'
      · rw [hlock, hcall, hlog, Layout.set_self]
        rw [hq.split] at hm
        exact hm.enqueue howner hne

/-- The layout after an unlock call, with the hand-off in the log. -/
theorem LockInv.unlock_layout (h : LockInv s L) (hsafe : ¬ s.BoostedRelease (.mutexUnlock m))
    (hc : s.kernel.current = some c) (ht : c ∈ s.kernel.liveTcbs)
    (hs : step s (.mutexUnlock m) = some s') :
    ∃ a w, s'.log = s.log ++ .unlockDone m c a :: handOffEvents m w ∧
      (w = none ∧ CalmInv s.kernel L s'.kernel ∨
        ∃ t r L', w = some t ∧ HandedOff m s.kernel L s'.kernel L' t r) := by
  obtain ⟨c', hc', hs⟩ := Option.bind_eq_some_iff.mp hs
  obtain rfl : c = c' := Option.some.inj (hc.symm.trans hc')
  obtain ⟨⟨k, a, w⟩, hk, hs⟩ := Option.bind_eq_some_iff.mp hs
  obtain ⟨hkernel, hlog⟩ : s'.kernel = k ∧
      s'.log = s.log ++ .unlockDone m c a :: handOffEvents m w := by
    obtain rfl := Option.some.inj hs
    cases w with
    | none => exact ⟨rfl, rfl⟩
    | some w => exact ⟨rfl, List.append_assoc ..⟩
  refine ⟨a, w, hlog, ?_⟩
  rw [hkernel]
  obtain ⟨k', a', hcase⟩ := h.tasks.lists.osMutexUnlock (m := m) hc ht fun ho hlast => by
    by_contra hp
    exact hsafe ⟨m, rfl, ho.trans hc.symm, hlast, c, hc, hp⟩
  rcases hcase with ⟨hk', hcalm⟩ | ⟨w', r, L', hk', hw⟩
  · obtain ⟨rfl, h₂⟩ := Prod.mk.inj (Option.some.inj (hk.symm.trans hk'))
    exact Or.inl ⟨(Prod.mk.inj h₂).2, hcalm⟩
  · obtain ⟨rfl, h₂⟩ := Prod.mk.inj (Option.some.inj (hk.symm.trans hk'))
    exact Or.inr ⟨w', r, L', (Prod.mk.inj h₂).2, hw⟩

/-- Which hand-off a log records. -/
theorem handOff_unique {log : List Event} {a a' : Status} {w : Option TaskId} (w' : Option TaskId)
    (h : log ++ .unlockDone m c a :: handOffEvents m w
      = log ++ .unlockDone m c a' :: handOffEvents m w') : w = w' := by
  have htail := (List.cons.inj (List.append_cancel_left h)).2
  cases w <;> cases w' <;> simp_all [handOffEvents]

/-- **An unlock call keeps the invariant**, unless it is the full release of a boosted owner. -/
theorem LockInv.unlock (h : LockInv s L) (hop : s.ProperUse (.mutexUnlock m))
    (hsafe : ¬ s.BoostedRelease (.mutexUnlock m)) (hs : step s (.mutexUnlock m) = some s') :
    ∃ L', LockInv s' L' := by
  obtain ⟨c, hc, hl, hst, hidle⟩ := Sys.Permits.task hop.1.1
  have hm := h.mutexes m
  have hlocks := fun x (hx : x ≠ m) => step_locks_of_ne (m := x) hop.1
    (fun hxm => hx (Option.some.inj hxm).symm) hs
  obtain ⟨hcall, heffect⟩ := step_mutexUnlock hc hs
  have hcalls : ∀ x ≠ m, ∀ t, s'.call t = .mutexLock x → s.call t = .mutexLock x := by
    intro x _ t ht
    rwa [hcall] at ht
  have hcount := fun x (hx : x ≠ m) t => (counts_of_ne (c := c) hx t).2
  obtain ⟨a, w, hlogw, hcase⟩ := h.unlock_layout hsafe hc hl hs
  cases heffect with
  -- a caller that is not the owner is refused
  | foreign howner hview hlog =>
      have hw : w = none := handOff_unique none (hlogw.symm.trans hlog)
      rcases hcase with ⟨-, L', h', hc'⟩ | ⟨t, r, L', hw', -⟩
      · refine ⟨L', h.update _ h' hc'.toMild (fun _ _ => rfl) hlocks hcalls hlog
          (fun x hx t => hcount x hx t _ none) (fun o ho => ?_) ?_⟩
        · rw [hview] at ho
          exact h.tasks.owners m o ho
        · rw [hview, hcall, hlog]
          exact hm.events fun t => by simp [Event.takes, Event.gives]
      · rw [hw] at hw'
        cases hw'
  | again howner hlast hview hlog =>
      have hw : w = none := handOff_unique none (hlogw.symm.trans hlog)
      have hlock : s'.kernel.view.locks m = { s.kernel.view.locks m with
          lockCount := ((s.kernel.view.locks m).lockCount + (2 ^ 32 - 1)) % 2 ^ 32 } := by
        rw [hview, View.locks_setLock, if_pos rfl]
      rcases hcase with ⟨-, L', h', hc'⟩ | ⟨t, r, L', hw', -⟩
      · refine ⟨L', h.update _ h' hc'.toMild (fun _ _ => rfl) hlocks hcalls hlog
          (fun x hx t => hcount x hx t _ none) (fun o ho => ?_) ?_⟩
        · rw [hlock] at ho
          exact h.tasks.owners m o ho
        · rw [hlock, hcall, hlog]
          exact hm.unlockAgain howner hlast
      · rw [hw] at hw'
        cases hw'
  -- the last unlock passes the lock to the first waiter, or frees it
  | full howner hlast hview hlog =>
      have hw : w = s.kernel.waitHead (.mutex m) := handOff_unique _ (hlogw.symm.trans hlog)
      have hhead : s.kernel.waitHead (.mutex m) = (L (.wait (.mutex m))).head? :=
        h.tasks.lists.lists.head (.wait (.mutex m))
      have hlock : s'.kernel.view.locks m = (s.kernel.view.locks m).handOver
          (s.kernel.view.setPrio c (s.kernel.view.locks m).originalPrio).prios w := by
        rw [hview, ← hw, View.release, View.locks_setLock, if_pos rfl]
      rw [← hw] at hlog hhead
      rcases hcase with ⟨rfl, L', h', hc'⟩ | ⟨t, r, L', rfl, hoff⟩
      · refine ⟨L', h.update _ h' hc'.toMild (fun _ _ => rfl) hlocks hcalls hlog
          (fun x hx t => hcount x hx t _ none) (fun o ho => ?_) ?_⟩
        · rw [hlock] at ho
          cases ho
        · rw [hlock, hcall, hlog]
          rw [List.head?_eq_none_iff.mp hhead.symm] at hm ⊢
          exact hm.releaseFree howner hlast hidle
      · have hmem : t ∈ L (.wait (.mutex m)) := by simp [hoff.split]
        have hlive := h.tasks.lists.live _ t hmem
        refine ⟨L', h.update _ hoff.inv hoff.calm.toMild (fun x hx => ?_) hlocks hcalls hlog
          (fun x hx y => hcount x hx y _ (some t)) (fun o ho => ?_) ?_⟩
        · rw [Layout.set_of_ne _ _ (by simpa using hx)]
        · rw [hlock] at ho
          obtain rfl : t = o := Option.some.inj ho
          refine ⟨hlive, ?_⟩
          have hfit := (h.tasks.lists.placed t hlive _).mp hmem
          rw [hfit.1]
          simp
        · rw [hlock, hcall, hlog, Layout.set_self]
          have hnd := h.tasks.lists.lists.nodup (.wait (.mutex m))
          rw [hoff.split] at hm hnd
          exact hm.handOver hnd howner hlast hidle _

/-! ## Whole runs -/

/-- **Every safe step keeps the invariant.** -/
theorem LockInv.step (h : LockInv s L) (hop : SafeStep s op) (hs : step s op = some s') :
    ∃ L', LockInv s' L' := by
  obtain ⟨huse, hsafe⟩ := hop
  cases hm : op.mutex with
  | none =>
      obtain ⟨L', h', -⟩ := h.frame huse hm hs
      exact ⟨L', h'⟩
  | some m =>
      cases op with
      | mutexCreate m => exact h.create huse hs
      | mutexLock m n => exact h.lock huse hs
      | mutexUnlock m => exact h.unlock huse hsafe hs
      | _ => cases hm

/-- A calm step that leaves mutexes, calls and log alone. -/
theorem LockInv.of_calm (h : LockInv s L) (h' : CalmInv s.kernel L s'.kernel)
    (hlocks : s'.kernel.view.locks = s.kernel.view.locks) (hcall : s'.call = s.call)
    (hlog : s'.log = s.log) : ∃ L', LockInv s' L' := by
  obtain ⟨L', h', hcalm⟩ := h'
  refine ⟨L', ⟨h.tasks.calm h' hcalm.toMild fun m o ho => h.tasks.owners m o ?_, fun m => ?_⟩⟩
  · have howner : (s'.kernel.mutexes m).owner = (s.kernel.mutexes m).owner :=
      (congrArg (fun f => (f m).owner) hlocks : _)
    exact howner.symm.trans ho
  · rw [hlocks, hcall, hlog, hcalm.waits m]
    exact h.mutexes m

/-- The invariant holds at start-up. -/
theorem Sys.Init.lockInv (h : s.Init) (hfree : s.NoneHeld) : LockInv s Layout.empty := by
  have hlive := h.live
  refine ⟨⟨h.taskListInv, fun t ht => ?_, fun t ht => ?_, fun m o ho => ?_⟩, fun m => ?_⟩
  · rw [hlive] at ht
    cases ht
  · rw [hlive] at ht
    cases ht
  · rw [(hfree m).1] at ho
    cases ho
  · have howner : (s.kernel.view.locks m).owner = none := (hfree m).1
    have hcount : (s.kernel.view.locks m).lockCount = 0 := (hfree m).2
    refine ⟨by simp [howner, hcount], by simp [hcount], fun hne => absurd rfl hne,
      fun o ho => List.not_mem_nil, fun t ht => ?_, fun t => ?_⟩
    · rw [h.calls t] at ht
      cases ht
    · simp [h.log.1, Mutex.heldBy, howner]

/-- The invariant along a run. -/
theorem lockInv_of_run {ops : List Op} (h₀ : s₀.Init) (hfree : s₀.NoneHeld)
    (hr : Run SafeStep step s₀ ops s) : ∃ L, LockInv s L :=
  hr.invariant (fun s => ∃ L, LockInv s L) (fun _ _ _ ⟨_, h⟩ hop hs => h.step hop hs)
    ⟨_, h₀.lockInv hfree⟩

/-- The step logs the event. -/
def Logs (s s' : Sys) (e : Event) : Prop := ∃ es, s'.log = s.log ++ es ∧ e ∈ es

/-- **A lock call that returns `OS_OK` returns to the owner**, at once or after it was woken. -/
theorem LockInv.lock_returns (h : LockInv s L) (hop : SafeStep s op) (hs : MiniRTOS.step s op = some s')
    {t : TaskId} (he : Logs s s' (.lockDone m t .ok) ∨ Logs s s' (.lockResumed m t .ok)) :
    (s'.kernel.mutexes m).owner = some t := by
  obtain ⟨⟨ha, -⟩, -⟩ := hop
  -- the events of the step are those in the log
  have hevent : ∀ es : List Event, s'.log = s.log ++ es →
      .lockDone m t .ok ∈ es ∨ .lockResumed m t .ok ∈ es := by
    intro es hes
    rcases he with ⟨es', hlog, hmem⟩ | ⟨es', hlog, hmem⟩
    · rw [List.append_cancel_left (hes.symm.trans hlog)]
      exact Or.inl hmem
    · rw [List.append_cancel_left (hes.symm.trans hlog)]
      exact Or.inr hmem
  cases hm : op.mutex with
  -- a return from a blocked lock: the waiter was made the owner when it was woken
  | none =>
      have hf := step_mutexFrame ha hm hs
      obtain ⟨es, hlog, hon, -, hres⟩ := hf.events
      rcases hevent _ hlog with hmem | hmem
      · cases hon _ hmem
      · obtain ⟨rfl, hcur, hcall⟩ := hres m t _ hmem
        obtain ⟨c, hc, hl, hst, -⟩ := Sys.Permits.resumed ha.1
        obtain rfl : t = c := Option.some.inj (hcur.symm.trans hc)
        have howner : (s'.kernel.view.locks m).owner = (s.kernel.view.locks m).owner := by
          rw [hf.locks]
        refine howner.trans ?_
        rcases (h.mutexes m).calls t hcall with hwait | hown
        · -- a runnable task is in a ready list, not in a wait list
          have hready := h.tasks.lists.mem_ready hl hst
          cases h.tasks.lists.lists.disjoint _ _ t hready hwait
        · exact hown
  | some m' =>
      cases op with
      | mutexCreate x =>
          obtain rfl := Option.some.inj hs
          rcases hevent [] (List.append_nil _).symm with hmem | hmem <;> cases hmem
      -- a lock that returned at once
      | mutexLock x n =>
          obtain ⟨c, hc, -⟩ := Sys.Permits.task ha.1
          cases step_mutexLock hc hs with
          | free howner hview hcall hlog =>
              rcases hevent _ hlog with hmem | hmem
              · simp only [List.mem_singleton, Event.lockDone.injEq] at hmem
                obtain ⟨rfl, rfl, -⟩ := hmem
                show (s'.kernel.view.locks m).owner = some t
                rw [hview, View.locks_setLock, if_pos rfl]
              · simp at hmem
          | again howner hview hcall hlog =>
              rcases hevent _ hlog with hmem | hmem
              · simp only [List.mem_singleton, Event.lockDone.injEq] at hmem
                obtain ⟨rfl, rfl, -⟩ := hmem
                show (s'.kernel.view.locks m).owner = some t
                rw [hview, View.locks_setLock, if_pos rfl]
                exact howner
              · simp at hmem
          | refused o howner hne hview hcall r hr hlog =>
              rcases hevent _ hlog with hmem | hmem
              · simp only [List.mem_singleton, Event.lockDone.injEq] at hmem
                exact absurd hmem.2.2.symm hr
              · simp at hmem
          | blocked o howner hne hview hcall hlog =>
              rcases hevent [] (by rw [hlog, List.append_nil]) with hmem | hmem <;> cases hmem
      | mutexUnlock x =>
          obtain ⟨c, hc, -⟩ := Sys.Permits.task ha.1
          cases (step_mutexUnlock hc hs).2 with
          | foreign _ _ hlog => rcases hevent _ hlog with hmem | hmem <;> simp at hmem
          | again _ _ _ hlog => rcases hevent _ hlog with hmem | hmem <;> simp at hmem
          | full _ _ _ hlog =>
              have hmem := hevent _ hlog
              generalize s.kernel.waitHead (.mutex x) = w at hmem
              cases w <;> simp [handOffEvents] at hmem
      | _ => cases hm

/-- **An unlock by a task that is not the owner** returns `OS_ERR_STATE` and changes nothing but the
saved interrupt masks. -/
theorem step_foreignUnlock (hc : s.kernel.current = some c)
    (howner : (s.kernel.mutexes m).owner ≠ some c) :
    ∃ mask primask, step s (.mutexUnlock m)
      = some ((s.after { s.kernel with savedMask := mask, primask := primask }).emit
          (.unlockDone m c .errState)) := by
  have hcur : (osSchedEnterCritical s.kernel).current = some c := hc
  have ho : ((osSchedEnterCritical s.kernel).mutexes m).owner ≠ some c := howner
  have hun : osMutexUnlock s.kernel m
      = some (osSchedExitCritical (osSchedEnterCritical s.kernel), .errState, none) := by
    unfold osMutexUnlock
    simp only [hcur, Option.bind_eq_bind, Option.bind_some, if_pos ho]
  refine ⟨(osSchedExitCritical (osSchedEnterCritical s.kernel)).savedMask,
    (osSchedExitCritical (osSchedEnterCritical s.kernel)).primask, ?_⟩
  rw [MiniRTOS.step, hc]
  simp only [Option.bind_eq_bind, Option.bind_some, hun]
  rfl

/-- **Mutual exclusion and hand-off.** In every run without a full release by a boosted owner: a mutex
is free iff its lock count is zero, only a held mutex has waiters, the owner is not among them and
nobody is twice, each task's locks minus its unlocks are what it holds, a lock call that returns
`OS_OK` returns to the owner, and an unlock by anyone else is refused without effect. -/
theorem mutex_exclusive {ops : List Op} (h₀ : s₀.Init) (hfree : s₀.NoneHeld)
    (hr : Run SafeStep step s₀ ops s) :
    (∃ L, TaskListInv s.kernel L ∧ ∀ m,
      ((s.kernel.mutexes m).owner = none ↔ (s.kernel.mutexes m).lockCount = 0) ∧
      (L (.wait (.mutex m)) ≠ [] → (s.kernel.mutexes m).owner ≠ none) ∧
      (∀ o, (s.kernel.mutexes m).owner = some o → o ∉ L (.wait (.mutex m))) ∧
      (L (.wait (.mutex m))).Nodup ∧
      ∀ t, taken m t s.log = given m t s.log
        + if (s.kernel.mutexes m).owner = some t then (s.kernel.mutexes m).lockCount else 0) ∧
    (∀ op s' m t, SafeStep s op → step s op = some s' →
      Logs s s' (.lockDone m t .ok) ∨ Logs s s' (.lockResumed m t .ok) →
        (s'.kernel.mutexes m).owner = some t) ∧
    ∀ m c, s.kernel.current = some c → (s.kernel.mutexes m).owner ≠ some c →
      ∃ mask primask, step s (.mutexUnlock m)
        = some ((s.after { s.kernel with savedMask := mask, primask := primask }).emit
            (.unlockDone m c .errState)) := by
  obtain ⟨L, h⟩ := lockInv_of_run h₀ hfree hr
  refine ⟨⟨L, h.tasks.lists, fun m => ?_⟩, fun op s' m t hop hs he => h.lock_returns hop hs he,
    fun m c hc ho => step_foreignUnlock hc ho⟩
  have hm := h.mutexes m
  exact ⟨hm.free, hm.held, hm.notSelf, h.tasks.lists.lists.nodup _, hm.ledger⟩

/-- Two tasks share a mutex: the second one blocks on it, is handed it and returns as its owner. The
owner is the more urgent one, so nobody is boosted. -/
def sharingTrace : List Op :=
  [.mutexCreate 0x10, .create (taskAt 0x100 1), .create (taskAt 0x200 5), .selectNext,
    .mutexLock 0x10 waitForever, .mutexLock 0x10 waitNone, .delay 2, .selectNext,
    .mutexLock 0x10 waitForever, .selectNext, .tick, .tick, .selectNext, .mutexUnlock 0x10,
    .mutexUnlock 0x10, .delay 5, .selectNext, .returnFromCall]

/-- Two tasks share a mutex; the second one owns it now, and no longer waits for it. -/
theorem mutex_exclusive_sharingTrace :
    ∃ s, Run SafeStep step .boot sharingTrace s ∧ (s.kernel.mutexes 0x10).owner = some 0x200 ∧
      taken 0x10 0x200 s.log = 1 ∧ ∃ L, TaskListInv s.kernel L ∧ 0x200 ∉ L (.wait (.mutex 0x10)) := by
  obtain ⟨s, hr, howner, htaken⟩ := exists_run_of_exec
    (fun s op => s.PlainUse op ∧ ¬ s.BoostedRelease op) step Sys.boot
    sharingTrace
    (fun s => (s.kernel.mutexes 0x10).owner = some 0x200 ∧ taken 0x10 0x200 s.log = 1)
    (by decide +kernel)
  have hr' : Run SafeStep step .boot sharingTrace s := hr.mono fun _ _ h => ⟨h.1.proper, h.2⟩
  obtain ⟨⟨L, hL, hm⟩, -⟩ := mutex_exclusive Sys.boot_init Sys.boot_noneHeld hr'
  exact ⟨s, hr', howner, htaken, L, hL, (hm 0x10).2.2.1 0x200 howner⟩

/-- A task of priority 5 owns the mutex, a task of priority 1 blocks on it and boosts it. The owner
releases the mutex, is still in the ready list of priority 1, and blocks on the mutex itself. -/
def boostedReleaseTrace : List Op :=
  [.mutexCreate 0x10, .create (taskAt 0x100 5), .selectNext, .mutexLock 0x10 waitForever,
    .create (taskAt 0x200 1), .selectNext, .mutexLock 0x10 waitForever, .selectNext,
    .mutexUnlock 0x10, .selectNext, .mutexLock 0x10 waitForever, .selectNext]

/-- **A blocked lock call can return without the mutex**: the waiting task is still the head of a
ready list, is selected, and returns `OS_OK` while the other task owns the mutex. -/
theorem lock_returns_without_mutex :
    ¬ ∀ (ops : List Op) (s s' : Sys) (op : Op) (m : Addr) (t : TaskId),
      Run Sys.ProperUse step .boot ops s → s.ProperUse op → step s op = some s' →
        Logs s s' (.lockDone m t .ok) ∨ Logs s s' (.lockResumed m t .ok) →
          (s'.kernel.mutexes m).owner = some t := by
  intro hall
  obtain ⟨s, hr, hop, s', hs, hlog, howner⟩ := exists_run_of_exec Sys.PlainUse
    step Sys.boot boostedReleaseTrace
    (fun s => s.PlainUse .returnFromCall ∧ ∃ s' ∈ step s .returnFromCall,
      s'.log = s.log ++ [.lockResumed 0x10 0x100 .ok] ∧ (s'.kernel.mutexes 0x10).owner ≠ some 0x100)
    (by decide +kernel)
  exact howner (hall _ s s' _ 0x10 0x100 (hr.mono fun _ _ h => h.proper) hop.proper hs
    (Or.inr ⟨_, hlog, List.mem_singleton_self _⟩))

end MiniRTOS
