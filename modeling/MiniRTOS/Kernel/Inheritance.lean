import MiniRTOS.Kernel.MutexInv

/-! # No priority inversion

The waiters of a mutex are kept in the order of their priorities, and a lock call lends its priority
to the owner, so the owner is at least as urgent as every waiter. Two things break this. A boost does
not travel on: an owner that itself waits for a second mutex is made more urgent where it stands, and
the owner of the second mutex is not. And a release takes back whatever the owner was lent, also what
the waiters of its other mutexes lent it. -/

namespace MiniRTOS

open PtrList Runs

variable {s s' s₀ : Sys} {L L' : Layout} {op : Op} {c : TaskId} {m : Addr} {k k' : Kernel}

/-- **A boost of a waiting owner**: a lock call by a task that is more urgent than the owner, while the
owner is blocked on a mutex. -/
def Sys.BoostsWaiter (s : Sys) (op : Op) : Prop :=
  ∃ m ∈ op.locked, ∃ o ∈ (s.kernel.mutexes m).owner, ∃ c ∈ s.kernel.current,
    s.kernel.prio c < s.kernel.prio o ∧ (s.kernel.tcb o).state = .blocked ∧
      (s.kernel.tcb o).blockedReason = .onMutexLock

/-- Whether a step boosts a waiter can be decided. -/
instance (s : Sys) (op : Op) : Decidable (s.BoostsWaiter op) :=
  inferInstanceAs (Decidable (∃ m ∈ op.locked, _))

/-- The steps of the runs below. -/
def UrgentStep (s : Sys) (op : Op) : Prop := SafeStep s op ∧ ¬ s.BoostsWaiter op

/-! ## The invariant -/

/-- **Owners are as urgent as their waiters**, and waiters stand in the order of their priorities. -/
structure Urgent (v : View) (L : Layout) : Prop where
  /-- The order of the waiters. -/
  sorted : ∀ m, (L (.wait (.mutex m))).Pairwise fun a b => v.prios a ≤ v.prios b
  /-- The owner. -/
  owner : ∀ m o, (v.locks m).owner = some o → ∀ t ∈ L (.wait (.mutex m)), v.prios o ≤ v.prios t

/-- Only the priorities of waiters and owners matter. -/
theorem Urgent.congr {v v' : View} (h : Urgent v L) (hw : ∀ m, L' (.wait (.mutex m)) = L (.wait (.mutex m)))
    (hl : ∀ m, (v'.locks m).owner = (v.locks m).owner)
    (hp : ∀ m, ∀ t ∈ L (.wait (.mutex m)), v'.prios t = v.prios t)
    (ho : ∀ m o, (v.locks m).owner = some o → v'.prios o ≤ v.prios o) : Urgent v' L' := by
  refine ⟨fun m => ?_, fun m o hm t ht => ?_⟩
  · rw [hw]
    refine (h.sorted m).imp_of_mem fun ha hb hab => ?_
    rw [hp m _ ha, hp m _ hb]
    exact hab
  · rw [hl] at hm
    rw [hw] at ht
    rw [hp m t ht]
    exact (ho m o hm).trans (h.owner m o hm t ht)

/-- A waiter enters the list of `m`, whose owner is as urgent as it. -/
theorem Urgent.enqueue {v : View} {l r : List TaskId} (h : Urgent v L)
    (hsplit : L (.wait (.mutex m)) = l ++ r) (hfront : ∀ x ∈ l, v.prios x ≤ v.prios c)
    (hback : ∀ x ∈ r.head?, v.prios c < v.prios x)
    (hw : ∀ x, L' (.wait (.mutex x)) = L.set (.wait (.mutex m)) (l ++ c :: r) (.wait (.mutex x)))
    (ho : ∀ o, (v.locks m).owner = some o → v.prios o ≤ v.prios c) : Urgent v L' := by
  have hsorted := h.sorted m
  rw [hsplit, List.pairwise_append] at hsorted
  obtain ⟨hl, hr, hlr⟩ := hsorted
  -- the waiters behind are all less urgent than the first one of them
  have hbehind : ∀ x ∈ r, v.prios c ≤ v.prios x := by
    cases r with
    | nil => exact fun x hx => by cases hx
    | cons b r =>
        have hcb := hback b rfl
        intro x hx
        rcases List.mem_cons.mp hx with rfl | hx
        · exact hcb.le
        · exact hcb.le.trans (List.rel_of_pairwise_cons hr hx)
  refine ⟨fun x => ?_, fun x o hx t ht => ?_⟩
  · rw [hw, Layout.set_apply]
    split
    · refine List.pairwise_append.mpr ⟨hl, List.pairwise_cons.mpr ⟨hbehind, hr⟩, fun a ha b hb => ?_⟩
      rcases List.mem_cons.mp hb with rfl | hb
      · exact hfront a ha
      · exact hlr a ha b hb
    · exact h.sorted x
  · rw [hw, Layout.set_apply] at ht
    split at ht
    · next hxm =>
        obtain rfl : x = m := by simpa using hxm
        have hown := h.owner x o hx
        rw [hsplit] at hown
        rcases List.mem_append.mp ht with ht | ht
        · exact hown t (List.mem_append_left _ ht)
        · rcases List.mem_cons.mp ht with rfl | ht
          · exact ho o hx
          · exact hown t (List.mem_append_right _ ht)
    · exact h.owner x o hx t ht

/-- The first waiter of `m` becomes the owner. -/
theorem Urgent.handOver {v v' : View} {w : TaskId} {r : List TaskId} (h : Urgent v L)
    (hsplit : L (.wait (.mutex m)) = w :: r)
    (hw : ∀ x, L' (.wait (.mutex x)) = L.set (.wait (.mutex m)) r (.wait (.mutex x)))
    (hp : v'.prios = v.prios) (hm : (v'.locks m).owner = some w)
    (hl : ∀ x ≠ m, v'.locks x = v.locks x) : Urgent v' L' := by
  have hsorted := h.sorted m
  rw [hsplit] at hsorted
  refine ⟨fun x => ?_, fun x o hx t ht => ?_⟩
  · rw [hw, Layout.set_apply, hp]
    split
    · exact hsorted.of_cons
    · exact h.sorted x
  · rw [hw, Layout.set_apply] at ht
    rw [hp]
    split at ht
    · next hxm =>
        obtain rfl : x = m := by simpa using hxm
        obtain rfl : w = o := Option.some.inj (hm.symm.trans hx)
        exact List.rel_of_pairwise_cons hsorted ht
    · next hxm =>
        rw [hl x (by simpa using hxm)] at hx
        exact h.owner x o hx t ht

/-! ## Steps -/

/-- A boosted priority is more urgent, and only the owner is boosted. -/
theorem View.prios_boost (v : View) (c o t : TaskId) :
    (v.boost c o).prios t
      = if v.prios c < v.prios o ∧ t = o then v.prios c else v.prios t := by
  unfold View.boost
  by_cases hlt : v.prios c < v.prios o
  · rw [if_pos hlt, View.prios_setPrio]
    simp [hlt]
  · rw [if_neg hlt]
    simp [hlt]

/-- The boost of an owner that waits for no mutex. -/
theorem Urgent.boost {v : View} {o : TaskId} (h : Urgent v L)
    (hwait : v.prios c < v.prios o → ∀ x, o ∉ L (.wait (.mutex x))) : Urgent (v.boost c o) L := by
  have hlocks : (v.boost c o).locks = v.locks := by
    unfold View.boost
    split <;> rfl
  refine h.congr (fun _ => rfl) (fun x => by rw [hlocks]) (fun x t ht => ?_) fun x o' _ => ?_
  · rw [View.prios_boost, if_neg]
    rintro ⟨hlt, rfl⟩
    exact hwait hlt x ht
  · rw [View.prios_boost]
    split
    · next hlt => exact (hlt.2 ▸ hlt.1).le
    · exact le_rfl

/-- Steps on other things. -/
theorem Urgent.frame (hu : Urgent s.kernel.view L) (h : LockInv s L) (hop : s.ProperUse op)
    (hm : op.mutex = none) (hs : step s op = some s') (h' : LockInv s' L') :
    Urgent s'.kernel.view L' := by
  obtain ⟨L'', h'', hw⟩ := h.frame hop hm hs
  have hf := step_mutexFrame hop.1 hm hs
  refine hu.congr (fun m => ?_) (fun m => by rw [hf.locks]) (fun m t ht => ?_) fun m o ho => ?_
  · rw [h'.tasks.lists.lists.unique h''.tasks.lists.lists, hw]
  · exact hf.prios t (h.tasks.lists.live _ t ht)
  · exact (hf.prios o (h.tasks.owners m o ho).1).le

/-- A lock call that boosts no waiting owner. -/
theorem Urgent.lock {n : Nat} (hu : Urgent s.kernel.view L) (h : LockInv s L)
    (hop : s.ProperUse (.mutexLock m n)) (hb : ¬ s.BoostsWaiter (.mutexLock m n))
    (hs : step s (.mutexLock m n) = some s') (h' : LockInv s' L') : Urgent s'.kernel.view L' := by
  obtain ⟨c, hc, hl, hst, hidle⟩ := Sys.Permits.task hop.1.1
  -- an owner that is boosted is in no mutex wait list
  have hwait : ∀ o, (s.kernel.view.locks m).owner = some o →
      s.kernel.view.prios c < s.kernel.view.prios o → ∀ x, o ∉ L (.wait (.mutex x)) := by
    intro o ho hlt x hmem
    have hfit := (h.tasks.lists.placed o (h.tasks.lists.live _ o hmem) _).mp hmem
    exact hb ⟨m, rfl, o, ho, c, hc, hlt, hfit.1, hfit.2.2⟩
  have hcalm : s'.call = s.call → ∀ x, L' (.wait (.mutex x)) = L (.wait (.mutex x)) := by
    intro hcall x
    rcases h.lock_layout hc hl hst hs with ⟨-, L'', h'', hc''⟩ | ⟨hcall', -⟩
    · rw [h'.tasks.lists.lists.unique h''.lists, hc''.waits]
    · have hself := congrFun (hcall.symm.trans hcall') c
      rw [Function.update_self, hidle] at hself
      cases hself
  cases step_mutexLock hc hs with
  | free howner hview hcall hlog =>
      refine ⟨fun x => ?_, fun x o hx t ht => ?_⟩
      · rw [hcalm hcall, hview]
        exact hu.sorted x
      · rw [hcalm hcall] at ht
        rw [hview, View.locks_setLock] at hx
        rw [hview]
        split at hx
        · next hxm =>
            subst hxm
            rw [(h.mutexes x).waiters_nil howner] at ht
            cases ht
        · exact hu.owner x o hx t ht
  | again howner hview hcall hlog =>
      refine hu.congr (hcalm hcall) (fun x => ?_) (fun _ _ _ => by rw [hview]; rfl)
        fun _ _ _ => by rw [hview]; exact le_rfl
      rw [hview, View.locks_setLock]
      split
      · next hxm => rw [hxm]
      · rfl
  | refused o howner hne hview hcall r hr hlog =>
      rw [hview]
      exact (hu.boost (hwait o howner)).congr (hcalm hcall) (fun _ => rfl) (fun _ _ _ => rfl)
        fun _ _ _ => le_rfl
  | blocked o howner hne hview hcall hlog =>
      have hboost : Urgent s'.kernel.view L := hview ▸ hu.boost (hwait o howner)
      rcases h.lock_layout hc hl hst hs with ⟨hcall', -⟩ | ⟨-, L'', l, r, hq⟩
      · have hself := congrFun (hcall'.symm.trans hcall) c
        rw [Function.update_self, hidle] at hself
        cases hself
      · refine hboost.enqueue hq.split hq.front hq.back (fun x => ?_) fun o' ho' => ?_
        · rw [h'.tasks.lists.lists.unique hq.inv.lists, hq.calm.waits]
        · -- the owner was lent the priority of the new waiter, unless it has a better one
          have howner' : (s'.kernel.view.locks m).owner = some o := by
            rw [hview, View.boost]
            split <;> exact howner
          obtain rfl : o = o' := Option.some.inj (howner'.symm.trans ho')
          rw [hview, View.prios_boost, View.prios_boost]
          by_cases hlt : s.kernel.view.prios c < s.kernel.view.prios o
          · simp [hlt, Ne.symm hne]
          · simp only [hlt, false_and, if_false]
            exact not_lt.mp hlt

/-- An unlock call that is not the full release of a boosted owner. -/
theorem Urgent.unlock (hu : Urgent s.kernel.view L) (h : LockInv s L)
    (hop : s.ProperUse (.mutexUnlock m)) (hsafe : ¬ s.BoostedRelease (.mutexUnlock m))
    (hs : step s (.mutexUnlock m) = some s') (h' : LockInv s' L') : Urgent s'.kernel.view L' := by
  obtain ⟨c, hc, hl, hst, hidle⟩ := Sys.Permits.task hop.1.1
  obtain ⟨a, w, hlogw, hcase⟩ := h.unlock_layout hsafe hc hl hs
  have hcalm : w = none → ∀ x, L' (.wait (.mutex x)) = L (.wait (.mutex x)) := by
    intro hw x
    rcases hcase with ⟨-, L'', h'', hc''⟩ | ⟨t, r, L'', hw', -⟩
    · rw [h'.tasks.lists.lists.unique h''.lists, hc''.waits]
    · rw [hw] at hw'
      cases hw'
  cases (step_mutexUnlock hc hs).2 with
  | foreign howner hview hlog =>
      have hw : w = none := handOff_unique none (hlogw.symm.trans hlog)
      rw [hview]
      exact hu.congr (hcalm hw) (fun _ => rfl) (fun _ _ _ => rfl) fun _ _ _ => le_rfl
  | again howner hlast hview hlog =>
      have hw : w = none := handOff_unique none (hlogw.symm.trans hlog)
      refine hu.congr (hcalm hw) (fun x => ?_) (fun _ _ _ => by rw [hview]; rfl)
        fun _ _ _ => by rw [hview]; exact le_rfl
      rw [hview, View.locks_setLock]
      split
      · next hxm => rw [hxm]
      · rfl
  | full howner hlast hview hlog =>
      have hw : w = s.kernel.waitHead (.mutex m) := handOff_unique _ (hlogw.symm.trans hlog)
      -- the owner has the priority that is written back
      have hprio : s.kernel.view.setPrio c (s.kernel.view.locks m).originalPrio = s.kernel.view := by
        have hp : s.kernel.prio c = (s.kernel.mutexes m).originalPrio := by
          by_contra hp
          exact hsafe ⟨m, rfl, Eq.trans howner hc.symm, hlast, c, hc, hp⟩
        have hp' : (s.kernel.view.locks m).originalPrio = s.kernel.view.prios c := hp.symm
        rw [hp', View.setPrio, Function.update_eq_self]
      have hview' : s'.kernel.view = s.kernel.view.setLock m
          ((s.kernel.view.locks m).handOver s.kernel.view.prios w) := by
        rw [hview, ← hw, View.release, hprio]
      have hlock : ∀ x, s'.kernel.view.locks x = if x = m then
          (s.kernel.view.locks m).handOver s.kernel.view.prios w else s.kernel.view.locks x := by
        intro x
        rw [hview', View.locks_setLock]
      rcases hcase with ⟨rfl, -⟩ | ⟨t, r, L'', rfl, hoff⟩
      · refine ⟨fun x => ?_, fun x o hx t ht => ?_⟩
        · rw [hcalm rfl, hview']
          exact hu.sorted x
        · rw [hcalm rfl] at ht
          rw [hlock] at hx
          rw [hview']
          split at hx
          · cases hx
          · exact hu.owner x o hx t ht
      · refine hu.handOver hoff.split (fun x => ?_) (by rw [hview']; rfl) ?_ fun x hx => ?_
        · rw [h'.tasks.lists.lists.unique hoff.inv.lists, hoff.calm.waits]
        · rw [hlock, if_pos rfl]
          rfl
        · rw [hlock, if_neg hx]

/-- **Every step of the runs keeps the order.** -/
theorem Urgent.step (hu : Urgent s.kernel.view L) (h : LockInv s L) (hop : UrgentStep s op)
    (hs : step s op = some s') : ∃ L', LockInv s' L' ∧ Urgent s'.kernel.view L' := by
  obtain ⟨⟨huse, hsafe⟩, hb⟩ := hop
  obtain ⟨L', h'⟩ := h.step ⟨huse, hsafe⟩ hs
  refine ⟨L', h', ?_⟩
  cases hm : op.mutex with
  | none => exact hu.frame h huse hm hs h'
  | some x =>
      cases op with
      | mutexCreate m =>
          have howner : (s.kernel.view.locks m).owner = none := huse.2.1 m rfl
          obtain ⟨s'', L'', hs'', h'', hc''⟩ := step_calm h.tasks.lists huse.1 rfl (by simp)
          obtain rfl : s' = s'' := Option.some.inj (hs.symm.trans hs'')
          have hview : s'.kernel.view = s.kernel.view.setLock m ⟨none, 0, 0, none⟩ := by
            obtain rfl := Option.some.inj hs
            exact view_setMutex _ _ _
          refine hu.congr (fun y => ?_) (fun y => ?_) (fun _ _ _ => by rw [hview]; rfl)
            fun _ _ _ => by rw [hview]; exact le_rfl
          · rw [h'.tasks.lists.lists.unique h''.lists, hc''.waits]
          · rw [hview, View.locks_setLock]
            split
            · next hym => rw [hym, howner]
            · rfl
      | mutexLock m n => exact hu.lock h huse hb hs h'
      | mutexUnlock m => exact hu.unlock h huse hsafe hs h'
      | _ => cases hm

/-- **No priority inversion** in every run in which no boosted owner makes a full release and no
waiting owner is boosted: a mutex with waiters has an owner, which is at least as urgent as each of
them. -/
theorem no_priority_inversion {ops : List Op} (h₀ : s₀.Init) (hfree : s₀.NoneHeld)
    (hr : Run UrgentStep step s₀ ops s) :
    ∃ L, TaskListInv s.kernel L ∧ ∀ m, L (.wait (.mutex m)) ≠ [] →
      ∃ o, (s.kernel.mutexes m).owner = some o ∧
        ∀ t ∈ L (.wait (.mutex m)), s.kernel.prio o ≤ s.kernel.prio t := by
  have hinv := hr.invariant (fun s => ∃ L, LockInv s L ∧ Urgent s.kernel.view L)
    (fun _ _ _ ⟨_, h, hu⟩ hop hs => hu.step h hop hs)
    ⟨_, h₀.lockInv hfree, fun _ => List.Pairwise.nil, fun _ _ _ t ht => by cases ht⟩
  obtain ⟨L, h, hu⟩ := hinv
  refine ⟨L, h.tasks.lists, fun m hne => ?_⟩
  obtain ⟨o, ho⟩ := Option.ne_none_iff_exists'.mp ((h.mutexes m).held hne)
  exact ⟨o, ho, hu.owner m o ho⟩

/-- A task of priority 5 owns a mutex that a task of priority 3 waits for. -/
def waitingTrace : List Op :=
  [.mutexCreate 0x10, .mutexCreate 0x20, .create (taskAt 0x100 5), .selectNext,
    .mutexLock 0x10 waitForever, .create (taskAt 0x200 3), .selectNext, .mutexLock 0x20 waitForever,
    .mutexLock 0x10 waitForever, .selectNext]

/-- A wait list that a task is in by its control block. -/
theorem TaskListInv.mem_wait {t : TaskId} {w : WaitList} (h : TaskListInv k L) (ht : t ∈ k.liveTcbs)
    (hs : (k.tcb t).state = .blocked) (ho : (k.tcb t).blockedOn = some w.obj)
    (hr : (k.tcb t).blockedReason = w.reason) : t ∈ L (.wait w) :=
  (h.placed t ht _).mpr ⟨hs, ho, hr⟩

/-- A waiter of priority 3 has raised the owner to its own priority. -/
theorem no_priority_inversion_waitingTrace :
    ∃ s, Run UrgentStep step .boot waitingTrace s ∧ s.kernel.prio 0x100 = 3 ∧
      ∃ L, TaskListInv s.kernel L ∧ 0x200 ∈ L (.wait (.mutex 0x10)) ∧
        ∃ o, (s.kernel.mutexes 0x10).owner = some o ∧ s.kernel.prio o ≤ s.kernel.prio 0x200 := by
  obtain ⟨s, hr, hp, hl, hst, ho, hre⟩ := exists_run_of_exec
    (fun s op => (s.PlainUse op ∧ ¬ s.BoostedRelease op) ∧ ¬ s.BoostsWaiter op)
    step Sys.boot waitingTrace
    (fun s => s.kernel.prio 0x100 = 3 ∧ 0x200 ∈ s.kernel.liveTcbs ∧
      (s.kernel.tcb 0x200).state = .blocked ∧ (s.kernel.tcb 0x200).blockedOn = some (.mutex 0x10) ∧
      (s.kernel.tcb 0x200).blockedReason = .onMutexLock) (by decide +kernel)
  have hr' : Run UrgentStep step .boot waitingTrace s :=
    hr.mono fun _ _ h => ⟨⟨h.1.1.proper, h.1.2⟩, h.2⟩
  obtain ⟨L, hL, hm⟩ := no_priority_inversion Sys.boot_init Sys.boot_noneHeld hr'
  have hmem : 0x200 ∈ L (.wait (.mutex 0x10)) := hL.mem_wait hl hst ho hre
  obtain ⟨o, howner, hle⟩ := hm 0x10 (List.ne_nil_of_mem hmem)
  exact ⟨s, hr', hp, L, hL, hmem, o, howner, hle 0x200 hmem⟩

/-- A third task of priority 1 wants the mutex of the waiting task. -/
def chainTrace : List Op :=
  waitingTrace ++ [.create (taskAt 0x300 1), .selectNext, .mutexLock 0x20 waitForever]

/-- **A boost does not travel along a chain**: the waiting task has priority 1, the owner it waits for
still has priority 3. -/
theorem priority_inversion_chain :
    ¬ ∀ (ops : List Op) (s : Sys) (L : Layout), Run Sys.ProperUse step .boot ops s →
      TaskListInv s.kernel L → ∀ m o, (s.kernel.mutexes m).owner = some o →
        ∀ t ∈ L (.wait (.mutex m)), s.kernel.prio o ≤ s.kernel.prio t := by
  intro hall
  obtain ⟨s, hr, howner, hl, hst, ho, hre, hp⟩ := exists_run_of_exec
    (fun s op => s.PlainUse op ∧ ¬ s.BoostedRelease op) step Sys.boot
    chainTrace
    (fun s => (s.kernel.mutexes 0x10).owner = some 0x100 ∧ 0x200 ∈ s.kernel.liveTcbs ∧
      (s.kernel.tcb 0x200).state = .blocked ∧ (s.kernel.tcb 0x200).blockedOn = some (.mutex 0x10) ∧
      (s.kernel.tcb 0x200).blockedReason = .onMutexLock ∧
      s.kernel.prio 0x200 < s.kernel.prio 0x100) (by decide +kernel)
  obtain ⟨L, h⟩ := lockInv_of_run Sys.boot_init Sys.boot_noneHeld
    (hr.mono fun _ _ h => ⟨h.1.proper, h.2⟩)
  have hmem : 0x200 ∈ L (.wait (.mutex 0x10)) := h.tasks.lists.mem_wait hl hst ho hre
  have hle := hall _ s L (hr.mono fun _ _ h => h.1.proper) h.tasks.lists 0x10 0x100 howner 0x200 hmem
  exact absurd hp (not_lt.mpr hle)

end MiniRTOS
