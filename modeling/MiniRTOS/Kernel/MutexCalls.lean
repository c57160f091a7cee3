import MiniRTOS.Kernel.ObjectCalls

/-! # The mutex calls on layouts

`os_task_set_priority` moves a READY task to the ready list of its new priority and only writes the
priority of any other task. For a task that waits or is suspended that is enough; a RUNNING task stays
in the ready list of its old priority. So the calls of `mutex.c` keep the task list invariant as long
as no RUNNING task gets a new priority. -/

namespace MiniRTOS

open PtrList

variable {k k' : Kernel} {L L' : Layout} {t c : TaskId}

/-! ## Changing a priority -/

/-- A place that does not depend on the priority. -/
theorem Tcb.fits_setPrio {v : Tcb} (h : v.state ≠ .ready) (hr : v.state ≠ .running) (p : Prio)
    (P : Place) : ({ v with priority := p } : Tcb).Fits P ↔ v.Fits P := by
  cases P <;> simp [Tcb.Fits, h, hr]

/-- **`os_task_set_priority` is calm** for a task that is not RUNNING, or whose priority it is. -/
theorem TaskListInv.osTaskSetPriority {p : Prio} (h : TaskListInv k L) (ht : t ∈ k.liveTcbs)
    (hs : (k.tcb t).state ≠ .running ∨ k.prio t = p) : CalmInv k L (osTaskSetPriority k t p) := by
  unfold MiniRTOS.osTaskSetPriority
  dsimp only
  refine CalmInv.exitCritical (CalmInv.enterCritical ?_)
  split
  · next hready =>
      -- unlink, write the priority, append to the new list
      have hready' : (k.tcb t).state = .ready := hready
      have hmem := h.mem_ready ht (Or.inl hready')
      have hb := h.blockedOn_eq_none ht (by simp [hready'])
      have hl := osTaskRemoveFromReady_lists h.enterCritical.lists hmem
      obtain ⟨h', hd'⟩ := h.enterCritical.toReady (v := { k.tcb t with priority := p }) hmem
        (hl.setTcb t { k.tcb t with priority := p }) rfl hb
      refine ⟨_, h', Calm.of_tcb hd' (fun w => ?_) (fun hr => by cases hr) (fun hr => by cases hr) id⟩
      rw [Layout.set_wait _ (by simp), Layout.remove_wait _ (by simp)]
  · next hready =>
      refine ⟨L, h.enterCritical.setTcb (fun P => ?_) id, Calm.of_tcb rfl (fun _ => rfl) id id id⟩
      rcases hs with hs | hs
      · exact Tcb.fits_setPrio hready hs p P
      · have hself : ({ (osSchedEnterCritical k).tcb t with priority := p } : Tcb)
            = (osSchedEnterCritical k).tcb t := by
          rw [← hs]
          rfl
        rw [hself]

/-- Writing the owner fields of a mutex is calm. -/
theorem TaskListInv.calm_setMutex {m : Addr} {v : Mutex} (h : TaskListInv k L)
    (hw : v.waitList = (k.mutexes m).waitList) : CalmInv k L (k.setMutex m v) :=
  ⟨L, h.setMutex hw, Calm.objects rfl rfl rfl⟩

/-- **`prv_boost_priority` is calm** when the owner is live and not RUNNING. -/
theorem TaskListInv.prvBoostPriority {m : Addr} {p : Prio} (h : TaskListInv k L)
    (ho : ∀ o, (k.mutexes m).owner = some o → o ∈ k.liveTcbs ∧ (k.tcb o).state ≠ .running) :
    CalmInv k L (Mutex.prvBoostPriority k m p) := by
  unfold Mutex.prvBoostPriority
  cases howner : (k.mutexes m).owner with
  | none => exact CalmInv.refl h
  | some o =>
      obtain ⟨hlive, hrun⟩ := ho o howner
      dsimp only
      split
      · exact h.osTaskSetPriority hlive (Or.inl hrun)
      · exact CalmInv.refl h

/-- Boosting the owner leaves every other control block alone. -/
theorem Mutex.tcb_prvBoostPriority {m : Addr} {p : Prio} (ho : (k.mutexes m).owner ≠ some c) :
    (Mutex.prvBoostPriority k m p).tcb c = k.tcb c := by
  unfold Mutex.prvBoostPriority
  cases howner : (k.mutexes m).owner with
  | none => rfl
  | some o =>
      have hne : c ≠ o := fun hco => ho (hco ▸ howner)
      dsimp only
      split
      · unfold MiniRTOS.osTaskSetPriority
        dsimp only
        split
        · exact (Function.update_of_ne hne _ _).trans (Function.update_of_ne hne _ _)
        · exact Function.update_of_ne hne _ _
      · rfl

/-! ## Locking -/

/-- A calm step, seen from a changed wait list of one mutex. -/
theorem Calm.set_wait {m : Addr} {l : List TaskId} {k'' : Kernel} {L'' : Layout}
    (h : Calm k L k' L') (h' : Calm k' (L'.set (.wait (.mutex m)) l) k'' L'') :
    Calm k (L.set (.wait (.mutex m)) l) k'' L'' := by
  have hset : Calm k (L.set (.wait (.mutex m)) l) k' (L'.set (.wait (.mutex m)) l) := by
    refine ⟨⟨fun x => ?_, h.current, h.live, h.running, h.timedOut⟩, fun w => ?_⟩
    · rw [Layout.set_apply, Layout.set_apply]
      split
      · rfl
      · exact h.waits x
    · rw [Layout.set_apply, Layout.set_apply]
      split
      · exact List.Sublist.refl _
      · exact h.thins w
  exact hset.trans h'

/-- **`os_mutex_lock` keeps the task list invariant** when a contended owner is live and not RUNNING:
it returns, or its caller has entered the wait list. -/
theorem TaskListInv.osMutexLock {m : Addr} (timeout : Nat) (h : TaskListInv k L)
    (hc : k.current = some c) (ht : c ∈ k.liveTcbs)
    (hs : (k.tcb c).state = .ready ∨ (k.tcb c).state = .running)
    (ho : ∀ o, (k.mutexes m).owner = some o → o ≠ c →
      o ∈ k.liveTcbs ∧ (k.tcb o).state ≠ .running) :
    ∃ k' r, MiniRTOS.osMutexLock k m timeout = some (k', r) ∧
      ((∃ a, r = .done a) ∧ CalmInv k L k' ∨ r = .blocked ∧ ∃ L' l r, Enqueued (.mutex m) c k L k' L' l r) := by
  have hcur : (osSchedEnterCritical k).current = some c := hc
  unfold MiniRTOS.osMutexLock
  simp only [hcur, Option.bind_eq_bind, Option.bind_some]
  split
  · next howner =>
      refine ⟨_, _, rfl, Or.inl ⟨⟨_, rfl⟩, CalmInv.exitCritical (CalmInv.enterCritical ?_)⟩⟩
      exact h.enterCritical.calm_setMutex (v := { (osSchedEnterCritical k).mutexes m with
        owner := some c, lockCount := 1, originalPrio := (osSchedEnterCritical k).prio c }) rfl
  · next o howner =>
      split
      · refine ⟨_, _, rfl, Or.inl ⟨⟨_, rfl⟩, CalmInv.exitCritical (CalmInv.enterCritical ?_)⟩⟩
        exact h.enterCritical.calm_setMutex (v := { (osSchedEnterCritical k).mutexes m with
          lockCount := (((osSchedEnterCritical k).mutexes m).lockCount + 1) % 2 ^ 32 }) rfl
      · next hne =>
          have hb := (h.enterCritical.prvBoostPriority (m := m)
            (p := (osSchedEnterCritical k).prio c) fun o' ho' => by
              obtain rfl : o = o' := Option.some.inj (howner.symm.trans ho')
              exact ho o howner hne).enterCritical
          split
          · exact ⟨_, _, rfl, Or.inl ⟨⟨_, rfl⟩, hb.exitCritical⟩⟩
          · obtain ⟨L₁, h₁, hcalm₁⟩ := hb
            have htcb := Mutex.tcb_prvBoostPriority (p := (osSchedEnterCritical k).prio c)
              (fun ho' => hne (Option.some.inj (howner.symm.trans ho')))
            have hlive : c ∈ (Mutex.prvBoostPriority (osSchedEnterCritical k) m
                ((osSchedEnterCritical k).prio c)).liveTcbs := by
              refine (hcalm₁.live c ht ?_).1
              rcases hs with hs | hs <;> simp [hs]
            obtain ⟨k₂, L₂, l, r, hk₂, hq⟩ := h₁.enqueue (w := .mutex m) timeout hlive
              (by rw [htcb]; exact hs)
            have hblock : Mutex.prvBlockTask _ m c timeout = some k₂ := hk₂
            rw [hblock]
            refine ⟨_, _, rfl, Or.inr ⟨rfl, L₂, l, r, ?_⟩⟩
            have hwait : L₁ (.wait (.mutex m)) = L (.wait (.mutex m)) := hcalm₁.waits m
            exact ⟨hwait ▸ hq.split, hq.front, hq.back, hq.inv.exitCritical.yield,
              (hcalm₁.set_wait hq.calm).then_data rfl⟩

/-! ## Unlocking -/

/-- **A hand-off**: the first waiter leaves the wait list. -/
structure HandedOff (m : Addr) (k : Kernel) (L : Layout) (k' : Kernel) (L' : Layout) (w : TaskId)
    (r : List TaskId) : Prop where
  /-- The waiters. -/
  split : L (.wait (.mutex m)) = w :: r
  /-- The task lists. -/
  inv : TaskListInv k' L'
  /-- Nothing else happens. -/
  calm : Calm k (L.set (.wait (.mutex m)) r) k' L'

/-- `prv_wake_and_transfer` with and without waiters. -/
theorem TaskListInv.prvWakeAndTransfer {m : Addr} (h : TaskListInv k L) :
    (∃ k', Mutex.prvWakeAndTransfer k m = (none, k') ∧ CalmInv k L k') ∨
      ∃ w r k' L', Mutex.prvWakeAndTransfer k m = (some w, k') ∧ HandedOff m k L k' L' w r := by
  unfold Mutex.prvWakeAndTransfer
  cases hw : L (.wait (.mutex m)) with
  | nil =>
      rw [wakeTask_nil h.lists hw]
      exact Or.inl ⟨k, rfl, CalmInv.refl h⟩
  | cons w r =>
      obtain ⟨k', hk', h', hd'⟩ := h.wake hw
      rw [hk']
      have hcalm : Calm k (L.set (.wait (.mutex m)) r) k' ((L.set (.wait (.mutex m)) r).set
          (.ready (k.prio w)) (L (.ready (k.prio w)) ++ [w])) := by
        refine Calm.of_tcb hd' (fun x => ?_) (fun hr => by cases hr) (fun hr => by cases hr)
          fun hr => by cases hr
        exact Layout.set_wait _ (by simp) _ _
      exact Or.inr ⟨w, r, _, _, rfl, hw, h'.setMutex rfl, hcalm.trans (Calm.objects rfl rfl rfl)⟩

/-- **The full release** is calm or a hand-off when the owner is at the priority the mutex
remembers. -/
theorem TaskListInv.release {m : Addr} (h : TaskListInv k L) (ht : c ∈ k.liveTcbs)
    (ho : (k.mutexes m).owner = some c) (hp : k.prio c = (k.mutexes m).originalPrio) :
    (∃ k', Mutex.release k m = (none, k') ∧ CalmInv k L k') ∨
      ∃ w r k' L', Mutex.release k m = (some w, k') ∧ HandedOff m k L k' L' w r := by
  have hrestore : CalmInv k L (Mutex.prvRestorePriority k m) := by
    unfold Mutex.prvRestorePriority
    rw [ho]
    exact h.osTaskSetPriority ht (Or.inr hp)
  obtain ⟨L₁, h₁, hcalm₁⟩ := hrestore
  have h₂ : CalmInv k L ((Mutex.prvRestorePriority k m).setMutex m
      { (Mutex.prvRestorePriority k m).mutexes m with owner := none }) :=
    ⟨L₁, h₁.setMutex rfl, hcalm₁.trans (Calm.objects rfl rfl rfl)⟩
  obtain ⟨L₂, h₂, hcalm₂⟩ := h₂
  rcases h₂.prvWakeAndTransfer (m := m) with ⟨k', hk', L', h', hcalm'⟩ | ⟨w, r, k', L', hk', hw⟩
  · exact Or.inl ⟨k', hk', L', h', hcalm₂.trans hcalm'⟩
  · have hwait : L₂ (.wait (.mutex m)) = L (.wait (.mutex m)) := hcalm₂.waits m
    exact Or.inr ⟨w, r, k', L', hk', hwait ▸ hw.split, hw.inv, hcalm₂.set_wait hw.calm⟩

/-- **`os_mutex_unlock` keeps the task list invariant**, unless it is the full release of a boosted
owner. -/
theorem TaskListInv.osMutexUnlock {m : Addr} (h : TaskListInv k L) (hc : k.current = some c)
    (ht : c ∈ k.liveTcbs)
    (hp : (k.mutexes m).owner = some c → (k.mutexes m).lastLock →
      k.prio c = (k.mutexes m).originalPrio) :
    ∃ k' a, (MiniRTOS.osMutexUnlock k m = some (k', a, none) ∧ CalmInv k L k') ∨
      ∃ w r L', MiniRTOS.osMutexUnlock k m = some (k', a, some w) ∧ HandedOff m k L k' L' w r := by
  rw [osMutexUnlock_eq hc]
  split
  · exact ⟨_, _, Or.inl ⟨rfl, (CalmInv.refl h.enterCritical).enterCritical.exitCritical⟩⟩
  · next hne =>
      have ho : (k.mutexes m).owner = some c := not_not.mp hne
      have hm₂ := Mutex.mutexes_dropLock k m
      have h₂ : TaskListInv (Mutex.dropLock k m) L := h.enterCritical.setMutex rfl
      have hcalm₂ : Calm k L (Mutex.dropLock k m) L := Calm.objects rfl rfl rfl
      split
      · exact ⟨_, _, Or.inl ⟨rfl, CalmInv.exitCritical ⟨L, h₂, hcalm₂⟩⟩⟩
      · next hz =>
          have hprio : (Mutex.dropLock k m).prio c = ((Mutex.dropLock k m).mutexes m).originalPrio := by
            rw [hm₂]
            exact hp ho (not_not.mp hz)
          rcases h₂.release (m := m) ht (by rw [hm₂]; exact ho) hprio with
            ⟨k₃, hk₃, L₃, h₃, hcalm₃⟩ | ⟨w, r, k₃, L₃, hk₃, hw⟩
          · rw [hk₃]
            exact ⟨_, _, Or.inl ⟨rfl, CalmInv.exitCritical ⟨L₃, h₃, hcalm₂.trans hcalm₃⟩⟩⟩
          · rw [hk₃]
            refine ⟨_, _, Or.inr ⟨w, r, L₃, rfl, hw.split, ?_, ?_⟩⟩
            · split
              · exact hw.inv.exitCritical.yield
              · exact hw.inv.exitCritical
            · refine (hcalm₂.set_wait hw.calm).then_data ?_
              split <;> rfl

end MiniRTOS
