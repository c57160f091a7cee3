import MiniRTOS.Kernel.MutexInv
import MiniRTOS.Kernel.Watchdog

/-! # Deleting another task

`os_task_delete` of another task takes it out of the ready list when it is READY and frees its memory.
It does not look at the list a BLOCKED task is in, at the mutexes that the task owns, or at the
watchdog. `TaskSys.Loose` is the state in which nothing points to the task; exactly then does the
freed control block vanish from the system. -/

namespace MiniRTOS

open PtrList Runs

variable {k k' : Kernel} {L L' : Layout} {t : TaskId} {P : Place}

/-! ## Lists as the walks see them -/

/-- Following the `next` pointers from the head of the list arrives at `t`. -/
def Kernel.OnList (k : Kernel) (P : Place) (t : TaskId) : Prop :=
  ∃ a, k.listHead P = some a ∧ Relation.ReflTransGen (fun x y => k.links.next x = some y) a t

/-- The tasks on a list are those of the layout. -/
theorem ListsOk.onList_iff (h : ListsOk k L) : k.OnList P t ↔ t ∈ L P := by
  have hpath : Path k.links.next (L P) none := by
    by_cases hP : P = .deferred
    · subst hP
      exact h.path
    · exact (h.seg P hP).path
  have hhead := h.head P
  rw [Kernel.OnList, hhead]
  cases hl : L P with
  | nil => simp
  | cons a l =>
      rw [hl] at hpath
      rw [hpath.mem_iff_reaches]
      simp

/-! ## The list invariant -/

/-- Outside the lists, `os_task_delete` of another task marks it and frees its memory. -/
theorem osTaskDeleteOther_data (k : Kernel) (t : TaskId) :
    (osTaskDeleteOther k t).data = { k with
      tcb := Function.update k.tcb t { k.tcb t with state := .deleted }
      freed := (osTaskDeleteOther k t).freed
      liveTcbs := k.liveTcbs.erase t }.data := by
  simp only [osTaskDeleteOther]
  split <;> split <;> rfl

/-- The deleted task is not live any more. -/
theorem liveTcbs_osTaskDeleteOther (k : Kernel) (t : TaskId) :
    (osTaskDeleteOther k t).liveTcbs = k.liveTcbs.erase t :=
  (liveTcbs_of_data (osTaskDeleteOther_data k t) : _)

/-- The mutexes stay with their owners, the deleted task among them. -/
theorem locks_osTaskDeleteOther (k : Kernel) (t : TaskId) :
    (osTaskDeleteOther k t).view.locks = k.view.locks :=
  (congrArg (fun k => k.view.locks) (osTaskDeleteOther_data k t) : _)

/-- A control block that is in no list may be given up. -/
theorem TaskListInv.drop {v : Tcb} (h : TaskListInv k L) (hl : ListsOk k' L')
    (hmem : ∀ x, x ≠ t → ∀ P, x ∈ L' P ↔ x ∈ L P) (hnot : ∀ P, t ∉ L' P)
    (htcb : k'.tcb = Function.update k.tcb t v) (hlive : k'.liveTcbs = k.liveTcbs.erase t)
    (htable : k'.taskTable = k.taskTable) : TaskListInv k' L' := by
  have hmem' : ∀ x, x ∈ k'.liveTcbs ↔ x ≠ t ∧ x ∈ k.liveTcbs := fun x => by
    rw [hlive, h.liveNodup.mem_erase_iff]
  have hsame : ∀ x, x ≠ t → k'.tcb x = k.tcb x := fun x hx => by
    rw [htcb, Function.update_of_ne hx]
  refine ⟨hl, fun P x hx => ?_, fun x hx P => ?_, fun x hx => ?_, ?_, ?_, htable ▸ h.tableBound⟩
  · have hxt : x ≠ t := fun hxt => hnot P (hxt ▸ hx)
    exact (hmem' x).mpr ⟨hxt, h.live P x ((hmem x hxt P).mp hx)⟩
  · obtain ⟨hxt, hx⟩ := (hmem' x).mp hx
    rw [hmem x hxt, h.placed x hx, hsame x hxt]
  · obtain ⟨hxt, hx⟩ := (hmem' x).mp hx
    rw [hsame x hxt]
    exact h.coherent x hx
  · rw [hlive]
    exact h.liveNodup.erase t
  · rw [hlive, htable]
    exact (List.length_erase_le).trans h.liveCount

/-- Deleting a task that is not READY moves nobody. -/
theorem ListsOk.deleteOther_of_ne (h : ListsOk k L) (hs : (k.tcb t).state ≠ .ready) :
    ListsOk (osTaskDeleteOther k t) L := by
  have hs' : ¬ ((osSchedEnterCritical k).tcb t).state = .ready := hs
  simp only [osTaskDeleteOther, if_neg hs']
  split
  · exact h.congr rfl rfl rfl fun P => by cases P <;> rfl
  · exact h.congr rfl rfl rfl fun P => by cases P <;> rfl

/-- The lists after the deletion of a task that is not BLOCKED: it is in none of them. -/
theorem TaskListInv.deleteOther_lists (h : TaskListInv k L) (ht : t ∈ k.liveTcbs)
    (hs : (k.tcb t).state = .ready ∨ (k.tcb t).state = .suspended) :
    ∃ L', ListsOk (osTaskDeleteOther k t) L' ∧ (∀ x, x ≠ t → ∀ P, x ∈ L' P ↔ x ∈ L P) ∧
      (∀ P, t ∉ L' P) ∧ ∀ m, L' (.wait (.mutex m)) = L (.wait (.mutex m)) := by
  rcases hs with hs | hs
  · have hmem := h.mem_ready ht (Or.inl hs)
    have hl := osTaskRemoveFromReady_lists h.lists.enterCritical hmem
    refine ⟨L.remove (.ready (k.prio t)) t, ?_, fun x hx P => Layout.mem_remove_of_ne _ _ _ hx,
      h.lists.not_mem_remove hmem, fun m => Layout.remove_wait _ (by simp) _ (.mutex m)⟩
    have hs' : ((osSchedEnterCritical k).tcb t).state = .ready := hs
    simp only [osTaskDeleteOther, if_pos hs']
    split
    · exact hl.congr rfl rfl rfl fun P => by cases P <;> rfl
    · exact hl.congr rfl rfl rfl fun P => by cases P <;> rfl
  · refine ⟨L, ?_, fun x hx P => Iff.rfl, fun P hP => ?_, fun m => rfl⟩
    · exact h.lists.deleteOther_of_ne (by simp [hs])
    · exact Tcb.fits_suspended hs P ((h.placed t ht P).mp hP)

/-- **Deleting a task that is READY or SUSPENDED** keeps the list invariant. -/
theorem TaskListInv.deleteOther (h : TaskListInv k L) (ht : t ∈ k.liveTcbs)
    (hs : (k.tcb t).state = .ready ∨ (k.tcb t).state = .suspended) :
    ∃ L', TaskListInv (osTaskDeleteOther k t) L' ∧ (∀ P, t ∉ L' P) ∧
      ∀ m, L' (.wait (.mutex m)) = L (.wait (.mutex m)) := by
  obtain ⟨L', hl, hmem, hnot, hw⟩ := h.deleteOther_lists ht hs
  have hd := osTaskDeleteOther_data k t
  exact ⟨L', h.drop hl hmem hnot (tcb_of_data hd) (liveTcbs_of_data hd : _)
    (taskTable_of_data hd : _), hnot, hw⟩

/-- A BLOCKED task stays on the list it is in. -/
theorem TaskListInv.deleteOther_blocked (h : TaskListInv k L) (ht : t ∈ k.liveTcbs)
    (hs : (k.tcb t).state = .blocked) : ∃ P, (osTaskDeleteOther k t).OnList P t := by
  have hplace : ∃ P, t ∈ L P := by
    rcases h.coherent t ht with hb | ⟨-, w, hb, hr⟩
    · exact ⟨.blocked, (h.placed t ht _).mpr ⟨hs, hb⟩⟩
    · exact ⟨.wait w, (h.placed t ht _).mpr ⟨hs, hb, hr⟩⟩
  obtain ⟨P, hP⟩ := hplace
  exact ⟨P, (h.lists.deleteOther_of_ne (by simp [hs])).onList_iff.mpr hP⟩

/-! ## The system with deletion and watchdog -/

/-- The kernel, its callers and the watchdog. -/
structure TaskSys where
  /-- The kernel and its callers. -/
  sys : Sys
  /-- The watchdog. -/
  wdt : Watchdog
  /-- The control blocks that `os_task_delete` freed and that were not handed out again since. -/
  gone : List TaskId

/-- What can happen: a step of the system, the deletion of another task, a watchdog call. -/
inductive TaskOp
  /-- A step of the system. -/
  | call (op : Op)
  /-- `os_task_delete` of another task. -/
  | deleteTask (t : TaskId)
  /-- `os_wdt_register`. -/
  | wdtRegister (handle : Option TaskId) (deadline : Nat) (cb : Option Addr) (param : Addr)
  /-- `os_wdt_unregister`. -/
  | wdtUnregister (handle : Option TaskId)
  /-- `os_wdt_feed_task`. -/
  | wdtFeed (handle : Option TaskId)
  /-- `os_wdt_pause`. -/
  | wdtPause (handle : Option TaskId)
  /-- `os_wdt_resume`. -/
  | wdtResume (handle : Option TaskId)
  /-- `os_wdt_set_deadline`. -/
  | wdtSetDeadline (handle : Option TaskId) (newDeadline : Nat)
  /-- `os_wdt_tick`. -/
  | wdtTick

/-- A watchdog call that also runs a critical section. -/
def TaskSys.onWdt (s : TaskSys) (r : Status × Kernel × Watchdog) : TaskSys :=
  { s with sys := s.sys.onIsr r.2.1, wdt := r.2.2 }

/-- **One step.** The callbacks of the watchdog do not call the watchdog. -/
def taskStep (s : TaskSys) : TaskOp → Option TaskSys
  | .call op => (step s.sys op).map fun sys =>
      { s with sys := sys, gone := s.gone.filter fun t => t ∉ sys.kernel.liveTcbs }
  | .deleteTask t => (osTaskDelete s.sys.kernel (some t)).map fun r =>
      { s with sys := s.sys.after r.2, gone := t :: s.gone }
  | .wdtRegister t n cb p => some (s.onWdt (osWdtRegister s.sys.kernel s.wdt t n cb p))
  | .wdtUnregister t => some (s.onWdt (osWdtUnregister s.sys.kernel s.wdt t))
  | .wdtFeed t => some { s with wdt := (osWdtFeedTask s.wdt t).2 }
  | .wdtPause t => some { s with wdt := (osWdtPause s.wdt t).2 }
  | .wdtResume t => some { s with wdt := (osWdtResume s.wdt t).2 }
  | .wdtSetDeadline t n => some (s.onWdt (osWdtSetDeadline s.sys.kernel s.wdt t n))
  | .wdtTick => (osWdtTick (fun _ _ _ w => w) s.wdt).map fun w => { s with wdt := w }

/-- A task that another one can delete: it is live, not current and READY, SUSPENDED or BLOCKED. -/
def TaskSys.Deletable (s : TaskSys) (t : TaskId) : Prop :=
  s.sys.Permits .startup ∧ t ∈ s.sys.kernel.liveTcbs ∧ s.sys.kernel.current ≠ some t ∧
    ((s.sys.kernel.tcb t).state = .ready ∨ (s.sys.kernel.tcb t).state = .suspended ∨
      (s.sys.kernel.tcb t).state = .blocked)

/-- **Nothing points to the task**: it is not BLOCKED, owns no mutex and has no watchdog entry. -/
def TaskSys.Loose (s : TaskSys) (t : TaskId) : Prop :=
  (s.sys.kernel.tcb t).state ≠ .blocked ∧ (∀ m, (s.sys.kernel.mutexes m).owner ≠ some t) ∧
    some t ∉ s.wdt.tasks

/-- **The control block has vanished**: it is on no list, owns no mutex and has no watchdog entry. -/
def TaskSys.Vanished (s : TaskSys) (t : TaskId) : Prop :=
  (∀ P, ¬ s.sys.kernel.OnList P t) ∧ (∀ m, (s.sys.kernel.mutexes m).owner ≠ some t) ∧
    some t ∉ s.wdt.tasks

/-- What the environment does: it uses the mutexes properly, deletes tasks that can be deleted and
registers live tasks. -/
def TaskOp.Allowed (s : TaskSys) : TaskOp → Prop
  | .call op => SafeStep s.sys op
  | .deleteTask t => s.Deletable t
  | .wdtRegister t _ _ _ => ∀ x ∈ t, x ∈ s.sys.kernel.liveTcbs
  | _ => True

/-- The steps of the runs below: only loose tasks are deleted. -/
def TaskOp.Tidy (s : TaskSys) (op : TaskOp) : Prop :=
  op.Allowed s ∧ ∀ t, op = .deleteTask t → s.Loose t

/-! ## The invariant -/

/-- Tasks and mutexes are in order, and freed control blocks are neither live nor watched. -/
structure TidyInv (s : TaskSys) (L : Layout) : Prop where
  /-- The lists and the mutexes. -/
  locks : LockInv s.sys L
  /-- Freed control blocks are not live. -/
  dead : ∀ t ∈ s.gone, t ∉ s.sys.kernel.liveTcbs
  /-- Freed control blocks have no watchdog entry. -/
  unwatched : ∀ t ∈ s.gone, some t ∉ s.wdt.tasks

variable {s s' : TaskSys} {op : TaskOp}

/-- Freed control blocks have vanished. -/
theorem TidyInv.vanished (h : TidyInv s L) (ht : t ∈ s.gone) : s.Vanished t := by
  have hdead := h.dead t ht
  refine ⟨fun P hP => hdead ?_, fun m hm => hdead ?_, h.unwatched t ht⟩
  · exact h.locks.tasks.lists.live P t (h.locks.tasks.lists.lists.onList_iff.mp hP)
  · exact (h.locks.tasks.owners m t hm).1

/-- A critical section changes nothing that the invariant looks at. -/
theorem LockInv.critical {s : Sys} (h : LockInv s L) :
    LockInv (s.onIsr (osSchedExitCritical (osSchedEnterCritical s.kernel))) L :=
  ⟨⟨h.tasks.lists.enterCritical.exitCritical, h.tasks.running, h.tasks.timedOut, h.tasks.owners⟩,
    h.mutexes⟩

/-- The deletion of a loose task keeps the lists and the mutexes in order. -/
theorem LockInv.deleteOther {s : Sys} (h : LockInv s L) (ht : t ∈ s.kernel.liveTcbs)
    (hs : (s.kernel.tcb t).state = .ready ∨ (s.kernel.tcb t).state = .suspended)
    (hfree : ∀ m, (s.kernel.mutexes m).owner ≠ some t) :
    ∃ L', LockInv (s.after (osTaskDeleteOther s.kernel t)) L' := by
  obtain ⟨L', h', -, hw⟩ := h.tasks.lists.deleteOther ht hs
  have hd := osTaskDeleteOther_data s.kernel t
  have htcb : (osTaskDeleteOther s.kernel t).tcb
      = Function.update s.kernel.tcb t { s.kernel.tcb t with state := .deleted } := tcb_of_data hd
  have hlive := liveTcbs_osTaskDeleteOther s.kernel t
  have hview := locks_osTaskDeleteOther s.kernel t
  have hmem : ∀ x ∈ (osTaskDeleteOther s.kernel t).liveTcbs, x ≠ t ∧ x ∈ s.kernel.liveTcbs := by
    intro x hx
    rwa [hlive, h.tasks.lists.liveNodup.mem_erase_iff] at hx
  have hsame : ∀ x, x ≠ t → (osTaskDeleteOther s.kernel t).tcb x = s.kernel.tcb x := fun x hx => by
    rw [htcb, Function.update_of_ne hx]
  have hcur : (osTaskDeleteOther s.kernel t).current = s.kernel.current :=
    (current_of_data hd : _)
  refine ⟨L', ⟨h', fun x hx hr => ?_, fun x hx => ?_, fun m o hm => ?_⟩, fun m => ?_⟩
  · obtain ⟨hxt, hx⟩ := hmem x hx
    exact hcur.trans (h.tasks.running x hx ((hsame x hxt) ▸ hr))
  · obtain ⟨hxt, hx⟩ := hmem x hx
    exact (congrArg Tcb.timedOut (hsame x hxt)).trans (h.tasks.timedOut x hx)
  · have howner : (s.kernel.mutexes m).owner = some o := by
      have hl := congrArg (fun f => (f m).owner) hview
      exact hl.symm.trans hm
    -- a task that owns a mutex is not the one deleted, by `hfree`
    have hot : o ≠ t := fun hot => hfree m (hot ▸ howner)
    obtain ⟨hl, hst⟩ := h.tasks.owners m o howner
    refine ⟨?_, ?_⟩
    · show o ∈ (osTaskDeleteOther s.kernel t).liveTcbs
      rw [hlive, h.tasks.lists.liveNodup.mem_erase_iff]
      exact ⟨hot, hl⟩
    · show ((osTaskDeleteOther s.kernel t).tcb o).state ≠ .deleted
      rwa [hsame o hot]
  · show MutexOk ((osTaskDeleteOther s.kernel t).view.locks m) m _ s.call s.log
    rw [hview, hw]
    exact h.mutexes m

/-- A watchdog call keeps the invariant when it adds no entry for a freed control block. -/
theorem TidyInv.onWdt {r : Status × Kernel × Watchdog} (h : TidyInv s L)
    (hk : r.2.1 = s.sys.kernel ∨ r.2.1 = osSchedExitCritical (osSchedEnterCritical s.sys.kernel))
    (hw : ∀ t ∈ s.gone, some t ∈ r.2.2.tasks → some t ∈ s.wdt.tasks) : TidyInv (s.onWdt r) L := by
  have hlive : r.2.1.liveTcbs = s.sys.kernel.liveTcbs := by
    rcases hk with hk | hk
    · rw [hk]
    · rw [hk]
      rfl
  refine ⟨?_, fun t ht => ?_, fun t ht hm => h.unwatched t ht (hw t ht hm)⟩
  · show LockInv (s.sys.onIsr r.2.1) L
    rcases hk with hk | hk
    · rw [hk]
      exact h.locks
    · rw [hk]
      exact h.locks.critical
  · show t ∉ r.2.1.liveTcbs
    rw [hlive]
    exact h.dead t ht

/-- Registering adds at most the task it is called for. -/
theorem osWdtRegister_spec (k : Kernel) (w : Watchdog) (handle : Option TaskId) (n : Nat)
    (cb : Option Addr) (p : Addr) :
    ((osWdtRegister k w handle n cb p).2.1 = k ∨
      (osWdtRegister k w handle n cb p).2.1 = osSchedExitCritical (osSchedEnterCritical k)) ∧
    ∀ x ∈ (osWdtRegister k w handle n cb p).2.2.tasks, x ∈ w.tasks ∨ x = handle := by
  cases handle with
  | none => exact ⟨Or.inl rfl, fun x hx => Or.inl hx⟩
  | some t =>
      simp only [osWdtRegister]
      split
      · exact ⟨Or.inl rfl, fun x hx => Or.inl hx⟩
      · split
        · exact ⟨Or.inr rfl, fun x hx => Or.inl hx⟩
        · split
          · exact ⟨Or.inr rfl, fun x hx => Or.inl hx⟩
          · refine ⟨Or.inr rfl, fun x hx => ?_⟩
            simpa [Watchdog.tasks] using hx

/-- Unregistering adds nobody. -/
theorem osWdtUnregister_spec (k : Kernel) (w : Watchdog) (handle : Option TaskId) :
    ((osWdtUnregister k w handle).2.1 = k ∨
      (osWdtUnregister k w handle).2.1 = osSchedExitCritical (osSchedEnterCritical k)) ∧
    ∀ x ∈ (osWdtUnregister k w handle).2.2.tasks, x ∈ w.tasks := by
  cases handle with
  | none => exact ⟨Or.inl rfl, fun x hx => hx⟩
  | some t =>
      simp only [osWdtUnregister]
      split
      · exact ⟨Or.inr rfl, fun x hx => hx⟩
      · exact ⟨Or.inr rfl, fun x hx => List.map_subset _ (compact_subset _ _) hx⟩

/-- A new deadline changes no task. -/
theorem osWdtSetDeadline_spec (k : Kernel) (w : Watchdog) (handle : Option TaskId) (n : Nat) :
    ((osWdtSetDeadline k w handle n).2.1 = k ∨
      (osWdtSetDeadline k w handle n).2.1 = osSchedExitCritical (osSchedEnterCritical k)) ∧
    (osWdtSetDeadline k w handle n).2.2.tasks = w.tasks := by
  have htasks := updateEntry_tasks w handle
    (f := fun e => { e with deadline := n, remaining := n }) fun _ => rfl
  rw [osWdtSetDeadline]
  split
  · exact ⟨Or.inl rfl, rfl⟩
  · split
    · next hu => exact ⟨Or.inr rfl, by rw [← htasks, hu]⟩
    · next hu => exact ⟨Or.inl rfl, by rw [← htasks, hu]⟩

/-- Watchdog calls without a critical section. -/
theorem TidyInv.setWdt {w : Watchdog} (h : TidyInv s L) (hw : w.tasks = s.wdt.tasks) :
    TidyInv { s with wdt := w } L :=
  ⟨h.locks, h.dead, fun t ht hm => h.unwatched t ht (hw ▸ hm)⟩

/-- **Tidy steps keep the invariant.** -/
theorem TidyInv.step (h : TidyInv s L) (hop : op.Tidy s) (hs : taskStep s op = some s') :
    ∃ L', TidyInv s' L' := by
  obtain ⟨ha, hloose⟩ := hop
  cases op with
  -- a creation may hand out a freed block again, which then counts as live
  | call op =>
      obtain ⟨sys, hsys, rfl⟩ := Option.map_eq_some_iff.mp hs
      obtain ⟨L', h'⟩ := h.locks.step ha hsys
      refine ⟨L', h', fun t ht => ?_, fun t ht => h.unwatched t (List.mem_of_mem_filter ht)⟩
      simpa using List.of_mem_filter ht
  | deleteTask t =>
      obtain ⟨-, ht, hcur, hst⟩ := ha
      obtain ⟨hb, hfree, hwdt⟩ := hloose t rfl
      have hst' : (s.sys.kernel.tcb t).state = .ready ∨ (s.sys.kernel.tcb t).state = .suspended := by
        rcases hst with hst | hst | hst
        · exact Or.inl hst
        · exact Or.inr hst
        · exact absurd hst hb
      obtain ⟨L', h'⟩ := h.locks.deleteOther ht hst' hfree
      rw [taskStep, osTaskDelete, if_neg hcur] at hs
      obtain rfl := Option.some.inj hs
      have hlive := liveTcbs_osTaskDeleteOther s.sys.kernel t
      refine ⟨L', h', fun x hx => ?_, fun x hx => ?_⟩
      · show x ∉ (osTaskDeleteOther s.sys.kernel t).liveTcbs
        rw [hlive, h.locks.tasks.lists.liveNodup.mem_erase_iff]
        rcases List.mem_cons.mp hx with rfl | hx
        · simp
        · exact fun hl => h.dead x hx hl.2
      · rcases List.mem_cons.mp hx with rfl | hx
        · exact hwdt
        · exact h.unwatched x hx
  | wdtRegister t n cb p =>
      obtain rfl := Option.some.inj hs
      obtain ⟨hk, hw⟩ := osWdtRegister_spec s.sys.kernel s.wdt t n cb p
      refine ⟨L, h.onWdt hk fun x hx hm => ?_⟩
      -- a registered task is live, so its block is not among the freed ones
      rcases hw _ hm with hm | rfl
      · exact hm
      · exact absurd (ha x rfl) (h.dead x hx)
  | wdtUnregister t =>
      obtain rfl := Option.some.inj hs
      obtain ⟨hk, hw⟩ := osWdtUnregister_spec s.sys.kernel s.wdt t
      exact ⟨L, h.onWdt hk fun x _ hm => hw _ hm⟩
  | wdtFeed t =>
      obtain rfl := Option.some.inj hs
      exact ⟨L, h.setWdt (updateEntry_tasks _ _ fun _ => rfl)⟩
  | wdtPause t =>
      obtain rfl := Option.some.inj hs
      exact ⟨L, h.setWdt (updateEntry_tasks _ _ fun _ => rfl)⟩
  | wdtResume t =>
      obtain rfl := Option.some.inj hs
      exact ⟨L, h.setWdt (updateEntry_tasks _ _ fun _ => rfl)⟩
  | wdtSetDeadline t n =>
      obtain rfl := Option.some.inj hs
      obtain ⟨hk, hw⟩ := osWdtSetDeadline_spec s.sys.kernel s.wdt t n
      exact ⟨L, h.onWdt hk fun x _ hm => hw ▸ hm⟩
  | wdtTick =>
      obtain ⟨w, hw, rfl⟩ := Option.map_eq_some_iff.mp hs
      exact ⟨L, h.setWdt (wdtLoop_tasks (fun _ _ _ _ => rfl) hw)⟩

/-! ## Runs -/

/-- The system at start-up, with an empty watchdog. -/
def TaskSys.start (s₀ : Sys) : TaskSys := ⟨s₀, osWdtInit, []⟩

/-- Whether a task can be deleted can be decided. -/
instance (s : TaskSys) (t : TaskId) : Decidable (s.Deletable t) :=
  inferInstanceAs (Decidable (_ ∧ _))

/-- Steps that touch no mutex and delete tasks that are neither BLOCKED nor watched. -/
def TaskOp.Plain (s : TaskSys) : TaskOp → Prop
  | .call op => s.sys.PlainUse op ∧ ¬ s.sys.BoostedRelease op ∧ op.mutex = none
  | .deleteTask t => s.Deletable t ∧ (s.sys.kernel.tcb t).state ≠ .blocked ∧ some t ∉ s.wdt.tasks
  | .wdtRegister t _ _ _ => ∀ x ∈ t, x ∈ s.sys.kernel.liveTcbs
  | _ => True

/-- Whether a step is a plain one can be decided. -/
instance (s : TaskSys) (op : TaskOp) : Decidable (op.Plain s) := by
  cases op <;> unfold TaskOp.Plain <;> infer_instance

/-- Watchdog calls lock no mutex. -/
theorem noneHeld_onWdt {r : Status × Kernel × Watchdog}
    (hk : r.2.1 = s.sys.kernel ∨ r.2.1 = osSchedExitCritical (osSchedEnterCritical s.sys.kernel))
    (hfree : s.sys.NoneHeld) : (s.onWdt r).sys.NoneHeld := by
  have hm : r.2.1.mutexes = s.sys.kernel.mutexes := by
    rcases hk with hk | hk
    · rw [hk]
    · rw [hk]
      rfl
  intro m
  show (r.2.1.mutexes m).owner = none ∧ (r.2.1.mutexes m).lockCount = 0
  rw [hm]
  exact hfree m

/-- Plain steps lock no mutex. -/
theorem TaskOp.Plain.noneHeld (hop : op.Plain s) (hfree : s.sys.NoneHeld)
    (hs : taskStep s op = some s') : s'.sys.NoneHeld := by
  cases op with
  | call op =>
      obtain ⟨sys, hsys, rfl⟩ := Option.map_eq_some_iff.mp hs
      intro m
      have hl := step_locks_of_ne (m := m) hop.1.1 (by rw [hop.2.2]; simp) hsys
      have howner := congrArg Mutex.owner hl
      have hcount := congrArg Mutex.lockCount hl
      exact ⟨howner.trans (hfree m).1, hcount.trans (hfree m).2⟩
  | deleteTask t =>
      have hview := locks_osTaskDeleteOther s.sys.kernel t
      rw [taskStep, osTaskDelete, if_neg hop.1.2.2.1] at hs
      obtain rfl := Option.some.inj hs
      intro m
      have howner := congrArg (fun f => (f m).owner) hview
      have hcount := congrArg (fun f => (f m).lockCount) hview
      exact ⟨howner.trans (hfree m).1, hcount.trans (hfree m).2⟩
  | wdtRegister t n cb p =>
      obtain rfl := Option.some.inj hs
      exact noneHeld_onWdt (osWdtRegister_spec s.sys.kernel s.wdt t n cb p).1 hfree
  | wdtUnregister t =>
      obtain rfl := Option.some.inj hs
      exact noneHeld_onWdt (osWdtUnregister_spec s.sys.kernel s.wdt t).1 hfree
  | wdtSetDeadline t n =>
      obtain rfl := Option.some.inj hs
      exact noneHeld_onWdt (osWdtSetDeadline_spec s.sys.kernel s.wdt t n).1 hfree
  | wdtTick =>
      obtain ⟨w, -, rfl⟩ := Option.map_eq_some_iff.mp hs
      exact hfree
  | _ =>
      obtain rfl := Option.some.inj hs
      exact hfree

/-- Plain steps are tidy while no mutex is held. -/
theorem TaskOp.Plain.tidy (hop : op.Plain s) (hfree : s.sys.NoneHeld) : op.Tidy s := by
  cases op with
  | call op => exact ⟨⟨hop.1.proper, hop.2.1⟩, fun t ht => by cases ht⟩
  | deleteTask t =>
      refine ⟨hop.1, fun x hx => ?_⟩
      obtain rfl := TaskOp.deleteTask.inj hx
      have howner : ∀ m, (s.sys.kernel.mutexes m).owner ≠ some t := fun m => by simp [(hfree m).1]
      exact ⟨hop.2.1, howner, hop.2.2⟩
  | wdtRegister t n cb p => exact ⟨hop, fun t ht => by cases ht⟩
  | _ => exact ⟨trivial, fun t ht => by cases ht⟩

/-- Three tasks; the current one watches another for a while, suspends and deletes it, and deletes a
READY one. -/
def tidyTrace : List TaskOp :=
  [.call (.create (taskAt 0x100 3)), .call (.create (taskAt 0x200 5)),
    .call (.create (taskAt 0x300 6)), .call .selectNext, .wdtRegister (some 0x200) 10 (some 0x99) 0,
    .wdtTick, .wdtUnregister (some 0x200), .call (.suspend 0x200), .deleteTask 0x200,
    .deleteTask 0x300]

/-- A task waits for a semaphore when another one deletes it. -/
def waiterDeletedTrace : List TaskOp :=
  [.call (.semCreateCounting 0x10 1 0), .call (.create (taskAt 0x100 5)),
    .call (.create (taskAt 0x200 1)), .call .selectNext, .call (.semTake 0x10 waitForever),
    .call .selectNext]

end MiniRTOS
