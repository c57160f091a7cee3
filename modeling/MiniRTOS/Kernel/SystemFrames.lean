import MiniRTOS.Kernel.Frames
import MiniRTOS.Kernel.System

/-! # Steps that queues and mutexes do not notice

Most steps of the system change neither a ring, nor an owner, nor a priority, and log nothing. -/

namespace MiniRTOS

open ByteMemory Runs

variable {s s' : Sys} {op : Op}

/-- The steps that are no call on a queue or mutex, create no task and return from no call. -/
def Op.quiet : Op → Bool
  | .create _ | .createSuspended _ | .queueCreate .. | .queueSend .. | .queueSendFromIsr ..
  | .queueReceive .. | .queueReceiveFromIsr _ | .mutexCreate _ | .mutexLock .. | .mutexUnlock _
  | .returnFromCall | .scribble .. => false
  | _ => true

/-- The view after a blocking call that logs nothing. -/
theorem Sys.view_outcome {α : Type} (s : Sys) (c : TaskId) (call : Call) (r : Outcome α) :
    (s.outcome c call (fun s _ => s) r).kernel.view = s.kernel.view ∧
      (s.outcome c call (fun s _ => s) r).log = s.log := by
  cases r <;> exact ⟨rfl, rfl⟩

/-- **Quiet steps** change no ring, owner or priority, add no control block, and log nothing. -/
theorem step_quiet (hq : op.quiet = true) (h : step s op = some s') :
    ∃ l c, l ⊆ s.kernel.liveTcbs ∧ (op ≠ .selectNext → c = s.kernel.current) ∧
      s'.kernel.view = (s.kernel.view.setLive l).setCurrent c ∧ s'.log = s.log := by
  by_cases htick : op = .tick
  · subst htick
    obtain ⟨k, hk, rfl⟩ := Option.map_eq_some_iff.mp h
    obtain ⟨l, hl, hv⟩ := view_osTaskTick hk
    exact ⟨l, _, hl, fun _ => rfl, hv, rfl⟩
  by_cases hsel : op = .selectNext
  · subst hsel
    obtain rfl := Option.some.inj h
    exact ⟨_, _, List.Subset.refl _, fun hne => absurd rfl hne, view_osSchedSelectNext s.kernel, rfl⟩
  -- the other quiet steps free no control block and select no task
  suffices hsame : s'.kernel.view = s.kernel.view ∧ s'.log = s.log from
    ⟨_, _, List.Subset.refl _, fun _ => rfl, hsame.1, hsame.2⟩
  cases op with
  | create a => cases hq
  | createSuspended a => cases hq
  | queueCreate q sz n b => cases hq
  | queueSend q item n => cases hq
  | queueSendFromIsr q item => cases hq
  | queueReceive q n => cases hq
  | queueReceiveFromIsr q => cases hq
  | mutexCreate m => cases hq
  | mutexLock m n => cases hq
  | mutexUnlock m => cases hq
  | returnFromCall => cases hq
  | scribble t v nx pv => cases hq
  | suspend t =>
      obtain rfl := Option.some.inj h
      exact ⟨view_osTaskSuspend s.kernel t, rfl⟩
  | resume t =>
      obtain rfl := Option.some.inj h
      exact ⟨view_osTaskResume s.kernel t, rfl⟩
  | delay n =>
      obtain ⟨k, hk, rfl⟩ := Option.map_eq_some_iff.mp h
      exact ⟨view_osTaskDelay hk, rfl⟩
  | delayUntil a b =>
      obtain ⟨r, hr, rfl⟩ := Option.map_eq_some_iff.mp h
      exact ⟨view_osTaskDelayUntil hr, rfl⟩
  | deleteSelf =>
      obtain ⟨k, hk, rfl⟩ := Option.map_eq_some_iff.mp h
      exact ⟨view_osTaskDeleteSelf hk, rfl⟩
  | notify t v =>
      obtain ⟨r, hr, rfl⟩ := Option.map_eq_some_iff.mp h
      exact ⟨view_osTaskNotify hr, rfl⟩
  | notifyFromIsr t v =>
      obtain rfl := Option.some.inj h
      exact ⟨view_osTaskNotifyFromIsr s.kernel t v, rfl⟩
  | notifyWait n =>
      obtain ⟨c, k, r, -, hr, rfl⟩ := Sys.blockingCall_inv h
      obtain ⟨hv, hl⟩ := Sys.view_outcome (s.after k) c .notifyWait r
      exact ⟨hv.trans (view_osTaskNotifyWait hr), hl⟩
  | semCreateCounting a m n =>
      obtain rfl := Option.some.inj h
      exact ⟨view_osSemCreateCounting s.kernel a m n, rfl⟩
  | semTake a n =>
      obtain ⟨c, k, r, -, hr, rfl⟩ := Sys.blockingCall_inv h
      obtain ⟨hv, hl⟩ := Sys.view_outcome (s.after k) c (.semTake a) r
      exact ⟨hv.trans (view_osSemTake hr), hl⟩
  | semTakeFromIsr a =>
      obtain rfl := Option.some.inj h
      exact ⟨view_osSemTakeFromIsr s.kernel a, rfl⟩
  | semGive a =>
      obtain ⟨r, hr, rfl⟩ := Option.map_eq_some_iff.mp h
      exact ⟨view_osSemGive hr, rfl⟩
  | semGiveFromIsr a =>
      obtain rfl := Option.some.inj h
      exact ⟨view_osSemGiveFromIsr s.kernel a, rfl⟩
  | eventCreate e =>
      obtain rfl := Option.some.inj h
      exact ⟨rfl, rfl⟩
  | eventWait e bits options n =>
      obtain ⟨c, k, r, -, hr, rfl⟩ := Sys.blockingCall_inv h
      obtain ⟨hv, hl⟩ := Sys.view_outcome (s.after k) c (.eventWait e) r
      exact ⟨hv.trans (view_osEventgroupWaitBits hr), hl⟩
  | eventSet e bits =>
      obtain ⟨r, hr, rfl⟩ := Option.map_eq_some_iff.mp h
      exact ⟨view_osEventgroupSetBits hr, rfl⟩
  | eventSetFromIsr e bits =>
      obtain ⟨r, hr, rfl⟩ := Option.map_eq_some_iff.mp h
      exact ⟨view_osEventgroupSetBitsFromIsr hr, rfl⟩
  | eventClear e bits =>
      obtain rfl := Option.some.inj h
      exact ⟨rfl, rfl⟩
  | tick => exact absurd rfl htick
  | selectNext => exact absurd rfl hsel
  | writeStack a v =>
      obtain rfl := Option.some.inj h
      exact ⟨rfl, rfl⟩

/-! ## Steps that leave the mutexes alone -/

/-- The mutex whose fields a step writes. -/
def Op.mutex : Op → Option Addr
  | .mutexCreate m | .mutexLock m _ | .mutexUnlock m => some m
  | _ => none

/-- The control block of a new task. -/
def Op.newTask : Op → Option TaskId
  | .create a | .createSuspended a => a.tcbBlock
  | _ => none

/-- The mutex that a step initialises. -/
def Op.newMutex : Op → Option Addr
  | .mutexCreate m => some m
  | _ => none

/-- The events that tell who got or gave back a mutex. -/
def Event.onMutex : Event → Bool
  | .lockDone .. | .handOff .. | .unlockDone .. => true
  | _ => false

/-- The priority a task was created with. -/
def basePrio (log : List Event) (t : TaskId) : Option Nat :=
  log.foldl (fun base e =>
    match e with
    | .created x p => if x = t then some p else base
    | _ => base) none

/-- The task has the priority it was created with. -/
def Sys.AtBase (s : Sys) (t : TaskId) : Prop := basePrio s.log t = some (s.kernel.prio t).val

/-- Whether a task is at its base priority can be decided. -/
instance (s : Sys) (t : TaskId) : Decidable (s.AtBase t) :=
  inferInstanceAs (Decidable (_ = _))

/-- Only a creation of `t` changes its created priority. -/
theorem basePrio_append {log es : List Event} {t : TaskId} (h : ∀ p, .created t p ∉ es) :
    basePrio (log ++ es) t = basePrio log t := by
  unfold basePrio
  rw [List.foldl_append]
  generalize log.foldl _ none = b
  induction es generalizing b with
  | nil => rfl
  | cons e es ih =>
      have hes : ∀ p, .created t p ∉ es := fun p hp => h p (List.mem_cons_of_mem _ hp)
      rw [List.foldl_cons, ih hes]
      cases e with
      | created x p =>
          have hx : x ≠ t := by
            rintro rfl
            exact h p (List.mem_cons_self ..)
          simp [hx]
      | _ => rfl

/-- A task that has just been created has the priority it was created with. -/
theorem basePrio_created (log : List Event) (t : TaskId) (p : Nat) :
    basePrio (log ++ [.created t p]) t = some p := by
  simp [basePrio]

/-- The current task is `t`, inside the call `call`. -/
def Sys.ReturnsFrom (s : Sys) (t : TaskId) (call : Call) : Prop :=
  s.kernel.current = some t ∧ s.call t = call

/-- **What a step on other things leaves alone**: the mutex fields, the priorities of live tasks, the
lock calls in progress. A task that becomes live has the priority it was created with. -/
structure MutexFrame (op : Op) (s s' : Sys) : Prop where
  /-- Owners, counts and original priorities. -/
  locks : s'.kernel.view.locks = s.kernel.view.locks
  /-- The priorities of live tasks. -/
  prios : ∀ t ∈ s.kernel.liveTcbs, s'.kernel.prio t = s.kernel.prio t
  /-- New tasks. -/
  live : ∀ t ∈ s'.kernel.liveTcbs, t ∉ s.kernel.liveTcbs → s'.AtBase t
  /-- The calls in progress. -/
  calls : ∀ t m, s'.call t = .mutexLock m → s.call t = .mutexLock m
  /-- The log. -/
  events : ∃ es, s'.log = s.log ++ es ∧ (∀ e ∈ es, e.onMutex = false) ∧
    (∀ t p, .created t p ∈ es → t ∉ s.kernel.liveTcbs ∧ op.newTask = some t) ∧
    ∀ m t r, .lockResumed m t r ∈ es → op = .returnFromCall ∧ s.ReturnsFrom t (.mutexLock m)

namespace MutexFrame

/-- A step that changes no owner and no priority, adds no task and logs nothing of interest. -/
theorem of_view {f : Addr → Queue} {l : List TaskId} {c : Option TaskId} (es : List Event)
    (hv : s'.kernel.view = { s.kernel.view with rings := f, live := l, current := c })
    (hl : l ⊆ s.kernel.liveTcbs)
    (hcalls : ∀ t m, s'.call t = .mutexLock m → s.call t = .mutexLock m)
    (hlog : s'.log = s.log ++ es)
    (hes : ∀ e ∈ es, e.onMutex = false ∧ (∀ t p, e ≠ .created t p) ∧ ∀ m t r, e ≠ .lockResumed m t r) :
    MutexFrame op s s' := by
  have hprios : s'.kernel.view.prios = s.kernel.view.prios := by rw [hv]
  have hlive : s'.kernel.view.live = l := by rw [hv]
  refine ⟨by rw [hv], fun t _ => congrFun hprios t, fun t ht hn => ?_, hcalls, es, hlog,
    fun e he => (hes e he).1, fun t p he => absurd rfl ((hes _ he).2.1 t p),
    fun m t r he => absurd rfl ((hes _ he).2.2 m t r)⟩
  have ht' : t ∈ s'.kernel.view.live := ht
  rw [hlive] at ht'
  exact absurd (hl ht') hn

end MutexFrame

/-- No call in progress starts by leaving one. -/
theorem Sys.call_setCall {s : Sys} {c : TaskId} {call : Call} (h : ∀ m, call ≠ .mutexLock m)
    (t : TaskId) (m : Addr) (ht : (s.setCall c call).call t = .mutexLock m) :
    s.call t = .mutexLock m := by
  have hu : Function.update s.call c call t = .mutexLock m := ht
  rw [Function.update_apply] at hu
  split at hu
  · exact absurd hu (h m)
  · exact hu

/-- A blocking call other than a lock. -/
theorem Sys.call_outcome {α : Type} {s : Sys} {c : TaskId} (call : Call) (ret : Sys → α → Sys)
    (hret : ∀ s a, (ret s a).call = s.call) (h : ∀ m, call ≠ .mutexLock m) (r : Outcome α) (t : TaskId)
    (m : Addr) (ht : (s.outcome c call ret r).call t = .mutexLock m) : s.call t = .mutexLock m := by
  cases r with
  | done a =>
      rw [Sys.outcome, hret] at ht
      exact ht
  | blocked => exact Sys.call_setCall h t m ht

/-- Quiet steps start no lock call. -/
theorem step_quiet_calls (hq : op.quiet = true) (h : step s op = some s') (t : TaskId) (m : Addr)
    (ht : s'.call t = .mutexLock m) : s.call t = .mutexLock m := by
  cases op with
  | create a => cases hq
  | createSuspended a => cases hq
  | queueCreate q sz n b => cases hq
  | queueSend q item n => cases hq
  | queueSendFromIsr q item => cases hq
  | queueReceive q n => cases hq
  | queueReceiveFromIsr q => cases hq
  | mutexCreate m => cases hq
  | mutexLock m n => cases hq
  | mutexUnlock m => cases hq
  | returnFromCall => cases hq
  | scribble t v nx pv => cases hq
  | delay n =>
      obtain ⟨k, hk, rfl⟩ := Option.map_eq_some_iff.mp h
      exact ht
  | delayUntil a b =>
      obtain ⟨r, hr, rfl⟩ := Option.map_eq_some_iff.mp h
      exact ht
  | deleteSelf =>
      obtain ⟨k, hk, rfl⟩ := Option.map_eq_some_iff.mp h
      exact ht
  | notify t v =>
      obtain ⟨r, hr, rfl⟩ := Option.map_eq_some_iff.mp h
      exact ht
  | notifyWait n =>
      obtain ⟨c, k, r, -, hr, rfl⟩ := Sys.blockingCall_inv h
      exact Sys.call_outcome (s := s.after k) _ _ (fun _ _ => rfl) (by simp) _ t m ht
  | semTake a n =>
      obtain ⟨c, k, r, -, hr, rfl⟩ := Sys.blockingCall_inv h
      exact Sys.call_outcome (s := s.after k) _ _ (fun _ _ => rfl) (by simp) _ t m ht
  | semGive a =>
      obtain ⟨r, hr, rfl⟩ := Option.map_eq_some_iff.mp h
      exact ht
  | eventWait e bits options n =>
      obtain ⟨c, k, r, -, hr, rfl⟩ := Sys.blockingCall_inv h
      exact Sys.call_outcome (s := s.after k) _ _ (fun _ _ => rfl) (by simp) _ t m ht
  | eventSet e bits =>
      obtain ⟨r, hr, rfl⟩ := Option.map_eq_some_iff.mp h
      exact ht
  | eventSetFromIsr e bits =>
      obtain ⟨r, hr, rfl⟩ := Option.map_eq_some_iff.mp h
      exact ht
  | tick =>
      obtain ⟨k, hk, rfl⟩ := Option.map_eq_some_iff.mp h
      exact ht
  | _ =>
      obtain rfl := Option.some.inj h
      exact ht

/-- Creating a task. -/
theorem Sys.created_frame {a : CreateArgs} {r : Status × Option TaskId × Kernel}
    (hun : ∀ t ∈ a.tcbBlock, t ∉ s.kernel.liveTcbs) (hop : op.newTask = a.tcbBlock)
    (hv : (∃ t p sp, r.1 = .ok ∧ a.tcbBlock = some t ∧ p.val = a.priority ∧
        r.2.2.view = s.kernel.view.addTask t p sp) ∨
      r.1 ≠ .ok ∧ r.2.2.view = s.kernel.view) : MutexFrame op s (s.created a r) := by
  rcases hv with ⟨t, p, sp, hok, ht, hp, hv⟩ | ⟨hok, hv⟩
  · have hs' : s.created a r = ((s.after r.2.2).setCall t .idle).emit (.created t a.priority) := by
      unfold Sys.created
      rw [hok, ht]
    have hprio : r.2.2.prio = Function.update s.kernel.prio t p := congrArg View.prios hv
    have hlive : r.2.2.liveTcbs = s.kernel.liveTcbs ++ [t] := congrArg View.live hv
    rw [hs']
    refine ⟨(congrArg View.locks hv : _), fun x hx => ?_, fun x hx hn => ?_, fun x m hx => ?_,
      [.created t a.priority], rfl, by simp [Event.onMutex], fun x q hx => ?_, by simp⟩
    · have hxt : x ≠ t := fun hxt => hun t ht (hxt ▸ hx)
      show r.2.2.prio x = _
      rw [hprio, Function.update_of_ne hxt]
    · have hxt : x = t := by
        have hx' : x ∈ r.2.2.liveTcbs := hx
        rw [hlive, List.mem_append, List.mem_singleton] at hx'
        exact hx'.resolve_left hn
      subst hxt
      show basePrio (s.log ++ [.created x a.priority]) x = some (r.2.2.prio x).val
      rw [basePrio_created, hprio, Function.update_self, hp]
    · exact Sys.call_setCall (s := s.after r.2.2) (by simp) x m hx
    · simp only [List.mem_singleton, Event.created.injEq] at hx
      obtain ⟨rfl, rfl⟩ := hx
      exact ⟨hun x ht, hop.trans ht⟩
  · have hs' : s.created a r = s.after r.2.2 := by
      unfold Sys.created
      split
      · next h _ => exact absurd h hok
      · rfl
    rw [hs']
    exact .of_view [] hv (List.Subset.refl _) (fun _ _ h => h) (List.append_nil _).symm
      (by simp)

/-- A call on a queue. -/
theorem MutexFrame.of_ring {q : Addr} (qu : Queue) (es : List Event)
    (hv : s'.kernel.view = s.kernel.view.setRing q qu ∨ s'.kernel.view = s.kernel.view)
    (hcalls : ∀ t m, s'.call t = .mutexLock m → s.call t = .mutexLock m)
    (hlog : s'.log = s.log ++ es)
    (hes : ∀ e ∈ es, e.onMutex = false ∧ (∀ t p, e ≠ .created t p) ∧ ∀ m t r, e ≠ .lockResumed m t r) :
    MutexFrame op s s' := by
  rcases hv with hv | hv
  · exact .of_view es hv (List.Subset.refl _) hcalls hlog hes
  · exact .of_view es hv (List.Subset.refl _) hcalls hlog hes

/-- **A step on other things** leaves the mutexes alone. -/
theorem step_mutexFrame (ha : op.Allowed s) (hm : op.mutex = none) (h : step s op = some s') :
    MutexFrame op s s' := by
  by_cases hq : op.quiet = true
  · obtain ⟨l, c, hl, -, hv, hlog⟩ := step_quiet hq h
    exact .of_view [] hv hl (step_quiet_calls hq h) (by simp [hlog]) (by simp)
  cases op with
  | create a =>
      obtain rfl := Option.some.inj h
      refine Sys.created_frame ha.2.2.1 rfl ?_
      rcases view_osTaskCreate s.kernel a with ⟨t, p, sp, h₁, h₂, h₃, h₄, -⟩ | h'
      · exact Or.inl ⟨t, p, sp, h₁, h₂, h₃, h₄⟩
      · exact Or.inr h'
  | createSuspended a =>
      obtain rfl := Option.some.inj h
      refine Sys.created_frame ha.2.2.1 rfl ?_
      obtain ⟨hst, hv⟩ := view_osTaskCreateSuspended s.kernel a
      rw [hst, hv]
      rcases view_osTaskCreate s.kernel a with ⟨t, p, sp, h₁, h₂, h₃, h₄, -⟩ | h'
      · exact Or.inl ⟨t, p, sp, h₁, h₂, h₃, h₄⟩
      · exact Or.inr h'
  | queueCreate q sz n b =>
      obtain rfl := Option.some.inj h
      suffices hv : ∃ f, (osQueueCreate s.kernel q sz n b).2.view = { s.kernel.view with rings := f } by
        obtain ⟨f, hv⟩ := hv
        exact .of_view [] hv (List.Subset.refl _) (fun _ _ h => h) (List.append_nil _).symm
          (by simp)
      unfold osQueueCreate
      split
      · exact ⟨_, rfl⟩
      · cases b <;> exact ⟨_, rfl⟩
  | queueSend q item n =>
      obtain ⟨c, k, r, -, hr, rfl⟩ := Sys.blockingCall_inv h
      have hcalls := Sys.call_outcome (s := s.after k) (c := c)
        (.queueSend q (readBytes item 0 (s.kernel.queues q).itemSize))
        (fun s r => s.emit (.sendDone q (readBytes item 0 (s.kernel.queues q).itemSize) r))
        (fun _ _ => rfl) (by simp) r
      have hv : k.view = s.kernel.view.setRing q ((s.kernel.view.rings q).put item) ∨
          k.view = s.kernel.view := by
        rcases view_osQueueSend hr with ⟨-, -, hv⟩ | ⟨-, hv⟩
        · exact Or.inl hv
        · exact Or.inr hv
      cases r with
      | done r => exact .of_ring _ _ hv hcalls rfl (by simp [Event.onMutex])
      | blocked => exact .of_ring _ [] hv hcalls (List.append_nil _).symm (by simp)
  | queueSendFromIsr q item =>
      obtain rfl := Option.some.inj h
      refine .of_ring (q := q) ((s.kernel.view.rings q).put item) _ ?_ (fun _ _ h => h) rfl
        (by simp [Event.onMutex])
      rcases view_osQueueSendFromIsr s.kernel q item with ⟨-, -, hv⟩ | ⟨-, hv⟩
      · exact Or.inl hv
      · exact Or.inr hv
  | queueReceive q n =>
      obtain ⟨c, k, r, -, hr, rfl⟩ := Sys.blockingCall_inv h
      have hcalls := Sys.call_outcome (s := s.after k) (c := c) (.queueReceive q)
        (fun s r => s.emit (.receiveDone q r.1 r.2)) (fun _ _ => rfl) (by simp) r
      have hv : k.view = s.kernel.view.setRing q (s.kernel.view.rings q).pop ∨
          k.view = s.kernel.view := by
        rcases view_osQueueReceive hr with ⟨-, -, hv⟩ | ⟨-, hv⟩
        · exact Or.inl hv
        · exact Or.inr hv
      cases r with
      | done r => exact .of_ring _ _ hv hcalls rfl (by simp [Event.onMutex])
      | blocked => exact .of_ring _ [] hv hcalls (List.append_nil _).symm (by simp)
  | queueReceiveFromIsr q =>
      obtain rfl := Option.some.inj h
      refine .of_ring (q := q) (s.kernel.view.rings q).pop _ ?_ (fun _ _ h => h) rfl
        (by simp [Event.onMutex])
      rcases view_osQueueReceiveFromIsr s.kernel q with ⟨-, -, hv⟩ | ⟨-, hv⟩
      · exact Or.inl hv
      · exact Or.inr hv
  | mutexCreate m => cases hm
  | mutexLock m n => cases hm
  | mutexUnlock m => cases hm
  | returnFromCall =>
      obtain ⟨c, hc, h⟩ := Option.bind_eq_some_iff.mp h
      have hcalls : ∀ t m, (s.setCall c .idle).call t = .mutexLock m → s.call t = .mutexLock m :=
        fun t m => Sys.call_setCall (by simp) t m
      cases hcall : s.call c with
      | idle =>
          rw [hcall] at h
          cases h
      | notifyWait =>
          rw [hcall] at h
          obtain rfl := Option.some.inj h
          exact .of_view [] (view_osTaskNotifyWaitResume s.kernel c) (List.Subset.refl _)
            hcalls (List.append_nil _).symm (by simp)
      | semTake a =>
          rw [hcall] at h
          obtain rfl := Option.some.inj h
          exact .of_view [] rfl (List.Subset.refl _) hcalls (List.append_nil _).symm (by simp)
      | eventWait e =>
          rw [hcall] at h
          obtain rfl := Option.some.inj h
          exact .of_view [] rfl (List.Subset.refl _) hcalls (List.append_nil _).symm (by simp)
      | mutexLock m =>
          rw [hcall] at h
          obtain rfl := Option.some.inj h
          refine ⟨rfl, fun _ _ => rfl, fun t ht hn => absurd ht hn, hcalls, _, rfl,
            by simp [Event.onMutex], by simp, fun m' t r he => ⟨rfl, ?_⟩⟩
          simp only [List.mem_singleton, Event.lockResumed.injEq] at he
          obtain ⟨rfl, rfl, -⟩ := he
          exact ⟨hc, hcall⟩
      | _ =>
          rw [hcall] at h
          obtain rfl := Option.some.inj h
          exact .of_view _ rfl (List.Subset.refl _) hcalls rfl (by simp [Event.onMutex])
  | scribble t v nx pv =>
      obtain rfl := Option.some.inj h
      refine ⟨rfl, fun x hx => ?_, fun x hx hn => absurd hx hn, fun _ _ h => h, [],
        (List.append_nil _).symm, by simp, by simp, by simp⟩
      have hxt : x ≠ t := fun hxt => ha.2.2.1 t rfl (hxt ▸ hx)
      show (Function.update s.kernel.tcb t v x).priority = _
      rw [Function.update_of_ne hxt]
      rfl
  | _ => exact absurd rfl hq

/-- A created priority stays what it is while the task is live. -/
theorem MutexFrame.basePrio_eq (h : MutexFrame op s s') {t : TaskId} (ht : t ∈ s.kernel.liveTcbs) :
    basePrio s'.log t = basePrio s.log t := by
  obtain ⟨es, hlog, -, hcr, -⟩ := h.events
  rw [hlog]
  exact basePrio_append fun p hp => (hcr t p hp).1 ht

/-! ## Locking and unlocking -/

/-- The boost that a lock call of `c` gives the owner `o`. -/
def View.boost (v : View) (c o : TaskId) : View :=
  if v.prios c < v.prios o then v.setPrio o (v.prios c) else v

/-- **What `os_mutex_lock` does** when the task `c` calls it. -/
inductive LockEffect (m : Addr) (c : TaskId) (s s' : Sys) : Prop
  /-- Nobody owns the mutex. -/
  | free (howner : (s.kernel.view.locks m).owner = none)
      (hview : s'.kernel.view = s.kernel.view.setLock m
        { s.kernel.view.locks m with
          owner := some c, lockCount := 1, originalPrio := s.kernel.view.prios c })
      (hcall : s'.call = s.call) (hlog : s'.log = s.log ++ [.lockDone m c .ok])
  /-- The caller owns it already. -/
  | again (howner : (s.kernel.view.locks m).owner = some c)
      (hview : s'.kernel.view = s.kernel.view.setLock m
        { s.kernel.view.locks m with lockCount := ((s.kernel.view.locks m).lockCount + 1) % 2 ^ 32 })
      (hcall : s'.call = s.call) (hlog : s'.log = s.log ++ [.lockDone m c .ok])
  /-- Another task owns it, and the caller does not wait. -/
  | refused (o : TaskId) (howner : (s.kernel.view.locks m).owner = some o) (hne : o ≠ c)
      (hview : s'.kernel.view = s.kernel.view.boost c o)
      (hcall : s'.call = s.call) (r : Status) (hr : r ≠ .ok) (hlog : s'.log = s.log ++ [.lockDone m c r])
  /-- Another task owns it, and the caller goes to sleep. -/
  | blocked (o : TaskId) (howner : (s.kernel.view.locks m).owner = some o) (hne : o ≠ c)
      (hview : s'.kernel.view = s.kernel.view.boost c o)
      (hcall : s'.call = Function.update s.call c (.mutexLock m)) (hlog : s'.log = s.log)

/-- A lock call has the effect of the lock. -/
theorem step_mutexLock {m : Addr} {n : Nat} {c : TaskId} (hc : s.kernel.current = some c)
    (h : step s (.mutexLock m n) = some s') : LockEffect m c s s' := by
  obtain ⟨c', k, r, hc', hr, rfl⟩ := Sys.blockingCall_inv h
  obtain rfl : c = c' := Option.some.inj (hc.symm.trans hc')
  rcases view_osMutexLock hc hr with ⟨ho, hok, hv⟩ | ⟨ho, hok, hv⟩ | ⟨o, ho, hne, hok, hv⟩
  · obtain rfl : r = _ := hok
    exact .free ho hv rfl rfl
  · obtain rfl : r = _ := hok
    exact .again ho hv rfl rfl
  · cases r with
    | done r => exact .refused o ho hne hv rfl r (fun hr => hok (by rw [hr])) rfl
    | blocked => exact .blocked o ho hne hv rfl rfl

/-- The mutex after a full release, with `w` the first waiter. -/
def Mutex.handOver (mu : Mutex) (prios : TaskId → Prio) : Option TaskId → Mutex
  | none => { mu with owner := none, lockCount := 0 }
  | some w => { mu with owner := some w, lockCount := 1, originalPrio := prios w }

/-- The view after a full release of `m` by `c`, with `w` the first waiter. -/
def View.release (v : View) (m : Addr) (c : TaskId) (w : Option TaskId) : View :=
  (v.setPrio c (v.locks m).originalPrio).setLock m
    ((v.locks m).handOver (v.setPrio c (v.locks m).originalPrio).prios w)

/-- The event of a hand-off. -/
def handOffEvents (m : Addr) : Option TaskId → List Event
  | none => []
  | some w => [.handOff m w]

/-- **What `os_mutex_unlock` does** when the task `c` calls it. -/
inductive UnlockEffect (m : Addr) (c : TaskId) (s s' : Sys) : Prop
  /-- The caller does not own the mutex. -/
  | foreign (howner : (s.kernel.view.locks m).owner ≠ some c)
      (hview : s'.kernel.view = s.kernel.view) (hlog : s'.log = s.log ++ [.unlockDone m c .errState])
  /-- The caller has locked it more than once. -/
  | again (howner : (s.kernel.view.locks m).owner = some c)
      (hlast : ¬ (s.kernel.view.locks m).lastLock)
      (hview : s'.kernel.view = s.kernel.view.setLock m
        { s.kernel.view.locks m with
          lockCount := ((s.kernel.view.locks m).lockCount + (2 ^ 32 - 1)) % 2 ^ 32 })
      (hlog : s'.log = s.log ++ [.unlockDone m c .ok])
  /-- The mutex is released for good. -/
  | full (howner : (s.kernel.view.locks m).owner = some c)
      (hlast : (s.kernel.view.locks m).lastLock)
      (hview : s'.kernel.view = s.kernel.view.release m c (s.kernel.waitHead (.mutex m)))
      (hlog : s'.log
        = s.log ++ .unlockDone m c .ok :: handOffEvents m (s.kernel.waitHead (.mutex m)))

/-- An unlock call has the effect of the unlock, and returns at once. -/
theorem step_mutexUnlock {m : Addr} {c : TaskId} (hc : s.kernel.current = some c)
    (h : step s (.mutexUnlock m) = some s') : s'.call = s.call ∧ UnlockEffect m c s s' := by
  obtain ⟨c', hc', h⟩ := Option.bind_eq_some_iff.mp h
  obtain rfl : c = c' := Option.some.inj (hc.symm.trans hc')
  obtain ⟨⟨k, r, w⟩, hr, h⟩ := Option.bind_eq_some_iff.mp h
  obtain rfl := Option.some.inj h
  refine ⟨by cases w <;> rfl, ?_⟩
  rcases view_osMutexUnlock hc hr with ⟨ho, hok, hv⟩ | ⟨ho, hpos, hok, hv⟩ | ⟨ho, hz, hok, hv⟩
  · obtain ⟨rfl, rfl⟩ := Prod.mk.inj (hok : (r, w) = _)
    exact .foreign ho hv rfl
  · obtain ⟨rfl, rfl⟩ := Prod.mk.inj (hok : (r, w) = _)
    exact .again ho (fun hl => absurd hl (Nat.ne_of_gt hpos)) hv rfl
  · obtain ⟨rfl, rfl⟩ := Prod.mk.inj (hok : (r, w) = _)
    refine .full ho hz ?_ ?_
    · cases hw : s.kernel.waitHead (.mutex m) with
      | none =>
          rw [hw] at hv
          exact hv
      | some t =>
          rw [hw] at hv
          exact hv
    · cases hw : s.kernel.waitHead (.mutex m) with
      | none => rfl
      | some t => exact List.append_assoc ..

/-- A step on one mutex leaves the fields of the others alone. -/
theorem step_locks_of_ne {m : Addr} (ha : op.Allowed s) (hm : op.mutex ≠ some m)
    (h : step s op = some s') : s'.kernel.view.locks m = s.kernel.view.locks m := by
  cases hop : op.mutex with
  | none => rw [(step_mutexFrame ha hop h).locks]
  | some m' =>
      have hne : m ≠ m' := by
        rintro rfl
        exact hm hop
      cases op with
      | mutexCreate x =>
          obtain rfl : x = m' := Option.some.inj hop
          obtain rfl := Option.some.inj h
          show (s.kernel.setMutex x _).view.locks m = _
          rw [view_setMutex, View.locks_setLock, if_neg hne]
      | mutexLock x n =>
          obtain rfl : x = m' := Option.some.inj hop
          obtain ⟨c, hc, -⟩ := Sys.Permits.task ha.1
          cases step_mutexLock hc h with
          | free _ hview => rw [hview, View.locks_setLock, if_neg hne]
          | again _ hview => rw [hview, View.locks_setLock, if_neg hne]
          | refused o _ _ hview =>
              rw [hview, View.boost]
              split <;> rfl
          | blocked o _ _ hview =>
              rw [hview, View.boost]
              split <;> rfl
      | mutexUnlock x =>
          obtain rfl : x = m' := Option.some.inj hop
          obtain ⟨c, hc, -⟩ := Sys.Permits.task ha.1
          cases (step_mutexUnlock hc h).2 with
          | foreign _ hview => rw [hview]
          | again _ _ hview => rw [hview, View.locks_setLock, if_neg hne]
          | full _ _ hview =>
              rw [hview, View.release, View.locks_setLock, if_neg hne]
              rfl
      | _ => cases hop

/-- No mutex is held. -/
def Sys.NoneHeld (s : Sys) : Prop :=
  ∀ m, (s.kernel.mutexes m).owner = none ∧ (s.kernel.mutexes m).lockCount = 0

/-- Nothing is locked at boot. -/
theorem Sys.boot_noneHeld : Sys.boot.NoneHeld := fun _ => ⟨rfl, rfl⟩

/-- The steps of an unrestricted run. -/
def Permitted (s : Sys) (op : Op) : Prop := op.Allowed s

/-- Whether a step is permitted can be decided. -/
instance (s : Sys) (op : Op) : Decidable (Permitted s op) := inferInstanceAs (Decidable (op.Allowed s))

/-- A run leaves the mutexes alone that none of its steps is about. -/
theorem run_locks_of_ne {m : Addr} {ops : List Op} (hr : Run Permitted step s ops s')
    (hm : ∀ op ∈ ops, op.mutex ≠ some m) : s'.kernel.view.locks m = s.kernel.view.locks m := by
  induction hr with
  | nil s => rfl
  | cons hg hs _ ih =>
      rw [ih fun op hop => hm op (List.mem_cons_of_mem _ hop)]
      exact step_locks_of_ne hg (hm _ (List.mem_cons_self ..)) hs

end MiniRTOS
