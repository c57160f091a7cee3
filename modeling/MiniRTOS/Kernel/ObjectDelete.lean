import MiniRTOS.Kernel.Dispatch
import MiniRTOS.Kernel.EventPass
import MiniRTOS.Kernel.MutexInv

/-! # Deleting an object with waiters

The four delete functions, which release the waiters of the object one by one, each with `timed_out`
set. Each loop stands on the head pointer that its own body rewrites, and the links of the task it
unlinks are used again by the ready list in the same pass.

* **`drainWith_released`** — the loop empties its wait list, whatever its length.
* **`Dismissed`** — what a deletion does to the waiters, and to nobody else.
* **`delete_releases_waiters`** — the four functions do it; the owner of a deleted mutex gets its saved
  priority back first. -/

namespace MiniRTOS

open PtrList Runs

variable {k k' : Kernel} {L L' : Layout} {t : TaskId} {w : WaitList}

/-! ## The source -/

/-- `while (wait_list != NULL)`, with the first waiter handed to the body. -/
def drainWith (body : Kernel → TaskId → Kernel) (w : WaitList) (fuel : Nat) (k : Kernel) :
    Option Kernel :=
  match fuel, k.waitHead w with
  | _, none => some k
  | 0, some _ => none
  | fuel + 1, some t => drainWith body w fuel (body k t)

/-- The loop bodies of `os_queue_delete` and `os_sem_delete`. -/
def wakeTimedOut (w : WaitList) (k : Kernel) (_head : TaskId) : Kernel :=
  match wakeTask k w with
  | (none, k₁) => k₁
  | (some t, k₁) => k₁.setTcb t { k₁.tcb t with timedOut := true }

/-- The loop body of `os_mutex_delete`. -/
def Mutex.expel (m : Addr) (k : Kernel) (t : TaskId) : Kernel :=
  let k₁ := unblockTask k (.mutex m) t
  osTaskAddToReady (k₁.setTcb t { k₁.tcb t with delayTicks := 0, timedOut := true }) t

/-- The loop body of `os_eventgroup_delete`. -/
def EventGroup.expel (e : Addr) (k : Kernel) (t : TaskId) : Kernel :=
  let k₁ := unblockTask k (.eventGroup e) t
  osTaskAddToReady
    (k₁.setTcb t { k₁.tcb t with delayTicks := 0, timedOut := true, eventReturnBits := 0 }) t

/-- `os_queue_delete`. The item storage is at `buffer`. -/
def osQueueDelete (fuel : Nat) (k : Kernel) (q : Addr) (buffer : Option Addr) :
    Option (Status × Kernel) := do
  let k₁ := osSchedEnterCritical k
  let k₂ ← drainWith (wakeTimedOut (.queueSend q)) (.queueSend q) fuel k₁
  let k₃ ← drainWith (wakeTimedOut (.queueRecv q)) (.queueRecv q) fuel k₂
  let k₄ : Kernel := { k₃ with freed := k₃.freed ++ buffer.toList }
  some (.ok, osSchedExitCritical k₄)

/-- `os_sem_delete`. -/
def osSemDelete (fuel : Nat) (k : Kernel) (s : Addr) : Option (Status × Kernel) := do
  let k₁ := osSchedEnterCritical k
  let k₂ ← drainWith (wakeTimedOut (.sem s)) (.sem s) fuel k₁
  some (.ok, osSchedExitCritical (k₂.setSem s { k₂.sems s with count := 0, maxCount := 0 }))

/-- `os_mutex_delete`. -/
def osMutexDelete (fuel : Nat) (k : Kernel) (m : Addr) : Option (Status × Kernel) := do
  let k₁ := osSchedEnterCritical k
  -- the priority is restored whether it was boosted or not
  let k₂ := if (k₁.mutexes m).owner.isSome then Mutex.prvRestorePriority k₁ m else k₁
  let k₃ ← drainWith (Mutex.expel m) (.mutex m) fuel k₂
  some (.ok, osSchedExitCritical (k₃.setMutex m { k₃.mutexes m with owner := none, lockCount := 0 }))

/-- `os_eventgroup_delete`. -/
def osEventgroupDelete (fuel : Nat) (k : Kernel) (e : Addr) : Option (Status × Kernel) := do
  let k₁ := osSchedEnterCritical k
  let k₂ ← drainWith (EventGroup.expel e) (.eventGroup e) fuel k₁
  some (.ok, osSchedExitCritical (k₂.setEventGroup e { k₂.eventGroups e with bits := 0 }))

/-! ## One waiter -/

/-- A task that a deletion released. -/
def Tcb.released (v : Tcb) : Tcb :=
  { v with
    blockedOn := none, blockedReason := .none, delayTicks := 0, timedOut := true, state := .ready }

/-- A task that the deletion of an event group released. -/
def Tcb.releasedWithoutBits (v : Tcb) : Tcb := { v.released with eventReturnBits := 0 }

/-- **A body that releases one waiter**: the first task of the list goes to the tail of its ready list
and its control block is rewritten by `f`. -/
def ReleasesHead (f : Tcb → Tcb) (w : WaitList) (body : Kernel → TaskId → Kernel) : Prop :=
  ∀ ⦃k : Kernel⦄ ⦃L : Layout⦄ ⦃t : TaskId⦄ ⦃r : List TaskId⦄, ListsOk k L → L (.wait w) = t :: r →
    ListsOk (body k t) ((L.set (.wait w) r).set (.ready (k.prio t)) (L (.ready (k.prio t)) ++ [t])) ∧
      (body k t).data = (k.setTcb t (f (k.tcb t))).data

/-- Unlinking the first waiter and appending it to its ready list, with `v` in its control block. -/
theorem unblock_addToReady {v : Tcb} {r : List TaskId} (h : ListsOk k L) (hw : L (.wait w) = t :: r)
    (hv : v.priority = k.prio t) :
    ListsOk (osTaskAddToReady ((unblockTask k w t).setTcb t v) t)
        ((L.set (.wait w) r).set (.ready (k.prio t)) (L (.ready (k.prio t)) ++ [t])) ∧
      (osTaskAddToReady ((unblockTask k w t).setTcb t v) t).data
        = (k.setTcb t { v with state := .ready }).data := by
  have hmem : t ∈ L (.wait w) := by simp [hw]
  have hrem : L.remove (.wait w) t = L.set (.wait w) r := by
    rw [Layout.remove, hw, List.erase_cons_head]
  have hlists : ListsOk ((unblockTask k w t).setTcb t v) (L.set (.wait w) r) :=
    hrem ▸ (unblockTask_lists h hmem).setTcb t v
  have hnot : ∀ P, t ∉ L.set (.wait w) r P := hrem ▸ h.not_mem_remove hmem
  have hprio : ((unblockTask k w t).setTcb t v).prio t = k.prio t := by
    rw [Kernel.prio, Kernel.tcb_setTcb_self, hv]
  have hkeep : L.set (.wait w) r (.ready (k.prio t)) = L (.ready (k.prio t)) :=
    Layout.set_of_ne _ _ (by simp)
  constructor
  · have hadd := osTaskAddToReady_lists hlists hnot
    rwa [hprio, hkeep] at hadd
  · rw [data_osTaskAddToReady, Kernel.tcb_setTcb_self, Kernel.setTcb_setTcb,
      data_setTcb_congr (data_unblockTask k w t), Kernel.setTcb_setTcb]

/-- The waiter that a body has just unlinked. -/
theorem tcb_unblockTask_self (k : Kernel) (w : WaitList) (t : TaskId) :
    (unblockTask k w t).tcb t = { k.tcb t with blockedOn := none, blockedReason := .none } := by
  rw [tcb_of_data (data_unblockTask k w t)]
  exact Kernel.tcb_setTcb_self ..

/-- Mutexes release their waiters. -/
theorem Mutex.expel_releases (m : Addr) : ReleasesHead Tcb.released (.mutex m) (Mutex.expel m) := by
  intro k L t r h hw
  unfold Mutex.expel
  dsimp only
  rw [tcb_unblockTask_self]
  exact unblock_addToReady h hw rfl

/-- Event groups do. -/
theorem EventGroup.expel_releases (e : Addr) :
    ReleasesHead Tcb.releasedWithoutBits (.eventGroup e) (EventGroup.expel e) := by
  intro k L t r h hw
  unfold EventGroup.expel
  dsimp only
  rw [tcb_unblockTask_self]
  exact unblock_addToReady h hw rfl

/-- Queues and semaphores do: `timed_out` is cleared first and set again behind the call. -/
theorem wakeTimedOut_releases (w : WaitList) : ReleasesHead Tcb.released w (wakeTimedOut w) := by
  intro k L t r h hw
  obtain ⟨k₁, hk₁, hlists, hdata⟩ := wakeTask_lists h hw
  have hbody : wakeTimedOut w k t = k₁.setTcb t { k₁.tcb t with timedOut := true } := by
    unfold wakeTimedOut
    rw [hk₁]
  rw [hbody]
  constructor
  · exact hlists.setTcb t _
  · rw [data_setTcb_congr hdata, Kernel.setTcb_setTcb, tcb_of_data hdata, Kernel.tcb_setTcb_self]
    rfl

/-! ## The loops -/

/-- The tasks in the wait lists of an object, list after list. -/
def Layout.waiting (L : Layout) (ws : List WaitList) : List TaskId := ws.flatMap fun w => L (.wait w)

/-- **The waiters of the lists `ws` were released**, each control block rewritten by `f`. -/
structure Dismissed (f : Tcb → Tcb) (ws : List WaitList) (k k' : Kernel) (L L' : Layout) : Prop where
  /-- The list pointers. -/
  lists : ListsOk k' L'
  /-- Nobody waits any more. -/
  empty : ∀ w ∈ ws, L' (.wait w) = []
  /-- The waiters are at the tails of the ready lists, in the order in which they waited. -/
  ready : ∀ p, L' (.ready p) = L (.ready p) ++ k.atPrio (L.waiting ws) p
  /-- The other lists. -/
  others : ∀ P, (∀ p, P ≠ .ready p) → (∀ w ∈ ws, P ≠ .wait w) → L' P = L P
  /-- The control blocks of the waiters. -/
  released : ∀ t ∈ L.waiting ws, k'.tcb t = f (k.tcb t)
  /-- The other control blocks. -/
  same : ∀ t, t ∉ L.waiting ws → k'.tcb t = k.tcb t

/-- Nobody waits. -/
theorem Dismissed.nil {f : Tcb → Tcb} (h : ListsOk k L) (hw : L (.wait w) = []) :
    Dismissed f [w] k k L L := by
  have hnobody : L.waiting [w] = [] := by simp [Layout.waiting, hw]
  constructor
  case lists => exact h
  case empty =>
    intro v hv
    rw [List.mem_singleton.mp hv]
    exact hw
  case ready =>
    intro p
    rw [hnobody]
    exact (List.append_nil _).symm
  case others =>
    intro P _ _
    rfl
  case released =>
    intro t ht
    rw [hnobody] at ht
    cases ht
  case same =>
    intro t _
    rfl

/-- Only priorities matter for the place in the ready lists. -/
theorem atPrio_congr {l : List TaskId} (h : ∀ t ∈ l, k'.prio t = k.prio t) (p : Prio) :
    k'.atPrio l p = k.atPrio l p := by
  unfold Kernel.atPrio
  apply List.filter_congr
  intro t ht
  rw [h t ht]

/-- A task in front of the others. -/
theorem atPrio_cons (k : Kernel) (t : TaskId) (l : List TaskId) (p : Prio) :
    k.atPrio (t :: l) p = if k.prio t = p then t :: k.atPrio l p else k.atPrio l p := by
  unfold Kernel.atPrio
  simp only [List.filter_cons, decide_eq_true_eq]

/-- **The first waiter, then the rest.** -/
theorem Dismissed.cons {f : Tcb → Tcb} {body : Kernel → TaskId → Kernel} {r : List TaskId}
    (hbody : ReleasesHead f w body) (h : ListsOk k L) (hw : L (.wait w) = t :: r)
    (hrest : Dismissed f [w] (body k t) k'
      ((L.set (.wait w) r).set (.ready (k.prio t)) (L (.ready (k.prio t)) ++ [t])) L') :
    Dismissed f [w] k k' L L' := by
  obtain ⟨-, hdata⟩ := hbody h hw
  set L₁ := (L.set (.wait w) r).set (.ready (k.prio t)) (L (.ready (k.prio t)) ++ [t]) with hL₁
  have htcb : (body k t).tcb = Function.update k.tcb t (f (k.tcb t)) := tcb_of_data hdata
  have hout : t ∉ r := by
    have hnd := h.nodup (.wait w)
    rw [hw] at hnd
    exact (List.nodup_cons.mp hnd).1
  have hstay : ∀ x, x ≠ t → (body k t).tcb x = k.tcb x := by
    intro x hx
    rw [htcb, Function.update_of_ne hx]
  have hwait₁ : L₁ (.wait w) = r := by
    rw [hL₁, Layout.set_of_ne _ _ (by simp), Layout.set_self]
  have hall : L.waiting [w] = t :: r := by simp [Layout.waiting, hw]
  have hall₁ : L₁.waiting [w] = r := by simp [Layout.waiting, hwait₁]
  constructor
  case lists => exact hrest.lists
  case empty => exact hrest.empty
  case ready =>
    intro p
    have hrp : (body k t).atPrio r p = k.atPrio r p := by
      refine atPrio_congr (fun x hx => ?_) p
      show ((body k t).tcb x).priority = _
      rw [hstay x fun hxt => hout (hxt ▸ hx)]
      rfl
    rw [hrest.ready, hall₁, hall, hrp, atPrio_cons, hL₁, Layout.set_apply]
    by_cases hp : k.prio t = p
    · rw [if_pos (by rw [hp]), if_pos hp, hp, List.append_assoc]
      rfl
    · have hne : Place.ready p ≠ .ready (k.prio t) := by
        intro heq
        exact hp (Place.ready.inj heq).symm
      rw [if_neg hne, if_neg hp, Layout.set_of_ne _ _ (by simp)]
  case others =>
    intro P hr hP
    rw [hrest.others P hr hP, hL₁, Layout.set_of_ne _ _ (hr _),
      Layout.set_of_ne _ _ (hP w (List.mem_singleton_self w))]
  case released =>
    intro x hx
    rw [hall, List.mem_cons] at hx
    rcases hx with rfl | hx
    · -- a task waits in one place only
      rw [hrest.same x (by rwa [hall₁]), htcb, Function.update_self]
    · rw [hrest.released x (by rwa [hall₁]), hstay x fun hxt => hout (hxt ▸ hx)]
  case same =>
    intro x hx
    rw [hall, List.mem_cons, not_or] at hx
    rw [hrest.same x (by rw [hall₁]; exact hx.2), hstay x hx.1]

/-- **The loop releases every waiter**, whatever the length of the list. -/
theorem drainWith_released {f : Tcb → Tcb} {body : Kernel → TaskId → Kernel} (fuel : Nat)
    (hbody : ReleasesHead f w body) (h : ListsOk k L) (hfuel : (L (.wait w)).length ≤ fuel) :
    ∃ k' L', drainWith body w fuel k = some k' ∧ Dismissed f [w] k k' L L' := by
  have hhead : k.waitHead w = (L (.wait w)).head? := h.head (.wait w)
  induction hw : L (.wait w) generalizing k L fuel with
  | nil =>
      rw [hw] at hhead
      refine ⟨k, L, ?_, Dismissed.nil h hw⟩
      unfold drainWith
      rw [hhead]
      rfl
  | cons t r ih =>
      rw [hw] at hhead hfuel
      obtain ⟨n, rfl⟩ : ∃ n, fuel = n + 1 := ⟨fuel - 1, by simp at hfuel; omega⟩
      obtain ⟨h₁, -⟩ := hbody h hw
      have hwait₁ : ((L.set (.wait w) r).set (.ready (k.prio t)) (L (.ready (k.prio t)) ++ [t]))
          (.wait w) = r := by
        rw [Layout.set_of_ne _ _ (by simp), Layout.set_self]
      obtain ⟨k', L', hk', hrest⟩ := ih n h₁
        (by rw [hwait₁]; simpa using hfuel) (h₁.head (.wait w)) hwait₁
      refine ⟨k', L', ?_, Dismissed.cons hbody h hw hrest⟩
      unfold drainWith
      rw [hhead]
      exact hk'

/-- A queue has two lists. -/
theorem Dismissed.append {f : Tcb → Tcb} {v : WaitList} {k₁ : Kernel} {L₁ : Layout} (h : ListsOk k L)
    (hne : v ≠ w) (h₁ : Dismissed f [w] k k₁ L L₁)
    (h₂ : Dismissed f [v] k₁ k' L₁ L') : Dismissed f [w, v] k k' L L' := by
  have hkeep : L₁ (.wait v) = L (.wait v) := by
    refine h₁.others _ (by simp) (fun u hu => ?_)
    rw [List.mem_singleton.mp hu]
    simpa using hne
  have hw : L.waiting [w] = L (.wait w) := by simp [Layout.waiting]
  have hv : L₁.waiting [v] = L (.wait v) := by simp [Layout.waiting, hkeep]
  have hall : L.waiting [w, v] = L (.wait w) ++ L (.wait v) := by simp [Layout.waiting]
  have hout : ∀ t ∈ L (.wait v), t ∉ L (.wait w) := by
    intro t ht ht'
    have hplace := h.disjoint _ _ t ht ht'
    exact hne (Place.wait.inj hplace)
  constructor
  case lists => exact h₂.lists
  case empty =>
    intro u hu
    rcases List.mem_cons.mp hu with rfl | hu
    · -- the second loop leaves the list empty
      rw [h₂.others _ (by simp) (fun x hx => ?_)]
      · exact h₁.empty u (List.mem_singleton_self u)
      · rw [List.mem_singleton.mp hx]
        simpa using hne.symm
    · exact h₂.empty u hu
  case ready =>
    intro p
    have hrp : k₁.atPrio (L (.wait v)) p = k.atPrio (L (.wait v)) p := by
      refine atPrio_congr (fun t ht => ?_) p
      have hsame : k₁.tcb t = k.tcb t := h₁.same t (by rw [hw]; exact hout t ht)
      exact congrArg Tcb.priority hsame
    rw [h₂.ready, h₁.ready, hv, hw, hall, hrp, List.append_assoc]
    unfold Kernel.atPrio
    rw [List.filter_append]
  case others =>
    intro P hr hP
    rw [h₂.others P hr fun u hu => hP u (List.mem_cons_of_mem _ hu)]
    refine h₁.others P hr fun u hu => hP u ?_
    rw [List.mem_singleton.mp hu]
    exact List.mem_cons_self ..
  case released =>
    intro t ht
    rw [hall, List.mem_append] at ht
    rcases ht with ht | ht
    · have hnot : t ∉ L (.wait v) := fun ht' => hout t ht' ht
      rw [h₂.same t (by rwa [hv]), h₁.released t (by rwa [hw])]
    · rw [h₂.released t (by rwa [hv]), h₁.same t (by rw [hw]; exact hout t ht)]
  case same =>
    intro t ht
    rw [hall, List.mem_append, not_or] at ht
    rw [h₂.same t (by rw [hv]; exact ht.2), h₁.same t (by rw [hw]; exact ht.1)]

/-- The states that the lists and the control blocks tell apart. -/
theorem Dismissed.congr {f : Tcb → Tcb} {ws : List WaitList} {k₁ k₂ : Kernel}
    (h : Dismissed f ws k k₁ L L') (hlists : ListsOk k₂ L') (hbefore : k'.tcb = k.tcb)
    (hafter : k₂.tcb = k₁.tcb) : Dismissed f ws k' k₂ L L' := by
  have hprio : ∀ l p, k'.atPrio l p = k.atPrio l p := by
    intro l p
    refine atPrio_congr (fun t _ => ?_) p
    show (k'.tcb t).priority = (k.tcb t).priority
    rw [hbefore]
  constructor
  case lists => exact hlists
  case empty => exact h.empty
  case ready =>
    intro p
    rw [h.ready, hprio]
  case others => exact h.others
  case released =>
    intro t ht
    rw [hafter, hbefore]
    exact h.released t ht
  case same =>
    intro t ht
    rw [hafter, hbefore]
    exact h.same t ht

/-! ## The owner of a deleted mutex -/

/-- The owner of the mutex has its saved priority back. -/
def Kernel.ownerBack (k : Kernel) (m : Addr) : Kernel :=
  match (k.mutexes m).owner with
  | none => k
  | some o => k.setTcb o { k.tcb o with priority := (k.mutexes m).originalPrio }

/-- A READY owner goes to the tail of the ready list of that priority. -/
def Layout.ownerBack (L : Layout) (k : Kernel) (m : Addr) : Layout :=
  match (k.mutexes m).owner with
  | none => L
  | some o =>
      if (k.tcb o).state = .ready then
        let L₁ := L.remove (.ready (k.prio o)) o
        L₁.set (.ready (k.mutexes m).originalPrio) (L₁ (.ready (k.mutexes m).originalPrio) ++ [o])
      else L

/-- A READY owner is in the ready list of its priority. -/
def Layout.OwnerListed (L : Layout) (k : Kernel) (m : Addr) : Prop :=
  ∀ o, (k.mutexes m).owner = some o → (k.tcb o).state = .ready → o ∈ L (.ready (k.prio o))

/-- **The first part of `os_mutex_delete`.** -/
theorem restore_ownerBack {m : Addr} (h : ListsOk k L) (ho : L.OwnerListed k m) :
    ListsOk (if (k.mutexes m).owner.isSome then Mutex.prvRestorePriority k m else k)
        (L.ownerBack k m) ∧
      (if (k.mutexes m).owner.isSome then Mutex.prvRestorePriority k m else k).tcb
        = (k.ownerBack m).tcb := by
  unfold Mutex.prvRestorePriority Kernel.ownerBack Layout.ownerBack
  cases howner : (k.mutexes m).owner with
  | none => exact ⟨h, rfl⟩
  | some o =>
      rw [Option.isSome_some, if_pos rfl]
      dsimp only
      refine ⟨?_, tcb_osTaskSetPriority ..⟩
      split
      · next hs => exact osTaskSetPriority_lists h hs (ho o howner hs)
      · next hs => exact osTaskSetPriority_lists_of_not_ready h hs

/-- No wait list changes. -/
theorem Layout.ownerBack_wait (L : Layout) (k : Kernel) (m : Addr) (w : WaitList) :
    L.ownerBack k m (.wait w) = L (.wait w) := by
  unfold Layout.ownerBack
  cases (k.mutexes m).owner with
  | none => rfl
  | some o =>
      dsimp only
      split
      · rw [Layout.set_of_ne _ _ (by simp), Layout.remove, Layout.set_of_ne _ _ (by simp)]
      · rfl

/-! ## The four functions -/

/-- `os_queue_delete`: senders first, then receivers. -/
theorem osQueueDelete_released {fuel : Nat} (h : ListsOk k L) (q : Addr) (buffer : Option Addr)
    (hsend : (L (.wait (.queueSend q))).length ≤ fuel)
    (hrecv : (L (.wait (.queueRecv q))).length ≤ fuel) :
    ∃ k' L', osQueueDelete fuel k q buffer = some (.ok, k') ∧
      Dismissed Tcb.released [.queueSend q, .queueRecv q] k k' L L' := by
  obtain ⟨k₁, L₁, hk₁, hrel₁⟩ :=
    drainWith_released fuel (wakeTimedOut_releases (.queueSend q)) h.enterCritical hsend
  have hkeep : L₁ (.wait (.queueRecv q)) = L (.wait (.queueRecv q)) :=
    hrel₁.others _ (by simp) (by simp)
  obtain ⟨k₂, L', hk₂, hrel₂⟩ := drainWith_released fuel
    (wakeTimedOut_releases (.queueRecv q)) hrel₁.lists (by rwa [hkeep])
  have hrel := Dismissed.append h.enterCritical (by simp) hrel₁ hrel₂
  have hfree : ListsOk { k₂ with freed := k₂.freed ++ buffer.toList } L' :=
    hrel.lists.objects (fun w => by cases w <;> rfl) rfl rfl rfl rfl rfl
  refine ⟨_, L', ?_, hrel.congr hfree.exitCritical rfl rfl⟩
  unfold osQueueDelete
  simp only [hk₁, hk₂, Option.bind_eq_bind, Option.bind_some]

/-- `os_sem_delete`. -/
theorem osSemDelete_released {fuel : Nat} (h : ListsOk k L) (s : Addr)
    (hfuel : (L (.wait (.sem s))).length ≤ fuel) :
    ∃ k' L', osSemDelete fuel k s = some (.ok, k') ∧ Dismissed Tcb.released [.sem s] k k' L L' := by
  obtain ⟨k₁, L', hk₁, hrel⟩ :=
    drainWith_released fuel (wakeTimedOut_releases (.sem s)) h.enterCritical hfuel
  have hzero : ListsOk (k₁.setSem s { k₁.sems s with count := 0, maxCount := 0 }) L' :=
    hrel.lists.objects (waitHead_setSem rfl) rfl rfl rfl rfl rfl
  refine ⟨_, L', ?_, hrel.congr hzero.exitCritical rfl rfl⟩
  unfold osSemDelete
  simp only [hk₁, Option.bind_eq_bind, Option.bind_some]

/-- `os_mutex_delete`, seen from the state in which the owner has its priority back. -/
theorem osMutexDelete_released {fuel : Nat} (h : ListsOk k L) (m : Addr) (ho : L.OwnerListed k m)
    (hfuel : (L (.wait (.mutex m))).length ≤ fuel) :
    ∃ k' L', osMutexDelete fuel k m = some (.ok, k') ∧
      Dismissed Tcb.released [.mutex m] (k.ownerBack m) k' (L.ownerBack k m) L' := by
  obtain ⟨hback, htcb⟩ := restore_ownerBack (m := m) h.enterCritical ho
  set k₁ := if ((osSchedEnterCritical k).mutexes m).owner.isSome then
    Mutex.prvRestorePriority (osSchedEnterCritical k) m else osSchedEnterCritical k with hk₁
  obtain ⟨k₂, L', hk₂, hrel⟩ := drainWith_released fuel (Mutex.expel_releases m) hback
    (by rwa [Layout.ownerBack_wait])
  have hclear : ListsOk (k₂.setMutex m { k₂.mutexes m with owner := none, lockCount := 0 }) L' :=
    hrel.lists.objects (waitHead_setMutex rfl) rfl rfl rfl rfl rfl
  have hbefore : (k.ownerBack m).tcb = k₁.tcb := by
    rw [htcb]
    unfold Kernel.ownerBack
    show _ = (match (k.mutexes m).owner with
      | none => osSchedEnterCritical k
      | some o => (osSchedEnterCritical k).setTcb o _).tcb
    cases (k.mutexes m).owner <;> rfl
  refine ⟨_, L', ?_, hrel.congr hclear.exitCritical hbefore rfl⟩
  unfold osMutexDelete
  simp only [← hk₁, hk₂, Option.bind_eq_bind, Option.bind_some]

/-- `os_eventgroup_delete`. -/
theorem osEventgroupDelete_released {fuel : Nat} (h : ListsOk k L) (e : Addr)
    (hfuel : (L (.wait (.eventGroup e))).length ≤ fuel) :
    ∃ k' L', osEventgroupDelete fuel k e = some (.ok, k') ∧
      Dismissed Tcb.releasedWithoutBits [.eventGroup e] k k' L L' := by
  obtain ⟨k₁, L', hk₁, hrel⟩ :=
    drainWith_released fuel (EventGroup.expel_releases e) h.enterCritical hfuel
  have hzero : ListsOk (k₁.setEventGroup e { k₁.eventGroups e with bits := 0 }) L' :=
    hrel.lists.objects (waitHead_setEventGroup rfl) rfl rfl rfl rfl rfl
  refine ⟨_, L', ?_, hrel.congr hzero.exitCritical rfl rfl⟩
  unfold osEventgroupDelete
  simp only [hk₁, Option.bind_eq_bind, Option.bind_some]

/-- **A deletion releases every waiter.** Whatever the lengths of the wait lists, the four functions
return, nobody waits on the object any more, and each former waiter is READY behind the tasks that were
in the ready list of its priority before. Everybody else stays, but for the owner of a deleted mutex,
who has its saved priority back. -/
theorem delete_releases_waiters (h : ListsOk k L) (fuel : Nat) :
    (∀ q buffer, (L (.wait (.queueSend q))).length ≤ fuel → (L (.wait (.queueRecv q))).length ≤ fuel →
      ∃ k' L', osQueueDelete fuel k q buffer = some (.ok, k') ∧
        Dismissed Tcb.released [.queueSend q, .queueRecv q] k k' L L') ∧
    (∀ s, (L (.wait (.sem s))).length ≤ fuel →
      ∃ k' L', osSemDelete fuel k s = some (.ok, k') ∧ Dismissed Tcb.released [.sem s] k k' L L') ∧
    (∀ m, (L (.wait (.mutex m))).length ≤ fuel → L.OwnerListed k m →
      ∃ k' L', osMutexDelete fuel k m = some (.ok, k') ∧
        Dismissed Tcb.released [.mutex m] (k.ownerBack m) k' (L.ownerBack k m) L') ∧
    (∀ e, (L (.wait (.eventGroup e))).length ≤ fuel →
      ∃ k' L', osEventgroupDelete fuel k e = some (.ok, k') ∧
        Dismissed Tcb.releasedWithoutBits [.eventGroup e] k k' L L') := by
  refine ⟨?_, ?_, ?_, ?_⟩
  · intro q buffer hsend hrecv
    exact osQueueDelete_released h q buffer hsend hrecv
  · intro s hfuel
    exact osSemDelete_released h s hfuel
  · intro m hfuel ho
    exact osMutexDelete_released h m ho hfuel
  · intro e hfuel
    exact osEventgroupDelete_released h e hfuel

/-- In a well-formed system the owner is where it should be. -/
theorem TasksOk.ownerListed (h : TasksOk k L) (m : Addr) : L.OwnerListed k m := by
  intro o ho hs
  exact h.lists.mem_ready (h.owners m o ho).1 (Or.inl hs)

/-- The tasks in a ready list, from its head on. -/
def Kernel.readyTasks (k : Kernel) (p : Prio) : List TaskId :=
  follow k.links.next maxTasks (k.readyList p).head

/-- A task of priority 1 waits for a mutex, whose owner is boosted for it and preempted. -/
def preemptedOwnerTrace : List Op :=
  [.mutexCreate 0x10, .create (taskAt 0x100 5), .create (taskAt 0x200 5), .create (taskAt 0x300 1),
    .create (taskAt 0x400 0), .selectNext, .delay 2, .selectNext, .delay 1, .selectNext,
    .mutexLock 0x10 5, .tick, .selectNext, .mutexLock 0x10 5, .selectNext, .tick, .selectNext]

/-- Deleting that mutex. -/
theorem delete_releases_waiters_preemptedOwner :
    ∃ (s : Sys) (L : Layout), Run SafeStep step .boot preemptedOwnerTrace s ∧
      s.kernel.waitHead (.mutex 0x10) = some 0x300 ∧
      ∃ k' L', osMutexDelete maxTasks s.kernel 0x10 = some (.ok, k') ∧
        Dismissed Tcb.released [.mutex 0x10] (s.kernel.ownerBack 0x10) k' (L.ownerBack s.kernel 0x10)
          L' := by
  obtain ⟨s, hr, hhead⟩ := exists_run_of_exec (fun s op => s.PlainUse op ∧ ¬ s.BoostedRelease op)
    step Sys.boot preemptedOwnerTrace (fun s => s.kernel.waitHead (.mutex 0x10) = some 0x300)
    (by decide +kernel)
  have hsafe : Run SafeStep step .boot preemptedOwnerTrace s := hr.mono fun _ _ h => ⟨h.1.proper, h.2⟩
  obtain ⟨L, h⟩ := lockInv_of_run Sys.boot_init Sys.boot_noneHeld hsafe
  obtain ⟨-, -, hmutex, -⟩ := delete_releases_waiters h.tasks.lists.lists maxTasks
  exact ⟨s, L, hsafe, hhead, hmutex 0x10 (h.tasks.lists.length_le _) (h.tasks.ownerListed 0x10)⟩

/-- **The owner does not wait, and loses its place all the same**: it was alone in the ready list of
priority 1, ahead of the other task of priority 5, and comes behind it when the mutex is deleted. -/
theorem delete_moves_owner :
    ∃ s k', Run SafeStep step .boot preemptedOwnerTrace s ∧
      osMutexDelete maxTasks s.kernel 0x10 = some (.ok, k') ∧
      (s.kernel.tcb 0x100).blockedOn = none ∧
      s.kernel.readyTasks 1 = [0x100] ∧ s.kernel.readyTasks 5 = [0x200] ∧
      k'.readyTasks 1 = [0x300] ∧ k'.readyTasks 5 = [0x200, 0x100] := by
  obtain ⟨s, hr, hout, h₁, h₅, hdel⟩ := exists_run_of_exec
    (fun s op => s.PlainUse op ∧ ¬ s.BoostedRelease op) step Sys.boot preemptedOwnerTrace
    (fun s => (s.kernel.tcb 0x100).blockedOn = none ∧ s.kernel.readyTasks 1 = [0x100] ∧
      s.kernel.readyTasks 5 = [0x200] ∧ (osMutexDelete maxTasks s.kernel 0x10).map
        (fun r => (r.1, r.2.readyTasks 1, r.2.readyTasks 5)) = some (.ok, [0x300], [0x200, 0x100]))
    (by decide +kernel)
  obtain ⟨⟨a, k'⟩, hk', heq⟩ := Option.map_eq_some_iff.mp hdel
  obtain ⟨rfl, h₁', h₅'⟩ : a = .ok ∧ k'.readyTasks 1 = [0x300] ∧ k'.readyTasks 5 = [0x200, 0x100] := by
    simpa using heq
  have hsafe : Run SafeStep step .boot preemptedOwnerTrace s := hr.mono fun _ _ h => ⟨h.1.proper, h.2⟩
  exact ⟨s, k', hsafe, hk', hout, h₁, h₅, h₁', h₅'⟩

end MiniRTOS
