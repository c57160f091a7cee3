import MiniRTOS.Kernel.WatchdogTiming

/-! # Watchdog callbacks that register and unregister

`os_wdt_tick` walks the table by index, and after a callback it restarts the countdown in the slot of
that index. A callback that unregisters a task moves the last entry into the gap, so the slot may hold
another entry by then, and an entry may be moved past the walk.

* **`CallbackCall`** — what a callback may call; any callback may make any calls.
* **`wdtLoopRuns`** — `os_wdt_tick` with a record of the callbacks that have run.
* **`Watchdog.Sound`** — what every table satisfies that the calls and such ticks produce.
* **`CallbackRun.Harmless`** — a callback that leaves the place of an entry in order.
* **`osWdtTick_callbacks_iff`** — every entry that stays is handled once exactly when every callback
  leaves its place in order. -/

namespace MiniRTOS

variable {k : Kernel} {w w' : Watchdog} {t : TaskId} {e : WdtEntry} {i p : Nat}

/-! ## Callbacks -/

/-- A call that a timeout callback makes. -/
inductive CallbackCall
  /-- `os_wdt_register`. -/
  | register (handle : Option TaskId) (deadline : Nat) (cb : Option Addr) (param : Addr)
  /-- `os_wdt_unregister`. -/
  | unregister (handle : Option TaskId)
  deriving DecidableEq, Repr

/-- What the call makes of the watchdog; `k` is the kernel whose critical section it enters. -/
def CallbackCall.run (k : Kernel) (w : Watchdog) : CallbackCall → Watchdog
  | .register handle deadline cb param => (osWdtRegister k w handle deadline cb param).2.2
  | .unregister handle => (osWdtUnregister k w handle).2.2

/-- The calls of one callback, in order. -/
def runCalls (k : Kernel) (w : Watchdog) (calls : List CallbackCall) : Watchdog :=
  calls.foldl (CallbackCall.run k) w

/-- What the callbacks of a tick call: given the index of the loop, the handle, the callback with its
parameter, and the watchdog that it finds. The index occurs once in a tick, so a callback may act on
anything else in the system, too. -/
abbrev Callbacks := Nat → Option TaskId → Addr → Addr → Watchdog → List CallbackCall

/-- A callback that has run. -/
structure CallbackRun where
  /-- The index of the loop. -/
  index : Nat
  /-- The task that has missed its deadline. -/
  task : Option TaskId
  /-- The watchdog that the callback has found. -/
  before : Watchdog
  /-- What it has called. -/
  calls : List CallbackCall
  deriving DecidableEq

/-- The watchdog that the callback has left. -/
def CallbackRun.after (k : Kernel) (r : CallbackRun) : Watchdog := runCalls k r.before r.calls

/-- The loop of `os_wdt_tick` with the callbacks that it runs. -/
def wdtLoopRuns (k : Kernel) (cbs : Callbacks) :
    Nat → Nat → Watchdog → List CallbackRun × Option Watchdog
  | 0, _, w => ([], some w)
  | fuel + 1, i, w =>
      match w.table[i]? with
      | none => ([], some w)
      | some e =>
          if e.paused || e.tcb.isNone then wdtLoopRuns k cbs fuel (i + 1) w
          else
            let e := { e with remaining := e.remaining - 1 }
            let w := { w with table := w.table.set i e }
            if e.remaining = 0 then
              match timeoutCallback w e with
              | none => ([], none)
              | some (cb, param) =>
                  let calls := cbs i e.tcb cb param w
                  let w₁ := runCalls k w calls
                  let r := wdtLoopRuns k cbs fuel (i + 1)
                    { w₁ with table := w₁.table.modify i fun e => { e with remaining := e.deadline } }
                  (⟨i, e.tcb, w, calls⟩ :: r.1, r.2)
            else wdtLoopRuns k cbs fuel (i + 1) w

/-- `os_wdt_tick` with the callbacks that it runs. -/
def wdtTickRuns (k : Kernel) (cbs : Callbacks) (w : Watchdog) : List CallbackRun × Option Watchdog :=
  wdtLoopRuns k cbs wdtMaxEntries 0 w

/-- Recording the callbacks changes nothing. -/
theorem wdtLoopRuns_snd (f : Option TaskId → Addr → Addr → Watchdog → List CallbackCall) (fuel i : Nat)
    (w : Watchdog) :
    (wdtLoopRuns k (fun _ => f) fuel i w).2
      = wdtLoop (fun t cb p w => runCalls k w (f t cb p w)) fuel i w := by
  induction fuel generalizing i w with
  | zero => rfl
  | succ fuel ih =>
      rw [wdtLoopRuns, wdtLoop]
      cases w.table[i]? with
      | none => rfl
      | some e =>
          dsimp only
          split
          · exact ih ..
          · split
            · cases timeoutCallback _ _ with
              | none => rfl
              | some h => exact ih ..
            · exact ih ..

/-- The table with the countdown in slot `i` lowered. -/
def Watchdog.lowered (w : Watchdog) (i : Nat) : Watchdog :=
  { w with table := w.table.modify i fun e => { e with remaining := e.remaining - 1 } }

/-- The table with the countdown in slot `i` restarted. -/
def Watchdog.restarted (w : Watchdog) (i : Nat) : Watchdog :=
  { w with table := w.table.modify i fun e => { e with remaining := e.deadline } }

/-- **What one round of the loop does** with the slot at its index, when the tick returns. -/
inductive LoopRound (k : Kernel) (cbs : Callbacks) (fuel i : Nat) (w w' : Watchdog) (runs : List CallbackRun) :
    Prop
  /-- The table has ended. -/
  | finished (hlen : w.table.length ≤ i) (hruns : runs = []) (hw : w' = w)
  /-- The entry does not count. -/
  | skipped (f : WdtEntry) (hf : w.table[i]? = some f) (hskip : (f.paused || f.tcb.isNone) = true)
      (hrest : wdtLoopRuns k cbs fuel (i + 1) w = (runs, some w'))
  /-- The entry counts. -/
  | counted (f : WdtEntry) (hf : w.table[i]? = some f) (hskip : (f.paused || f.tcb.isNone) = false)
      (hmore : f.remaining - 1 ≠ 0) (hrest : wdtLoopRuns k cbs fuel (i + 1) (w.lowered i) = (runs, some w'))
  /-- The entry fires. -/
  | fired (f : WdtEntry) (calls : List CallbackCall) (runs' : List CallbackRun) (hf : w.table[i]? = some f)
      (hdue : f.due = true)
      (hrest : wdtLoopRuns k cbs fuel (i + 1) ((runCalls k (w.lowered i) calls).restarted i)
        = (runs', some w'))
      (hruns : runs = ⟨i, f.tcb, w.lowered i, calls⟩ :: runs')

/-- One round of the loop, by what it finds in its slot. -/
theorem wdtLoopRuns_cases {cbs : Callbacks} {fuel : Nat} {runs : List CallbackRun}
    (h : wdtLoopRuns k cbs (fuel + 1) i w = (runs, some w')) : LoopRound k cbs fuel i w w' runs := by
  rw [wdtLoopRuns] at h
  cases hf : w.table[i]? with
  | none =>
      rw [hf] at h
      obtain ⟨hruns, hw⟩ := Prod.mk.inj h
      exact .finished (List.getElem?_eq_none_iff.mp hf) hruns.symm (Option.some.inj hw).symm
  | some f =>
      rw [hf] at h
      have hset : w.table.set i { f with remaining := f.remaining - 1 } = (w.lowered i).table := by
        refine List.ext_getElem? fun j => ?_
        rw [Watchdog.lowered, List.getElem?_set, List.getElem?_modify]
        obtain ⟨hi, rfl⟩ := List.getElem?_eq_some_iff.mp hf
        by_cases hij : i = j
        · subst hij
          simp [hi]
        · simp [hij]
      dsimp only at h
      rw [hset] at h
      by_cases hskip : (f.paused || f.tcb.isNone) = true
      · rw [if_pos hskip] at h
        exact .skipped f hf hskip h
      · rw [if_neg hskip] at h
        by_cases hzero : f.remaining - 1 = 0
        · rw [if_pos hzero] at h
          split at h
          · cases (Prod.mk.inj h).2
          · obtain ⟨hruns, hw⟩ := Prod.mk.inj h
            refine .fired f _ _ hf (by simp [WdtEntry.due, hskip, hzero]) ?_ hruns.symm
            exact Prod.ext rfl hw
        · rw [if_neg hzero] at h
          exact .counted f hf (Bool.eq_false_iff.mpr hskip) hzero h

/-! ## Sound tables -/

/-- **What holds of every table**: it fits, no task has two entries, and no entry counts from more than
its deadline. -/
structure Watchdog.Sound (w : Watchdog) : Prop where
  /-- `wdt_count` is in range. -/
  fits : w.table.length ≤ wdtMaxEntries
  /-- No task has two entries. -/
  nodup : w.tasks.Nodup
  /-- Every entry has a task. -/
  named : none ∉ w.tasks
  /-- The ticks left are in range. -/
  inRange : ∀ e ∈ w.table, 0 < e.deadline ∧ e.remaining ≤ e.deadline

namespace Watchdog.Sound

/-- The empty table is sound. -/
theorem init : osWdtInit.Sound where
  fits := Nat.zero_le _
  nodup := List.nodup_nil
  named := by simp [Watchdog.tasks, osWdtInit]
  inRange := by simp [osWdtInit]

/-- Changing the countdown in one slot. -/
theorem modify (h : w.Sound) (i : Nat) {f : WdtEntry → WdtEntry} (hf : ∀ e, (f e).tcb = e.tcb)
    (hr : ∀ e, 0 < e.deadline ∧ e.remaining ≤ e.deadline →
      0 < (f e).deadline ∧ (f e).remaining ≤ (f e).deadline) :
    ({ w with table := w.table.modify i f } : Watchdog).Sound := by
  have htasks := w.tasks_modify i hf
  refine ⟨(List.length_modify ..).trans_le h.fits, htasks ▸ h.nodup, htasks ▸ h.named, fun e he => ?_⟩
  obtain ⟨j, hj⟩ := List.mem_iff_getElem?.mp he
  rw [List.getElem?_modify] at hj
  obtain ⟨e₀, he₀, rfl⟩ := Option.map_eq_some_iff.mp hj
  have hin := h.inRange e₀ (List.mem_of_getElem? he₀)
  split
  · exact hr e₀ hin
  · exact hin

/-- Lowering a countdown keeps the table sound. -/
theorem lowered (h : w.Sound) (i : Nat) : (w.lowered i).Sound :=
  h.modify i (fun _ => rfl) fun _ hr => ⟨hr.1, (Nat.sub_le ..).trans hr.2⟩

/-- So does restarting one. -/
theorem restarted (h : w.Sound) (i : Nat) : (w.restarted i).Sound :=
  h.modify i (fun _ => rfl) fun _ hr => ⟨hr.1, Nat.le_refl _⟩

/-- So does registering a task. -/
theorem register (h : w.Sound) (k : Kernel) (handle : Option TaskId) (n : Nat) (cb : Option Addr)
    (param : Addr) : (osWdtRegister k w handle n cb param).2.2.Sound := by
  rcases osWdtRegister_cases k w handle n cb param with
    ⟨-, hw⟩ | ⟨t, k', -, hn, hnew, hroom, heq⟩
  · rw [hw]
    exact h
  · rw [heq]
    obtain ⟨hnd, hnone⟩ :=
      Watchdog.keyed_push (e := ⟨some t, n, n, cb, param, false⟩) h.nodup h.named rfl hnew
    refine ⟨by simpa using Nat.succ_le_of_lt hroom, hnd, hnone, fun e he => ?_⟩
    rcases List.mem_append.mp he with he | he
    · exact h.inRange e he
    · rw [List.mem_singleton.mp he]
      exact ⟨hn, Nat.le_refl _⟩

/-- So does unregistering one. -/
theorem unregister (h : w.Sound) (k : Kernel) (handle : Option TaskId) :
    (osWdtUnregister k w handle).2.2.Sound := by
  rcases osWdtUnregister_cases k h.nodup handle with ⟨-, hw⟩ | ⟨t, k', table, -, hperm, heq⟩
  · rw [hw]
    exact h
  · rw [heq]
    obtain ⟨hlen, hnd, hnone⟩ := Watchdog.keyed_filter h.nodup h.named hperm
    exact ⟨hlen.trans h.fits, hnd, hnone, fun e he =>
      h.inRange e (List.mem_of_mem_filter (hperm.subset he))⟩

/-- **A callback keeps the table sound.** -/
theorem runCalls (h : w.Sound) (k : Kernel) (calls : List CallbackCall) :
    (MiniRTOS.runCalls k w calls).Sound := by
  induction calls generalizing w with
  | nil => exact h
  | cons c calls ih =>
      refine ih (w := c.run k w) ?_
      cases c with
      | register handle n cb param => exact h.register k handle n cb param
      | unregister handle => exact h.unregister k handle

/-- **So does a tick.** -/
theorem loop {cbs : Callbacks} {fuel : Nat} {runs : List CallbackRun} (h : w.Sound)
    (hw : wdtLoopRuns k cbs fuel i w = (runs, some w')) : w'.Sound := by
  induction fuel generalizing i w runs with
  | zero =>
      obtain rfl := Option.some.inj (congrArg Prod.snd hw)
      exact h
  | succ fuel ih =>
      cases wdtLoopRuns_cases hw with
      | finished _ _ hw =>
          rw [hw]
          exact h
      | skipped _ _ _ hw => exact ih h hw
      | counted _ _ _ _ hw => exact ih (h.lowered i) hw
      | fired _ _ _ _ _ hw => exact ih (((h.lowered i).runCalls k _).restarted i) hw

end Watchdog.Sound

/-! ## Places -/

/-- In a sound table `prv_find_entry` finds a task where its entry is. -/
theorem prvFindEntry_eq (h : w.Sound) (he : w.table[p]? = some e) (ht : e.tcb = some t) :
    prvFindEntry w t = some p := by
  obtain ⟨hp, rfl⟩ := List.getElem?_eq_some_iff.mp he
  refine List.findIdx?_eq_some_iff_getElem.mpr ⟨hp, by simpa using ht, fun j hj hjt => ?_⟩
  -- an entry of the same task further ahead would be the same entry
  have hlt : j < w.table.length := hj.trans hp
  have hsame : w.table[j].tcb = w.table[p].tcb := by
    rw [ht]
    simpa using hjt
  have heq : w.tasks[j]? = w.tasks[p]? := by
    simp only [Watchdog.tasks, List.getElem?_map, List.getElem?_eq_getElem hlt,
      List.getElem?_eq_getElem hp, Option.map_some, hsame]
  have hlen : j < w.tasks.length := by simpa [Watchdog.tasks] using hlt
  exact absurd ((List.getElem?_inj hlen h.nodup).mp heq) (Nat.ne_of_lt hj)

/-- A task has one entry in one place. -/
theorem entry_unique (h : w.Sound) {e' : WdtEntry} {q : Nat} (he : w.table[p]? = some e) (ht : e.tcb = some t)
    (he' : w.table[q]? = some e') (ht' : e'.tcb = some t) : q = p ∧ e' = e := by
  have hq := prvFindEntry_eq h he' ht'
  rw [prvFindEntry_eq h he ht] at hq
  obtain rfl := Option.some.inj hq
  exact ⟨rfl, Option.some.inj (he'.symm.trans he)⟩

/-- **A compaction moves an entry at most to the front.** -/
theorem getElem?_compact {table : List WdtEntry} (hi : i < table.length) (hp : p ≠ i)
    (he : table[p]? = some e) : ∃ q ≤ p, (compact table i)[q]? = some e := by
  obtain ⟨hlt, rfl⟩ := List.getElem?_eq_some_iff.mp he
  have hlast : table.getLast? = some (table[table.length - 1]) := by
    rw [List.getLast?_eq_getElem?, List.getElem?_eq_getElem]
  rw [compact, hlast]
  dsimp only
  by_cases hend : p = table.length - 1
  · -- the last entry fills the gap
    refine ⟨i, by omega, ?_⟩
    rw [List.getElem?_dropLast, List.length_set, if_pos (by omega), List.getElem?_set_self hi]
    simp only [hend]
  · refine ⟨p, Nat.le_refl _, ?_⟩
    rw [List.getElem?_dropLast, List.length_set, if_pos (by omega), List.getElem?_set_ne (Ne.symm hp), he]

/-- **A call of a callback** leaves the entry of every task that it does not unregister as it is, and
moves it at most to the front. -/
theorem run_place {c : CallbackCall} (hc : c ≠ .unregister (some t)) (he : w.table[p]? = some e)
    (ht : e.tcb = some t) : ∃ q ≤ p, (c.run k w).table[q]? = some e := by
  cases c with
  | register handle n cb param =>
      have hsub : ∃ l, (osWdtRegister k w handle n cb param).2.2.table = w.table ++ l := by
        cases handle with
        | none => exact ⟨[], (List.append_nil _).symm⟩
        | some x =>
            rw [osWdtRegister]
            dsimp only
            split
            · exact ⟨[], (List.append_nil _).symm⟩
            · split
              · exact ⟨[], (List.append_nil _).symm⟩
              · split
                · exact ⟨[], (List.append_nil _).symm⟩
                · exact ⟨_, rfl⟩
      obtain ⟨l, hl⟩ := hsub
      obtain ⟨hp, -⟩ := List.getElem?_eq_some_iff.mp he
      refine ⟨p, Nat.le_refl _, ?_⟩
      show (osWdtRegister k w handle n cb param).2.2.table[p]? = _
      rw [hl, List.getElem?_append_left hp, he]
  | unregister handle =>
      cases handle with
      | none => exact ⟨p, Nat.le_refl _, he⟩
      | some x =>
          have hx : x ≠ t := fun heq => hc (heq ▸ rfl)
          show ∃ q ≤ p, (osWdtUnregister k w (some x)).2.2.table[q]? = some e
          rw [osWdtUnregister]
          split
          · exact ⟨p, Nat.le_refl _, he⟩
          · next g hg =>
              obtain ⟨hlt, hgx, -⟩ := List.findIdx?_eq_some_iff_getElem.mp hg
              refine getElem?_compact hlt (fun hpg => ?_) he
              subst hpg
              obtain ⟨_, hentry⟩ := List.getElem?_eq_some_iff.mp he
              have hgx : w.table[p].tcb = some x := by simpa using hgx
              rw [hentry, ht] at hgx
              exact hx (Option.some.inj hgx).symm

/-- The calls of a callback together. -/
theorem runCalls_place {calls : List CallbackCall} (hc : .unregister (some t) ∉ calls)
    (he : w.table[p]? = some e) (ht : e.tcb = some t) :
    ∃ q ≤ p, (runCalls k w calls).table[q]? = some e := by
  induction calls generalizing w p with
  | nil => exact ⟨p, Nat.le_refl _, he⟩
  | cons c calls ih =>
      rw [List.mem_cons, not_or] at hc
      obtain ⟨q, hq, hplace⟩ := run_place (k := k) (Ne.symm hc.1) he ht
      obtain ⟨q', hq', hplace'⟩ := ih hc.2 hplace
      exact ⟨q', hq'.trans hq, hplace'⟩

/-- Lowering one countdown leaves the other slots. -/
theorem getElem?_lowered_ne (h : i ≠ p) : (w.lowered i).table[p]? = w.table[p]? := by
  simp [Watchdog.lowered, h]

/-- The slot with the lowered countdown. -/
theorem getElem?_lowered_self (h : w.table[i]? = some e) :
    (w.lowered i).table[i]? = some { e with remaining := e.remaining - 1 } := by
  simp [Watchdog.lowered, h]

/-- Restarting one countdown leaves the other slots. -/
theorem getElem?_restarted_ne (h : i ≠ p) : (w.restarted i).table[p]? = w.table[p]? := by
  simp [Watchdog.restarted, h]

/-- The slot with the restarted countdown. -/
theorem getElem?_restarted_self (h : w.table[i]? = some e) :
    (w.restarted i).table[i]? = some { e with remaining := e.deadline } := by
  simp [Watchdog.restarted, h]

/-! ## Entries that stay -/

/-- No callback of the tick unregisters the task. -/
def Stays (t : TaskId) (runs : List CallbackRun) : Prop :=
  ∀ r ∈ runs, .unregister (some t) ∉ r.calls

/-- Whether callbacks leave a task registered can be decided. -/
instance (t : TaskId) (runs : List CallbackRun) : Decidable (Stays t runs) :=
  inferInstanceAs (Decidable (∀ r ∈ runs, _))

/-- **The entry of a task is handled once**: it is what one tick makes of it, and its callback has run
once if it was due and not at all otherwise. -/
def HandledOnce (runs : List CallbackRun) (w' : Watchdog) (e : WdtEntry) : Prop :=
  e.tick ∈ w'.table ∧ (runs.map CallbackRun.task).count e.tcb = if e.due then 1 else 0

/-- Whether an entry is handled once can be decided. -/
instance (runs : List CallbackRun) (w' : Watchdog) (e : WdtEntry) : Decidable (HandledOnce runs w' e) :=
  inferInstanceAs (Decidable (_ ∧ _))

/-- **The callback leaves the place of the task in order.** The fired entry keeps its slot; an entry
that the walk has yet to reach stays behind the slot; a paused one may go anywhere but into the slot,
unless it has not counted yet. -/
def CallbackRun.Harmless (k : Kernel) (r : CallbackRun) (t : TaskId) : Prop :=
  ∀ e ∈ r.before.table, e.tcb = some t → ∀ p q, prvFindEntry r.before t = some p →
    prvFindEntry (r.after k) t = some q →
      (p = r.index → q = r.index) ∧
      (r.index < p → if e.paused then q = r.index → e.remaining = e.deadline else r.index < q)

/-- Harm, in terms of the two places. -/
theorem CallbackRun.harmless_iff {r : CallbackRun} {q : Nat} (hb : r.before.Sound)
    (he : r.before.table[p]? = some e) (ht : e.tcb = some t) (hq : (r.after k).table[q]? = some e) :
    r.Harmless k t ↔ (p = r.index → q = r.index) ∧
      (r.index < p → if e.paused then q = r.index → e.remaining = e.deadline else r.index < q) := by
  have hafter : (r.after k).Sound := hb.runCalls k r.calls
  have hp := prvFindEntry_eq hb he ht
  replace hq := prvFindEntry_eq hafter hq ht
  refine ⟨fun h => h e (List.mem_of_getElem? he) ht p q hp hq, fun h e' he' ht' p' q' hp' hq' => ?_⟩
  obtain ⟨j, hj⟩ := List.mem_iff_getElem?.mp he'
  obtain ⟨-, rfl⟩ := entry_unique hb he ht hj ht'
  obtain rfl := Option.some.inj (hp.symm.trans hp')
  obtain rfl := Option.some.inj (hq.symm.trans hq')
  exact h

/-- **An entry that the walk has passed** stays as it is. -/
theorem loop_passed {cbs : Callbacks} {fuel : Nat} {runs : List CallbackRun} (h : w.Sound)
    (he : w.table[p]? = some e) (ht : e.tcb = some t) (hpi : p < i)
    (hrun : wdtLoopRuns k cbs fuel i w = (runs, some w')) (hstay : Stays t runs) :
    e ∈ w'.table ∧ (runs.map CallbackRun.task).count (some t) = 0 ∧ ∀ r ∈ runs, r.Harmless k t := by
  induction fuel generalizing i w p runs with
  | zero =>
      obtain ⟨rfl, hw⟩ := Prod.mk.inj hrun
      obtain rfl := Option.some.inj hw
      exact ⟨List.mem_of_getElem? he, rfl, nofun⟩
  | succ fuel ih =>
      have hne : i ≠ p := by omega
      cases wdtLoopRuns_cases hrun with
      | finished _ hruns hw =>
          subst hruns hw
          exact ⟨List.mem_of_getElem? he, rfl, nofun⟩
      | skipped f hf hskip hrest => exact ih h he (by omega) hrest hstay
      | counted f hf hskip hmore hrest =>
          exact ih (h.lowered i) (by rw [getElem?_lowered_ne hne, he]) (by omega) hrest hstay
      | fired f calls runs' hf hdue hrest hruns =>
          subst hruns
          have hlow : (w.lowered i).table[p]? = some e := by rw [getElem?_lowered_ne hne, he]
          have hcalls : .unregister (some t) ∉ calls := hstay _ List.mem_cons_self
          obtain ⟨q, hq, hplace⟩ := runCalls_place (k := k) hcalls hlow ht
          obtain ⟨hmem, hcount, hharm⟩ := ih (p := q) (((h.lowered i).runCalls k calls).restarted i)
            (by rw [getElem?_restarted_ne (by omega), hplace]) (by omega) hrest
            fun r hr => hstay r (List.mem_cons_of_mem _ hr)
          have hft : f.tcb ≠ some t := fun hft => hne (entry_unique h he ht hf hft).1
          refine ⟨hmem, ?_, List.forall_mem_cons.mpr ⟨?_, hharm⟩⟩
          · rw [List.map_cons, List.count_cons_of_ne hft, hcount]
          · exact (CallbackRun.harmless_iff (h.lowered i) hlow ht hplace).mpr
              ⟨fun heq => absurd heq (Ne.symm hne), fun hlt => absurd hlt (by dsimp only; omega)⟩

/-! ## What a tick makes of an entry -/

/-- A paused entry stays as it is. -/
theorem WdtEntry.tick_paused (h : e.paused = true) : e.tick = e ∧ e.due = false := by
  simp [WdtEntry.tick, WdtEntry.due, h]

/-- A due entry is restarted. -/
theorem WdtEntry.tick_due (h : e.due = true) : e.tick = { e with remaining := e.deadline } := by
  simp only [WdtEntry.due, Bool.and_eq_true, Bool.not_eq_true', beq_iff_eq] at h
  simp [WdtEntry.tick, h]

/-- An unpaused entry that is not due is lowered. -/
theorem WdtEntry.tick_counted (hskip : (e.paused || e.tcb.isNone) = false) (hmore : e.remaining - 1 ≠ 0) :
    e.tick = { e with remaining := e.remaining - 1 } ∧ e.due = false := by
  simp [WdtEntry.tick, WdtEntry.due, hskip, hmore]

/-- **Left alone**, only a paused entry is as it should be. -/
theorem WdtEntry.untouched_iff (ht : e.tcb = some t) :
    (e.tick = e ∧ e.due = false) ↔ e.paused = true := by
  refine ⟨fun ⟨htick, hdue⟩ => ?_, WdtEntry.tick_paused⟩
  by_contra hp
  have hskip : (e.paused || e.tcb.isNone) = false := by simp [Bool.eq_false_iff.mpr hp, ht]
  by_cases hzero : e.remaining - 1 = 0
  · simp [WdtEntry.due, hskip, hzero] at hdue
  · have hrem := congrArg WdtEntry.remaining ((WdtEntry.tick_counted hskip hzero).1.symm.trans htick)
    dsimp only at hrem
    omega

/-- **Restarted without firing**, only a paused entry with its whole deadline left is. -/
theorem WdtEntry.restarted_iff (ht : e.tcb = some t) (hr : 0 < e.deadline ∧ e.remaining ≤ e.deadline) :
    (e.tick = { e with remaining := e.deadline } ∧ e.due = false) ↔
      e.paused = true ∧ e.remaining = e.deadline := by
  refine ⟨fun ⟨htick, hdue⟩ => ?_, fun ⟨hp, hrem⟩ => ?_⟩
  · by_cases hp : e.paused = true
    · refine ⟨hp, ?_⟩
      rw [(WdtEntry.tick_paused hp).1] at htick
      exact congrArg WdtEntry.remaining htick
    · have hskip : (e.paused || e.tcb.isNone) = false := by simp [Bool.eq_false_iff.mpr hp, ht]
      by_cases hzero : e.remaining - 1 = 0
      · simp [WdtEntry.due, hskip, hzero] at hdue
      · have hrem := congrArg WdtEntry.remaining ((WdtEntry.tick_counted hskip hzero).1.symm.trans htick)
        dsimp only at hrem
        omega
  · have hsame : e = { e with remaining := e.deadline } :=
      congrArg (fun n => { e with remaining := n }) hrem
    exact ⟨(WdtEntry.tick_paused hp).1.trans hsame, (WdtEntry.tick_paused hp).2⟩

/-- A tick leaves the handle of an entry. -/
theorem tcb_tick (e : WdtEntry) : e.tick.tcb = e.tcb := by
  rw [WdtEntry.tick]
  split
  · rfl
  · split <;> rfl

/-- A due entry has one tick left at most. -/
theorem remaining_of_due (h : e.due = true) : e.remaining - 1 = 0 := by
  simp only [WdtEntry.due, Bool.and_eq_true, beq_iff_eq] at h
  exact h.2

/-- Two entries of one task are one entry. -/
theorem eq_of_mem_of_tcb {e' : WdtEntry} (h : w.Sound) (he : e ∈ w.table) (he' : e' ∈ w.table)
    (ht : e.tcb = e'.tcb) : e = e' := by
  obtain ⟨t, hname⟩ : ∃ t, e.tcb = some t := Option.ne_none_iff_exists'.mp fun hnone =>
    h.named (hnone ▸ List.mem_map_of_mem he)
  obtain ⟨p, hp⟩ := List.mem_iff_getElem?.mp he
  obtain ⟨q, hq⟩ := List.mem_iff_getElem?.mp he'
  exact (entry_unique h hq (ht ▸ hname) hp hname).2

/-- Whether an entry was handled, when no callback has run for it and it has ended up as `e'`. -/
theorem handledOnce_iff_of_count {runs : List CallbackRun} {e' : WdtEntry} (h : w'.Sound) (he' : e' ∈ w'.table)
    (ht' : e'.tcb = e.tcb) (ht : e.tcb = some t) (hcount : (runs.map CallbackRun.task).count (some t) = 0) :
    HandledOnce runs w' e ↔ e.tick = e' ∧ e.due = false := by
  have hmem : e.tick ∈ w'.table ↔ e.tick = e' :=
    ⟨fun hm => eq_of_mem_of_tcb h hm he' ((tcb_tick e).trans ht'.symm), fun heq => heq ▸ he'⟩
  rw [HandledOnce, hmem, ht, hcount]
  cases e.due <;> simp

/-- **One entry that stays.** From the round on that has not passed it, it is handled once exactly when
every callback leaves its place in order. -/
theorem handledOnce_iff {cbs : Callbacks} {fuel : Nat} {runs : List CallbackRun} (h : w.Sound)
    (he : w.table[p]? = some e) (ht : e.tcb = some t) (hip : i ≤ p) (hfuel : wdtMaxEntries ≤ i + fuel)
    (hrun : wdtLoopRuns k cbs fuel i w = (runs, some w')) (hstay : Stays t runs) :
    HandledOnce runs w' e ↔ ∀ r ∈ runs, r.Harmless k t := by
  induction fuel generalizing i w p runs with
  | zero =>
      have hfits := h.fits
      obtain ⟨hlt, -⟩ := List.getElem?_eq_some_iff.mp he
      omega
  | succ fuel ih =>
      have hw' : w'.Sound := h.loop hrun
      have hr := h.inRange e (List.mem_of_getElem? he)
      have hnone : e.tcb.isNone = false := by simp [ht]
      cases wdtLoopRuns_cases hrun with
      | finished hlen _ _ =>
          obtain ⟨hlt, -⟩ := List.getElem?_eq_some_iff.mp he
          omega
      | skipped f hf hskip hrest =>
          by_cases hpi : p = i
          · -- the entry is paused
            subst hpi
            obtain rfl := Option.some.inj (hf.symm.trans he)
            obtain ⟨hmem, hcount, hharm⟩ := loop_passed h he ht (Nat.lt_succ_self _) hrest hstay
            have hp : f.paused = true := by simpa [hnone] using hskip
            rw [handledOnce_iff_of_count hw' hmem rfl ht hcount, WdtEntry.untouched_iff ht]
            exact iff_of_true hp hharm
          · exact ih h he (by omega) (by omega) hrest hstay
      | counted f hf hskip hmore hrest =>
          by_cases hpi : p = i
          · -- the entry is lowered
            subst hpi
            obtain rfl := Option.some.inj (hf.symm.trans he)
            obtain ⟨hmem, hcount, hharm⟩ := loop_passed (h.lowered p) (getElem?_lowered_self he) ht
              (Nat.lt_succ_self _) hrest hstay
            rw [handledOnce_iff_of_count (e := f) hw' hmem rfl ht hcount]
            exact iff_of_true (WdtEntry.tick_counted hskip hmore) hharm
          · exact ih (h.lowered i) (by rw [getElem?_lowered_ne (Ne.symm hpi), he]) (by omega) (by omega) hrest
              hstay
      | fired f calls runs' hf hdue hrest hruns =>
          subst hruns
          have hcalls : .unregister (some t) ∉ calls := hstay _ List.mem_cons_self
          have hstay' : Stays t runs' := fun r hr => hstay r (List.mem_cons_of_mem _ hr)
          have hsound := (h.lowered i).runCalls k calls
          rw [List.forall_mem_cons]
          by_cases hpi : p = i
          · -- the entry fires
            subst hpi
            obtain rfl := Option.some.inj (hf.symm.trans he)
            have hlow := getElem?_lowered_self he
            obtain ⟨q, hq, hplace⟩ := runCalls_place (k := k) hcalls hlow ht
            have hharmless : CallbackRun.Harmless k ⟨p, f.tcb, w.lowered p, calls⟩ t ↔ (p = p → q = p) ∧
                (p < p → if f.paused then q = p → f.remaining - 1 = f.deadline else p < q) :=
              CallbackRun.harmless_iff (e := { f with remaining := f.remaining - 1 }) (h.lowered p) hlow ht
                hplace
            rcases Nat.lt_or_eq_of_le hq with hlt | hqp
            · -- it has left its slot, and its countdown is not restarted
              have hslot : ((runCalls k (w.lowered p) calls).restarted p).table[q]? = _ :=
                (getElem?_restarted_ne (by omega)).trans hplace
              obtain ⟨hmem, -, -⟩ := loop_passed (hsound.restarted p) hslot ht (by omega) hrest hstay'
              refine iff_of_false (fun hh => ?_) fun hh => hlt.ne ((hharmless.mp hh.1).1 rfl)
              have heq := eq_of_mem_of_tcb hw' hh.1 hmem (tcb_tick f)
              rw [WdtEntry.tick_due hdue] at heq
              have hrem := congrArg WdtEntry.remaining heq
              have hzero := remaining_of_due hdue
              dsimp only at hrem
              omega
            · subst hqp
              obtain ⟨hmem, hcount, hharm⟩ := loop_passed (hsound.restarted q)
                (getElem?_restarted_self hplace) ht (Nat.lt_succ_self _) hrest hstay'
              have htrue := hharmless.mpr ⟨fun _ => rfl, fun hlt => absurd hlt (Nat.lt_irrefl _)⟩
              refine iff_of_true ⟨?_, ?_⟩ ⟨htrue, hharm⟩
              · rw [WdtEntry.tick_due hdue]
                exact hmem
              · rw [List.map_cons, ht, List.count_cons_self, hcount, hdue]
                rfl
          · -- another entry fires
            have hft : f.tcb ≠ some t := fun hft => hpi (entry_unique h he ht hf hft).1.symm
            have hlow : (w.lowered i).table[p]? = some e := by
              rw [getElem?_lowered_ne (Ne.symm hpi), he]
            obtain ⟨q, hq, hplace⟩ := runCalls_place (k := k) hcalls hlow ht
            have hharmless : CallbackRun.Harmless k ⟨i, f.tcb, w.lowered i, calls⟩ t ↔ (p = i → q = i) ∧
                (i < p → if e.paused then q = i → e.remaining = e.deadline else i < q) :=
              CallbackRun.harmless_iff (h.lowered i) hlow ht hplace
            have hrest' : HandledOnce (⟨i, f.tcb, w.lowered i, calls⟩ :: runs') w' e
                ↔ HandledOnce runs' w' e := by
              unfold HandledOnce
              rw [List.map_cons, List.count_cons_of_ne (by rw [ht]; exact hft)]
            have hahead : i < p := by omega
            rw [hharmless, hrest']
            simp only [hpi, hahead, false_implies, true_implies, true_and]
            rcases Nat.lt_trichotomy q i with hlt | rfl | hgt
            · -- the walk has passed it without touching it
              obtain ⟨hmem, hcount, hharm⟩ := loop_passed (hsound.restarted i)
                (by rw [getElem?_restarted_ne (by omega), hplace]) ht (by omega : q < i + 1) hrest hstay'
              rw [handledOnce_iff_of_count hw' hmem rfl ht hcount, WdtEntry.untouched_iff ht,
                and_iff_left hharm]
              have hne : q ≠ i ∧ ¬ i < q := ⟨by omega, by omega⟩
              cases e.paused <;> simp [hne]
            · -- it is restarted in place of the entry that has fired
              obtain ⟨hmem, hcount, hharm⟩ := loop_passed (hsound.restarted q)
                (getElem?_restarted_self hplace) ht (Nat.lt_succ_self _) hrest hstay'
              rw [handledOnce_iff_of_count (e := e) hw' hmem rfl ht hcount, WdtEntry.restarted_iff ht hr,
                and_iff_left hharm]
              cases e.paused <;> simp
            · -- the walk has yet to reach it
              rw [ih (hsound.restarted i) (by rw [getElem?_restarted_ne (by omega), hplace]) hgt (by omega)
                hrest hstay']
              have hne : q ≠ i := by omega
              cases e.paused <;> simp [hne, hgt]

/-- **What callbacks may do to the table.** Take any sound table and any callbacks that register and
unregister tasks, and a tick that returns. Every entry of a task that no callback unregisters is lowered
by one, or fires and is restarted, or stands still if it is paused, exactly when every callback that has
run leaves the places of all these entries in order. -/
theorem osWdtTick_callbacks_iff (k : Kernel) (cbs : Callbacks) {w w' : Watchdog} {runs : List CallbackRun}
    (h : w.Sound) (hrun : wdtTickRuns k cbs w = (runs, some w')) :
    (∀ e ∈ w.table, ∀ t ∈ e.tcb, Stays t runs → HandledOnce runs w' e) ↔
      ∀ t, some t ∈ w.tasks → Stays t runs → ∀ r ∈ runs, r.Harmless k t := by
  have hentry : ∀ e ∈ w.table, ∀ t ∈ e.tcb, Stays t runs →
      (HandledOnce runs w' e ↔ ∀ r ∈ runs, r.Harmless k t) := by
    intro e he t ht hstay
    obtain ⟨p, hp⟩ := List.mem_iff_getElem?.mp he
    exact handledOnce_iff h hp ht (Nat.zero_le p) (by omega) hrun hstay
  refine ⟨fun hall t ht hstay => ?_, fun hall e he t ht hstay => ?_⟩
  · obtain ⟨e, he, het⟩ := List.mem_map.mp ht
    exact (hentry e he t het hstay).mp (hall e he t het hstay)
  · exact (hentry e he t ht hstay).mpr (hall t (List.mem_map.mpr ⟨e, he, ht⟩) hstay)

/-- Two tasks with the same callback; the first is due, the second has six ticks left of nine. -/
def twoTasks : Watchdog :=
  ⟨[⟨some 1, 5, 1, some 0x100, 0, false⟩, ⟨some 2, 9, 6, some 0x100, 0, false⟩], none, 0⟩

/-- The table of two tasks is sound. -/
theorem twoTasks_sound : twoTasks.Sound := ⟨by decide, by decide, by decide, by decide⟩

/-- **An entry that is restarted in another one's place.** The callback of the first task unregisters it;
the entry of the second task moves into the slot and is restarted there, and its tick is skipped. -/
theorem osWdtTick_restarts_moved : ∃ runs,
    wdtTickRuns .zero (fun _ t _ _ _ => [.unregister t]) twoTasks
        = (runs, some { twoTasks with table := [⟨some 2, 9, 9, some 0x100, 0, false⟩] }) ∧
      osWdtTick (fun t _ _ w => runCalls .zero w [.unregister t]) twoTasks
        = some { twoTasks with table := [⟨some 2, 9, 9, some 0x100, 0, false⟩] } ∧
      Stays 2 runs ∧ ¬ HandledOnce runs { twoTasks with table := [⟨some 2, 9, 9, some 0x100, 0, false⟩] }
        ⟨some 2, 9, 6, some 0x100, 0, false⟩ :=
  ⟨_, rfl, by decide +kernel, by decide +kernel, by decide +kernel⟩

/-- A callback that registers a third task keeps everything in its place. -/
theorem osWdtTick_callbacks_register : ∃ runs w',
    wdtTickRuns .zero (fun _ _ _ _ _ => [.register (some 3) 7 none 0]) twoTasks = (runs, some w') ∧
      w'.table.map WdtEntry.remaining = [5, 5, 6] ∧
      ∀ t, some t ∈ twoTasks.tasks → Stays t runs → ∀ r ∈ runs, r.Harmless .zero t :=
  ⟨_, _, rfl, by decide +kernel,
    (osWdtTick_callbacks_iff .zero (fun _ _ _ _ _ => [.register (some 3) 7 none 0]) twoTasks_sound rfl).mp
      (by decide +kernel)⟩

end MiniRTOS
