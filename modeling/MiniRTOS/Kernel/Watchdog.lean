import MiniRTOS.Kernel.Task

/-! # The software watchdog (`watchdog.c`)

The entries `wdt_table[0..wdt_count)` are a list; the slots behind them are never read. A callback is
the address of its code. `os_wdt_tick` takes the effect that the callbacks have on the watchdog as an
argument and gives `none` when the default handler halts the system. -/

namespace MiniRTOS

/-- `OS_WDT_MAX_ENTRIES`. -/
def wdtMaxEntries : Nat := maxTasks

/-- `os_wdt_entry_t`. -/
structure WdtEntry where
  /-- The monitored task. -/
  tcb : Option TaskId
  /-- Ticks allowed between two feeds. -/
  deadline : Nat
  /-- Ticks left. -/
  remaining : Nat
  /-- The callback, or null for the default one. -/
  callback : Option Addr
  /-- Its parameter. -/
  cbParam : Addr
  /-- Whether the countdown stands still. -/
  paused : Bool
  deriving DecidableEq, Repr

/-- The variables of `watchdog.c`. -/
structure Watchdog where
  /-- `wdt_table[0..wdt_count)`. -/
  table : List WdtEntry
  /-- `wdt_default_cb`. -/
  defaultCb : Option Addr
  /-- `wdt_default_param`. -/
  defaultParam : Addr
  deriving DecidableEq, Repr

/-- `os_wdt_init`. -/
def osWdtInit : Watchdog := ⟨[], none, 0⟩

/-- `prv_find_entry`: the index of the task's entry. -/
def prvFindEntry (w : Watchdog) (handle : TaskId) : Option Nat :=
  w.table.findIdx? fun e => e.tcb == some handle

/-- `os_wdt_register`. -/
def osWdtRegister (k : Kernel) (w : Watchdog) (handle : Option TaskId) (deadline : Nat)
    (cb : Option Addr) (param : Addr) : Status × Kernel × Watchdog :=
  match handle with
  | none => (.errParam, k, w)
  | some t =>
      if deadline = 0 then (.errParam, k, w)
      else
        -- lookup and write lie in one critical section, which leaves the kernel as the pair of
        -- calls does
        let k₁ := osSchedExitCritical (osSchedEnterCritical k)
        if (prvFindEntry w t).isSome then (.errState, k₁, w)
        else if wdtMaxEntries ≤ w.table.length then (.errFull, k₁, w)
        else (.ok, k₁, { w with table := w.table ++ [⟨some t, deadline, deadline, cb, param, false⟩] })

/-- The compaction of `os_wdt_unregister`: the last entry takes the place of entry `i`. -/
def compact (table : List WdtEntry) (i : Nat) : List WdtEntry :=
  match table.getLast? with
  | none => table
  | some e => (table.set i e).dropLast

/-- `os_wdt_unregister`. -/
def osWdtUnregister (k : Kernel) (w : Watchdog) (handle : Option TaskId) :
    Status × Kernel × Watchdog :=
  match handle with
  | none => (.errParam, k, w)
  | some t =>
      let k₁ := osSchedExitCritical (osSchedEnterCritical k)
      match prvFindEntry w t with
      | none => (.errParam, k₁, w)
      | some i => (.ok, k₁, { w with table := compact w.table i })

/-- The calls that look up an entry and change it: `os_wdt_feed_task`, `os_wdt_pause`,
`os_wdt_resume` and `os_wdt_set_deadline`. -/
def updateEntry (w : Watchdog) (handle : Option TaskId) (f : WdtEntry → WdtEntry) :
    Status × Watchdog :=
  match handle.bind (prvFindEntry w) with
  | none => (.errParam, w)
  | some i => (.ok, { w with table := w.table.modify i f })

/-- `os_wdt_feed_task`. -/
def osWdtFeedTask (w : Watchdog) (handle : Option TaskId) : Status × Watchdog :=
  updateEntry w handle fun e => { e with remaining := e.deadline }

/-- `os_wdt_pause`. -/
def osWdtPause (w : Watchdog) (handle : Option TaskId) : Status × Watchdog :=
  updateEntry w handle fun e => { e with paused := true }

/-- `os_wdt_resume`. -/
def osWdtResume (w : Watchdog) (handle : Option TaskId) : Status × Watchdog :=
  updateEntry w handle fun e => { e with paused := false, remaining := e.deadline }

/-- `os_wdt_set_deadline`, whose critical section is entered only when there is an entry. -/
def osWdtSetDeadline (k : Kernel) (w : Watchdog) (handle : Option TaskId) (newDeadline : Nat) :
    Status × Kernel × Watchdog :=
  if newDeadline = 0 then (.errParam, k, w)
  else
    match updateEntry w handle fun e =>
      { e with deadline := newDeadline, remaining := newDeadline } with
    | (.ok, w₁) => (.ok, osSchedExitCritical (osSchedEnterCritical k), w₁)
    | (r, w₁) => (r, k, w₁)

/-- The callback that a timeout of an entry calls, with its parameter; `none` for
`prv_default_timeout_handler`. -/
def timeoutCallback (w : Watchdog) (e : WdtEntry) : Option (Addr × Addr) :=
  match e.callback with
  | some cb => some (cb, e.cbParam)
  | none => w.defaultCb.map fun cb => (cb, w.defaultParam)

/-- The loop of `os_wdt_tick` from index `i` on. The bound `wdt_count` is read again for every
entry, as the callbacks may change it. -/
def wdtLoop (call : Option TaskId → Addr → Addr → Watchdog → Watchdog) :
    Nat → Nat → Watchdog → Option Watchdog
  | 0, _, w => some w
  | fuel + 1, i, w =>
      match w.table[i]? with
      -- `i < wdt_count` fails
      | none => some w
      | some e =>
          if e.paused || e.tcb.isNone then wdtLoop call fuel (i + 1) w
          else
            let e := { e with remaining := e.remaining - 1 }
            let w := { w with table := w.table.set i e }
            if e.remaining = 0 then
              match timeoutCallback w e with
              | none => none
              | some (cb, param) =>
                  let w := call e.tcb cb param w
                  wdtLoop call fuel (i + 1)
                    -- entry `i` of the table as the callback has left it
                    { w with table := w.table.modify i fun e => { e with remaining := e.deadline } }
            else wdtLoop call fuel (i + 1) w

/-- `os_wdt_tick`. -/
def osWdtTick (call : Option TaskId → Addr → Addr → Watchdog → Watchdog) (w : Watchdog) :
    Option Watchdog := wdtLoop call wdtMaxEntries 0 w

/-! ## Who is registered -/

/-- The tasks with an entry. -/
def Watchdog.tasks (w : Watchdog) : List (Option TaskId) := w.table.map WdtEntry.tcb

/-- Changing an entry in place keeps the tasks. -/
theorem Watchdog.tasks_modify (w : Watchdog) (i : Nat) {f : WdtEntry → WdtEntry}
    (hf : ∀ e, (f e).tcb = e.tcb) : ({ w with table := w.table.modify i f } : Watchdog).tasks = w.tasks := by
  simp only [Watchdog.tasks]
  induction w.table generalizing i with
  | nil => simp
  | cons e es ih =>
      cases i with
      | zero => simp [hf]
      | succ i => simp [ih]

/-- An update that keeps the handles leaves the tasks of the table alone. -/
theorem updateEntry_tasks (w : Watchdog) (handle : Option TaskId) {f : WdtEntry → WdtEntry}
    (hf : ∀ e, (f e).tcb = e.tcb) : (updateEntry w handle f).2.tasks = w.tasks := by
  rw [updateEntry]
  split
  · rfl
  · exact w.tasks_modify _ hf

/-- Unregistering adds nobody. -/
theorem compact_subset (table : List WdtEntry) (i : Nat) : compact table i ⊆ table := by
  intro x hx
  rw [compact] at hx
  split at hx
  · exact hx
  · next e he =>
      rcases List.mem_or_eq_of_mem_set ((List.dropLast_sublist _).subset hx) with hx | rfl
      · exact hx
      · exact List.mem_of_getLast? he

/-- A tick whose callbacks keep the tasks keeps the tasks. -/
theorem wdtLoop_tasks {call : Option TaskId → Addr → Addr → Watchdog → Watchdog}
    (hcall : ∀ t cb p w, (call t cb p w).tasks = w.tasks) {fuel i : Nat} {w w' : Watchdog}
    (h : wdtLoop call fuel i w = some w') : w'.tasks = w.tasks := by
  induction fuel generalizing i w with
  | zero =>
      obtain rfl := Option.some.inj h
      rfl
  | succ fuel ih =>
      rw [wdtLoop] at h
      cases he : w.table[i]? with
      | none =>
          rw [he] at h
          obtain rfl := Option.some.inj h
          rfl
      | some e =>
          rw [he] at h
          have hset : ({ w with table := w.table.set i { e with remaining := e.remaining - 1 } }
              : Watchdog).tasks = w.tasks := by
            simp only [Watchdog.tasks, List.map_set]
            refine List.ext_getElem? fun j => ?_
            rw [List.getElem?_set]
            split
            · next hij =>
                subst hij
                split
                · rw [List.getElem?_map, he]
                  rfl
                · next hlen => simp_all
            · rfl
          dsimp only at h
          split at h
          · exact ih h
          · split at h
            · split at h
              · cases h
              · rw [ih h]
                exact (Watchdog.tasks_modify _ _ (f := fun e => { e with remaining := e.deadline })
                  fun _ => rfl).trans ((hcall ..).trans hset)
            · rw [ih h, hset]

end MiniRTOS
