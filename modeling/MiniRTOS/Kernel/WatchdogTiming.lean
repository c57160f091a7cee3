import MiniRTOS.Kernel.Watchdog
import MiniRTOS.Kernel.System

/-! # Watchdog timing

Every registered task has a countdown of its own, and `os_wdt_unregister` moves the last entry of the
table into the gap. What a task can rely on is written down here without any table: its countdown after
a sequence of calls is a function of the calls made for that task and of the ticks.

* **`countdown`** — the unpaused ticks since the latest restart, computed from the calls so far.
* **`wdtLoopCalls`** — `os_wdt_tick` with the callbacks it calls, in order.
* **`WdtInv`** — the table shows the countdown of every registered task, wherever its entry is.
* **`watchdog_fires_iff`** — a callback is called exactly when the countdown of its task has run out,
  unless the default handler has halted the system before the loop reaches the entry. -/

namespace MiniRTOS

open Runs

/-! ## What a task is promised -/

/-- The watchdog calls, with their arguments. -/
inductive WdtOp
  /-- `os_wdt_register`. -/
  | register (handle : Option TaskId) (deadline : Nat) (cb : Option Addr) (param : Addr)
  /-- `os_wdt_unregister`. -/
  | unregister (handle : Option TaskId)
  /-- `os_wdt_feed_task`. -/
  | feed (handle : Option TaskId)
  /-- `os_wdt_pause`. -/
  | pause (handle : Option TaskId)
  /-- `os_wdt_resume`. -/
  | resume (handle : Option TaskId)
  /-- `os_wdt_set_deadline`. -/
  | setDeadline (handle : Option TaskId) (newDeadline : Nat)
  /-- `os_wdt_set_default_callback`. -/
  | setDefaultCallback (cb : Option Addr) (param : Addr)
  /-- `os_wdt_tick`. -/
  | tick
  deriving DecidableEq, Repr

/-- The task that a call is for. -/
def WdtOp.handle : WdtOp → Option TaskId
  | .register t _ _ _ | .unregister t | .feed t | .pause t | .resume t | .setDeadline t _ => t
  | .setDefaultCallback _ _ | .tick => none

/-- The countdown of one registered task. -/
structure Countdown where
  /-- The current deadline. -/
  deadline : Nat
  /-- The unpaused ticks since the latest start or restart. -/
  elapsed : Nat
  /-- Whether the ticks do not count. -/
  paused : Bool
  deriving DecidableEq, Repr

/-- The next tick is the one at which the deadline has passed. -/
def Countdown.Due (c : Countdown) : Prop := c.paused = false ∧ c.elapsed + 1 = c.deadline

/-- Whether a deadline is due can be decided. -/
instance Countdown.decidableDue (c : Countdown) : Decidable c.Due :=
  inferInstanceAs (Decidable (_ ∧ _))

/-- A tick: the countdown starts again after its deadline has passed. -/
def Countdown.tick (c : Countdown) : Countdown :=
  if c.paused then c
  else if c.elapsed + 1 = c.deadline then { c with elapsed := 0 }
  else { c with elapsed := c.elapsed + 1 }

/-- A successful call for the task whose countdown it is. -/
def WdtOp.act : WdtOp → Option Countdown → Option Countdown
  | .register _ n _ _, _ => some ⟨n, 0, false⟩
  | .unregister _, _ => none
  | .feed _, c => c.map fun c => { c with elapsed := 0 }
  | .pause _, c => c.map fun c => { c with paused := true }
  | .resume _, c => c.map fun c => ⟨c.deadline, 0, false⟩
  | .setDeadline _ n, c => c.map fun c => ⟨n, 0, c.paused⟩
  | .setDefaultCallback _ _, c | .tick, c => c

/-- **The countdown of a task** after the calls so far, latest first, with the results they gave. The
calls for other tasks do not occur in it. -/
def countdown (t : TaskId) : List (WdtOp × Status) → Option Countdown
  | [] => none
  | (.tick, _) :: past => (countdown t past).map Countdown.tick
  | (op, r) :: past => if op.handle = some t ∧ r = .ok then op.act (countdown t past) else countdown t past

/-- A call that is not a tick. -/
theorem countdown_call {op : WdtOp} (hop : op ≠ .tick) (t : TaskId) (r : Status)
    (past : List (WdtOp × Status)) :
    countdown t ((op, r) :: past)
      = if op.handle = some t ∧ r = .ok then op.act (countdown t past) else countdown t past := by
  cases op <;> first | rfl | exact absurd rfl hop

/-! ## The tick and the callbacks it calls -/

/-- A call made by `os_wdt_tick`: the task, and the callback with its parameter or `none` for
`prv_default_timeout_handler`. -/
structure Timeout where
  /-- The task that has missed its deadline. -/
  task : Option TaskId
  /-- What is called. -/
  handler : Option (Addr × Addr)
  deriving DecidableEq, Repr

/-- The loop of `os_wdt_tick` with the calls it makes, for callbacks that do not call the watchdog. -/
def wdtLoopCalls : Nat → Nat → Watchdog → List Timeout × Option Watchdog
  | 0, _, w => ([], some w)
  | fuel + 1, i, w =>
      match w.table[i]? with
      | none => ([], some w)
      | some e =>
          if e.paused || e.tcb.isNone then wdtLoopCalls fuel (i + 1) w
          else
            let e := { e with remaining := e.remaining - 1 }
            let w := { w with table := w.table.set i e }
            if e.remaining = 0 then
              match timeoutCallback w e with
              | none => ([⟨e.tcb, none⟩], none)
              | some h =>
                  let r := wdtLoopCalls fuel (i + 1)
                    { w with table := w.table.modify i fun e => { e with remaining := e.deadline } }
                  (⟨e.tcb, some h⟩ :: r.1, r.2)
            else wdtLoopCalls fuel (i + 1) w

/-- The calls that `os_wdt_tick` makes. -/
def wdtTickCalls (w : Watchdog) : List Timeout := (wdtLoopCalls wdtMaxEntries 0 w).1

/-- Recording the calls changes nothing. -/
theorem wdtLoopCalls_snd (fuel i : Nat) (w : Watchdog) :
    (wdtLoopCalls fuel i w).2 = wdtLoop (fun _ _ _ w => w) fuel i w := by
  induction fuel generalizing i w with
  | zero => rfl
  | succ fuel ih =>
      rw [wdtLoopCalls, wdtLoop]
      cases w.table[i]? with
      | none => rfl
      | some e =>
          dsimp only
          split
          · exact ih ..
          · split
            · cases timeoutCallback _ _ with
              | none => rfl
              | some h => exact ih ..
            · exact ih ..

/-! ## The pass over the table, entry by entry -/

/-- The entry fires on the next tick. -/
def WdtEntry.due (e : WdtEntry) : Bool := !(e.paused || e.tcb.isNone) && e.remaining - 1 == 0

/-- What a tick makes of an entry. -/
def WdtEntry.tick (e : WdtEntry) : WdtEntry :=
  if e.paused || e.tcb.isNone then e
  else if e.remaining - 1 = 0 then { e with remaining := e.deadline }
  else { e with remaining := e.remaining - 1 }

/-- **The default handler halts the system here**: the entry fires, has no callback, and there is no
default callback. -/
def Watchdog.halts (w : Watchdog) (e : WdtEntry) : Bool := e.due && (timeoutCallback w e).isNone

/-- The calls of a pass over the entries, up to the one that halts the system. -/
def Watchdog.passCalls (w : Watchdog) : List WdtEntry → List Timeout
  | [] => []
  | e :: es =>
      if w.halts e then [⟨e.tcb, none⟩]
      else if e.due then ⟨e.tcb, timeoutCallback w e⟩ :: w.passCalls es
      else w.passCalls es

/-- The table after a pass over the entries, unless one halts the system. -/
def Watchdog.pass (w : Watchdog) (es : List WdtEntry) : Option (List WdtEntry) :=
  if es.any w.halts then none else some (es.map WdtEntry.tick)

/-- Changing the entry behind a front of the table. -/
theorem modify_length_append {α : Type} (front : List α) (x : α) (back : List α) (f : α → α) :
    (front ++ x :: back).modify front.length f = front ++ f x :: back := by
  induction front with
  | nil => simp
  | cons y front ih => simpa using ih

/-- An entry that does not halt the system is passed over. -/
theorem Watchdog.pass_cons {w : Watchdog} {e : WdtEntry} (h : w.halts e = false) (es : List WdtEntry) :
    w.pass (e :: es) = (w.pass es).map (e.tick :: ·) := by
  simp only [Watchdog.pass, List.any_cons, h, Bool.false_or]
  split <;> rfl

/-- The calls of such an entry. -/
theorem Watchdog.passCalls_cons {w : Watchdog} {e : WdtEntry} (h : w.halts e = false)
    (es : List WdtEntry) :
    w.passCalls (e :: es)
      = if e.due then ⟨e.tcb, timeoutCallback w e⟩ :: w.passCalls es else w.passCalls es := by
  simp [Watchdog.passCalls, h]

/-- The callback depends neither on the table nor on the ticks left. -/
theorem timeoutCallback_setTable (w : Watchdog) (table : List WdtEntry) (e : WdtEntry) (n : Nat) :
    timeoutCallback { w with table := table } { e with remaining := n } = timeoutCallback w e := rfl

/-- **The loop is a pass over the rest of the table.** -/
theorem wdtLoopCalls_eq_pass (w : Watchdog) (front es : List WdtEntry) {fuel : Nat}
    (hfuel : es.length ≤ fuel) :
    wdtLoopCalls fuel front.length { w with table := front ++ es }
      = (w.passCalls es, (w.pass es).map fun es => { w with table := front ++ es }) := by
  induction es generalizing front fuel with
  | nil =>
      cases fuel with
      | zero => simp [wdtLoopCalls, Watchdog.passCalls, Watchdog.pass]
      | succ fuel => simp [wdtLoopCalls, Watchdog.passCalls, Watchdog.pass]
  | cons e es ih =>
      cases fuel with
      | zero => simp at hfuel
      | succ fuel =>
          -- what is left to do once the entry at the index has become `e.tick`
          have hrest := ih (front ++ [e.tick]) (Nat.le_of_succ_le_succ hfuel)
          simp only [List.length_append, List.length_singleton, List.append_assoc,
            List.singleton_append] at hrest
          have hset : ∀ e', (front ++ e :: es).set front.length e' = front ++ e' :: es := by simp
          rw [wdtLoopCalls]
          simp only [List.getElem?_append_right (Nat.le_refl _), Nat.sub_self, List.getElem?_cons_zero,
            hset, timeoutCallback_setTable]
          -- Three cases as in the loop body: skipped, timed out, or still counting.
          by_cases hskip : (e.paused || e.tcb.isNone) = true
          · have htick : e.tick = e := by simp [WdtEntry.tick, hskip]
            have hdue : e.due = false := by simp [WdtEntry.due, hskip]
            have hhalt : w.halts e = false := by simp [Watchdog.halts, hdue]
            rw [htick] at hrest
            rw [if_pos hskip, hrest, w.pass_cons hhalt, w.passCalls_cons hhalt, hdue, htick]
            simp [Function.comp_def]
          · by_cases hzero : e.remaining - 1 = 0
            · have htick : e.tick = { e with remaining := e.deadline } := by
                simp [WdtEntry.tick, hskip, hzero]
              have hdue : e.due = true := by simp [WdtEntry.due, hskip, hzero]
              rw [if_neg hskip, if_pos hzero]
              cases hh : timeoutCallback w e with
              -- Nobody to call: the handler halts, and the pass ends here too.
              | none => simp [Watchdog.passCalls, Watchdog.pass, Watchdog.halts, hdue, hh]
              | some h =>
                  have hhalt : w.halts e = false := by simp [Watchdog.halts, hh]
                  have hmod : (front ++ { e with remaining := e.remaining - 1 } :: es).modify front.length
                      (fun e => { e with remaining := e.deadline }) = front ++ e.tick :: es := by
                    rw [modify_length_append, htick]
                  simp only [hmod]
                  rw [hrest, w.pass_cons hhalt, w.passCalls_cons hhalt, hdue, hh]
                  simp [Function.comp_def]
            · have htick : e.tick = { e with remaining := e.remaining - 1 } := by
                simp [WdtEntry.tick, hskip, hzero]
              have hdue : e.due = false := by simp [WdtEntry.due, hzero]
              have hhalt : w.halts e = false := by simp [Watchdog.halts, hdue]
              rw [if_neg hskip, if_neg hzero, ← htick, hrest, w.pass_cons hhalt, w.passCalls_cons hhalt,
                hdue]
              simp [Function.comp_def]

/-- `os_wdt_tick` is a pass over the table. -/
theorem osWdtTick_eq_pass {w : Watchdog} (hfits : w.table.length ≤ wdtMaxEntries) :
    osWdtTick (fun _ _ _ w => w) w = (w.pass w.table).map fun es => { w with table := es } := by
  rw [osWdtTick, ← wdtLoopCalls_snd]
  exact congrArg Prod.snd (wdtLoopCalls_eq_pass w [] w.table hfits)

/-- The calls are those of the pass. -/
theorem wdtTickCalls_eq_pass {w : Watchdog} (hfits : w.table.length ≤ wdtMaxEntries) :
    wdtTickCalls w = w.passCalls w.table :=
  congrArg Prod.fst (wdtLoopCalls_eq_pass w [] w.table hfits)

/-! ## Entries and their tasks -/

/-- Where `prv_find_entry` finds the entry of a task. -/
theorem prvFindEntry_some {w : Watchdog} {t : TaskId} {i : Nat} (h : prvFindEntry w t = some i) :
    ∃ front e back, w.table = front ++ e :: back ∧ front.length = i ∧ e.tcb = some t := by
  obtain ⟨hi, he, -⟩ := List.findIdx?_eq_some_iff_getElem.mp h
  refine ⟨w.table.take i, w.table[i], w.table.drop (i + 1), ?_, ?_, by simpa using he⟩
  · rw [List.getElem_cons_drop, List.take_append_drop]
  · rw [List.length_take]
    omega

/-- A task that `prv_find_entry` does not find has no entry. -/
theorem prvFindEntry_none {w : Watchdog} {t : TaskId} (h : prvFindEntry w t = none) :
    some t ∉ w.tasks := by
  intro hm
  obtain ⟨e, he, het⟩ := List.mem_map.mp hm
  have := List.findIdx?_eq_none_iff.mp h e he
  simp [het] at this

/-- In a table with distinct tasks, what stands before and behind the entry of a task belongs to other
tasks. -/
theorem tcb_ne_of_nodup {front back : List WdtEntry} {e x : WdtEntry}
    (hnd : ((front ++ e :: back).map WdtEntry.tcb).Nodup) (hx : x ∈ front ++ back) : x.tcb ≠ e.tcb := by
  rw [List.map_append, List.map_cons, List.nodup_append, List.nodup_cons] at hnd
  obtain ⟨-, ⟨hback, -⟩, hfront⟩ := hnd
  intro hxe
  rcases List.mem_append.mp hx with hx | hx
  · exact hfront _ (List.mem_map_of_mem hx) _ List.mem_cons_self hxe
  · exact hback (hxe ▸ List.mem_map_of_mem hx)

/-- **Changing the entry of a task leaves every other entry alone.** -/
theorem modify_eq_map {w : Watchdog} {t : TaskId} {i : Nat} (hnd : w.tasks.Nodup)
    (h : prvFindEntry w t = some i) (f : WdtEntry → WdtEntry) :
    w.table.modify i f = w.table.map fun e => if e.tcb = some t then f e else e := by
  obtain ⟨front, e, back, htable, rfl, het⟩ := prvFindEntry_some h
  rw [Watchdog.tasks, htable] at hnd
  have hother : ∀ x ∈ front ++ back, (if x.tcb = some t then f x else x) = x := fun x hx =>
    if_neg (het ▸ tcb_ne_of_nodup hnd hx)
  rw [htable, modify_length_append, List.map_append, List.map_cons, if_pos het,
    List.map_congr_left fun x hx => hother x (List.mem_append_left _ hx),
    List.map_congr_left fun x hx => hother x (List.mem_append_right _ hx)]
  simp

/-- **Unregistering a task leaves every other entry alone**, although the last one moves. -/
theorem compact_perm_filter {w : Watchdog} {t : TaskId} {i : Nat} (hnd : w.tasks.Nodup)
    (h : prvFindEntry w t = some i) :
    (compact w.table i).Perm (w.table.filter fun e => e.tcb ≠ some t) := by
  obtain ⟨front, e, back, htable, rfl, het⟩ := prvFindEntry_some h
  rw [Watchdog.tasks, htable] at hnd
  have hother : ∀ x ∈ front ++ back, (decide (x.tcb ≠ some t)) = true := fun x hx =>
    decide_eq_true (het ▸ tcb_ne_of_nodup hnd hx)
  have hfilter : w.table.filter (fun e => e.tcb ≠ some t) = front ++ back := by
    rw [htable, List.filter_append, List.filter_cons_of_neg (by simp [het]), ← List.filter_append,
      List.filter_eq_self.mpr hother]
  rw [hfilter, htable, compact]
  -- the last entry is the one that goes, or it moves to the front of those behind the gap
  rcases List.eq_nil_or_concat back with rfl | ⟨rest, l, rfl⟩
  · simp
  · rw [List.concat_eq_append]
    have hlast : (front ++ e :: (rest ++ [l])).getLast? = some l := by
      rw [← List.cons_append, ← List.append_assoc]
      exact List.getLast?_concat
    rw [hlast]
    have hset : ((front ++ e :: (rest ++ [l])).set front.length l).dropLast = front ++ l :: rest := by
      rw [List.set_append_right _ _ (Nat.le_refl _), Nat.sub_self, List.set_cons_zero,
        ← List.cons_append, ← List.append_assoc, List.dropLast_concat]
    dsimp only
    rw [hset]
    exact List.Perm.append_left _ (List.perm_append_singleton _ _).symm

/-- **The ways `os_wdt_register` can go**: it fails and leaves the table, or it appends an entry for a
task that had none. -/
theorem osWdtRegister_cases (k : Kernel) (w : Watchdog) (handle : Option TaskId) (n : Nat)
    (cb : Option Addr) (p : Addr) :
    ((osWdtRegister k w handle n cb p).1 ≠ .ok ∧ (osWdtRegister k w handle n cb p).2.2 = w) ∨
      ∃ t k', handle = some t ∧ 0 < n ∧ some t ∉ w.tasks ∧ w.table.length < wdtMaxEntries ∧
        osWdtRegister k w handle n cb p
          = (.ok, k', { w with table := w.table ++ [⟨some t, n, n, cb, p, false⟩] }) := by
  cases handle with
  | none => exact Or.inl ⟨by simp [osWdtRegister], rfl⟩
  | some t =>
      rw [osWdtRegister]
      dsimp only
      split
      · exact Or.inl ⟨by simp, rfl⟩
      next hn =>
      split
      · exact Or.inl ⟨by simp, rfl⟩
      next hfind =>
      split
      · exact Or.inl ⟨by simp, rfl⟩
      next hfull =>
      exact Or.inr ⟨t, _, rfl, Nat.pos_of_ne_zero hn, prvFindEntry_none (by simpa using hfind),
        Nat.lt_of_not_le hfull, rfl⟩

/-- **The ways `os_wdt_unregister` can go**: it fails and leaves the table, or the entry of the task is
gone, the others in some order. -/
theorem osWdtUnregister_cases (k : Kernel) {w : Watchdog} (hnd : w.tasks.Nodup)
    (handle : Option TaskId) :
    ((osWdtUnregister k w handle).1 ≠ .ok ∧ (osWdtUnregister k w handle).2.2 = w) ∨
      ∃ t k' table, handle = some t ∧ table.Perm (w.table.filter fun e => e.tcb ≠ some t) ∧
        osWdtUnregister k w handle = (.ok, k', { w with table := table }) := by
  cases handle with
  | none => exact Or.inl ⟨by simp [osWdtUnregister], rfl⟩
  | some t =>
      rw [osWdtUnregister]
      cases hfind : prvFindEntry w t with
      | none => exact Or.inl ⟨by simp, rfl⟩
      | some i => exact Or.inr ⟨t, _, _, rfl, compact_perm_filter hnd hfind, rfl⟩

/-- A new entry, of a task that had none, keeps the tasks apart. -/
theorem Watchdog.keyed_push {w : Watchdog} {e : WdtEntry} {t : TaskId} (hnd : w.tasks.Nodup)
    (hnone : none ∉ w.tasks) (he : e.tcb = some t) (hnew : some t ∉ w.tasks) :
    ({ w with table := w.table ++ [e] } : Watchdog).tasks.Nodup ∧
      none ∉ ({ w with table := w.table ++ [e] } : Watchdog).tasks := by
  have htasks : ({ w with table := w.table ++ [e] } : Watchdog).tasks = w.tasks ++ [some t] := by
    simp [Watchdog.tasks, he]
  rw [htasks]
  refine ⟨List.nodup_append.mpr ⟨hnd, by simp, fun a ha b hb => ?_⟩, by simpa using hnone⟩
  rw [List.mem_singleton.mp hb]
  exact fun hab => hnew (hab ▸ ha)

/-- The same, for a table that has lost entries. -/
theorem Watchdog.keyed_filter {w : Watchdog} {f : WdtEntry → Bool} {table : List WdtEntry}
    (hnd : w.tasks.Nodup) (hnone : none ∉ w.tasks) (hperm : table.Perm (w.table.filter f)) :
    table.length ≤ w.table.length ∧ ({ w with table := table } : Watchdog).tasks.Nodup ∧
      none ∉ ({ w with table := table } : Watchdog).tasks := by
  refine ⟨hperm.length_eq.trans_le (List.length_filter_le _ _), ?_, fun hmem => ?_⟩
  · exact (hperm.map _).nodup_iff.mpr (hnd.sublist (List.filter_sublist.map _))
  · exact hnone ((List.filter_sublist.map _).subset ((hperm.map _).subset hmem))

/-! ## Runs -/

/-- The watchdog, the kernel whose critical sections it enters, and the calls so far, latest first. -/
structure WdtSys where
  /-- The kernel. -/
  kernel : Kernel
  /-- The watchdog. -/
  wdt : Watchdog
  /-- The calls with their results. -/
  history : List (WdtOp × Status)

/-- After `os_wdt_init`. -/
def WdtSys.start (k : Kernel) : WdtSys := ⟨k, osWdtInit, []⟩

/-- A call has returned. -/
def WdtSys.note (s : WdtSys) (op : WdtOp) (r : Status × Kernel × Watchdog) : WdtSys :=
  ⟨r.2.1, r.2.2, (op, r.1) :: s.history⟩

/-- A call without a critical section has returned. -/
def WdtSys.noteUpdate (s : WdtSys) (op : WdtOp) (r : Status × Watchdog) : WdtSys :=
  ⟨s.kernel, r.2, (op, r.1) :: s.history⟩

/-- **One call**, the callbacks not calling the watchdog. A tick on which the default handler halts the
system does not return. -/
def wdtStep (s : WdtSys) (op : WdtOp) : Option WdtSys :=
  match op with
  | .register t n cb p => some (s.note op (osWdtRegister s.kernel s.wdt t n cb p))
  | .unregister t => some (s.note op (osWdtUnregister s.kernel s.wdt t))
  | .feed t => some (s.noteUpdate op (osWdtFeedTask s.wdt t))
  | .pause t => some (s.noteUpdate op (osWdtPause s.wdt t))
  | .resume t => some (s.noteUpdate op (osWdtResume s.wdt t))
  | .setDeadline t n => some (s.note op (osWdtSetDeadline s.kernel s.wdt t n))
  | .setDefaultCallback cb p =>
      some (s.noteUpdate op (.ok, { s.wdt with defaultCb := cb, defaultParam := p }))
  | .tick => (osWdtTick (fun _ _ _ w => w) s.wdt).map fun w => s.noteUpdate op (.ok, w)

/-- What an entry says about the countdown of its task. -/
def WdtEntry.countdown (e : WdtEntry) : Countdown := ⟨e.deadline, e.deadline - e.remaining, e.paused⟩

/-- Between two calls the ticks left are in range. -/
def WdtEntry.InRange (e : WdtEntry) : Prop := 0 < e.remaining ∧ e.remaining ≤ e.deadline

/-- What a tick does to the countdown that an entry shows. -/
theorem WdtEntry.countdown_tick {e : WdtEntry} (hr : e.InRange)
    (ht : e.tcb.isSome) : e.tick.countdown = e.countdown.tick := by
  obtain ⟨hpos, hle⟩ := hr
  have hnone : e.tcb.isNone = false := by simpa using ht
  simp only [WdtEntry.tick, Countdown.tick, WdtEntry.countdown, hnone, Bool.or_false]
  by_cases hp : e.paused = true
  · simp [hp]
  · by_cases hzero : e.remaining - 1 = 0
    · have hlast : e.deadline - e.remaining + 1 = e.deadline := by omega
      simp [hp, hzero, hlast]
    · have hmore : e.deadline - e.remaining + 1 ≠ e.deadline := by omega
      have hnext : e.deadline - (e.remaining - 1) = e.deadline - e.remaining + 1 := by omega
      simp [hp, hzero, hmore, hnext]

/-- **The table shows the countdown of every registered task.** -/
structure WdtInv (w : Watchdog) (past : List (WdtOp × Status)) : Prop where
  /-- `wdt_count` is in range. -/
  fits : w.table.length ≤ wdtMaxEntries
  /-- No task has two entries. -/
  nodup : w.tasks.Nodup
  /-- Every entry has a task. -/
  named : none ∉ w.tasks
  /-- The ticks left are in range. -/
  inRange : ∀ e ∈ w.table, e.InRange
  /-- An entry shows the countdown of its task. -/
  shows : ∀ e ∈ w.table, ∀ t, e.tcb = some t → MiniRTOS.countdown t past = some e.countdown
  /-- A task with a countdown has an entry. -/
  listed : ∀ t, (MiniRTOS.countdown t past).isSome → some t ∈ w.tasks

namespace WdtInv

variable {w : Watchdog} {past : List (WdtOp × Status)}

/-- An empty table. -/
theorem init : WdtInv osWdtInit [] where
  fits := Nat.zero_le _
  nodup := List.nodup_nil
  named := by simp [Watchdog.tasks, osWdtInit]
  inRange := by simp [osWdtInit]
  shows := by simp [osWdtInit]
  listed := by simp [MiniRTOS.countdown]

/-- A call that changes no countdown and not the table. -/
theorem same {w' : Watchdog} {past' : List (WdtOp × Status)} (h : WdtInv w past)
    (hw : w'.table = w.table)
    (hc : ∀ t, MiniRTOS.countdown t past' = MiniRTOS.countdown t past) : WdtInv w' past' where
  fits := hw ▸ h.fits
  nodup := by
    rw [Watchdog.tasks, hw]
    exact h.nodup
  named := by
    rw [Watchdog.tasks, hw]
    exact h.named
  inRange := hw ▸ h.inRange
  shows e he t ht := by
    rw [hc]
    exact h.shows e (hw ▸ he) t ht
  listed t ht := by
    rw [Watchdog.tasks, hw]
    exact h.listed t (hc t ▸ ht)

/-- A call that changes the entries in place. -/
theorem map {w' : Watchdog} {past' : List (WdtOp × Status)} (h : WdtInv w past)
    {f : WdtEntry → WdtEntry} (hw : w'.table = w.table.map f) (hf : ∀ e, (f e).tcb = e.tcb)
    (hr : ∀ e, e.InRange → (f e).InRange)
    (hc : ∀ e, e.InRange → ∀ t, e.tcb = some t → MiniRTOS.countdown t past = some e.countdown →
      MiniRTOS.countdown t past' = some (f e).countdown)
    (hl : ∀ t, MiniRTOS.countdown t past = none → MiniRTOS.countdown t past' = none) :
    WdtInv w' past' := by
  have htasks : w'.tasks = w.tasks := by
    rw [Watchdog.tasks, Watchdog.tasks, hw, List.map_map]
    exact List.map_congr_left fun e _ => hf e
  refine ⟨by simpa [hw] using h.fits, htasks ▸ h.nodup, htasks ▸ h.named, fun e' he' => ?_,
    fun e' he' t ht => ?_, fun t ht => ?_⟩
  · obtain ⟨e, he, rfl⟩ := List.mem_map.mp (hw ▸ he')
    exact hr e (h.inRange e he)
  · obtain ⟨e, he, rfl⟩ := List.mem_map.mp (hw ▸ he')
    rw [hf] at ht
    exact hc e (h.inRange e he) t ht (h.shows e he t ht)
  · refine htasks ▸ h.listed t ?_
    by_contra hnone
    rw [hl t (Option.not_isSome_iff_eq_none.mp hnone)] at ht
    cases ht

/-- A call that fails. -/
theorem failed {w' : Watchdog} {op : WdtOp} {r : Status} (h : WdtInv w past) (hop : op ≠ .tick)
    (hw : w'.table = w.table) (hr : r ≠ .ok) : WdtInv w' ((op, r) :: past) :=
  h.same hw fun t => by rw [countdown_call hop, if_neg fun h => hr h.2]

/-- **A call that looks up an entry and changes it.** -/
theorem update {f : WdtEntry → WdtEntry} (h : WdtInv w past) (op : WdtOp) (hop : op ≠ .tick)
    (hf : ∀ e, (f e).tcb = e.tcb) (hr : ∀ e, e.InRange → (f e).InRange)
    (hact : ∀ e, e.InRange → op.act (some e.countdown) = some (f e).countdown)
    (hnone : op.act none = none) :
    WdtInv (updateEntry w op.handle f).2 ((op, (updateEntry w op.handle f).1) :: past) := by
  rw [updateEntry]
  cases hfind : op.handle.bind (prvFindEntry w) with
  -- No entry, no effect: the call fails and changes no countdown.
  | none => exact h.failed hop rfl (by simp)
  | some i =>
      obtain ⟨t, hop', hi⟩ := Option.bind_eq_some_iff.mp hfind
      refine h.map (modify_eq_map h.nodup hi f) (fun e => ?_) (fun e he => ?_)
        (fun e he x hx hc => ?_) fun x hx => ?_
      · split
        · exact hf e
        · rfl
      · split
        · exact hr e he
        · exact he
      · -- The entry of the named task follows the call, those of the others stay.
        rw [countdown_call hop, hop', hc]
        by_cases hxt : x = t
        · subst hxt
          rw [if_pos ⟨rfl, rfl⟩, if_pos hx]
          exact hact e he
        · have hne : ¬e.tcb = some t := fun het => hxt (Option.some.inj (hx.symm.trans het))
          rw [if_neg fun heq => hxt (Option.some.inj heq.1).symm, if_neg hne]
      · rw [countdown_call hop, hx, hnone]
        exact ite_self _

/-- `os_wdt_register`. -/
theorem register (h : WdtInv w past) (k : Kernel) (handle : Option TaskId) (n : Nat) (cb : Option Addr)
    (p : Addr) :
    WdtInv (osWdtRegister k w handle n cb p).2.2
      ((.register handle n cb p, (osWdtRegister k w handle n cb p).1) :: past) := by
  rcases osWdtRegister_cases k w handle n cb p with
    ⟨hr, hw⟩ | ⟨t, k', rfl, hn, hnew, hroom, heq⟩
  -- The three refusals change nothing.
  · exact h.failed (by simp) (congrArg Watchdog.table hw) hr
  · rw [heq]
    have hcall : ∀ x, MiniRTOS.countdown x ((.register (some t) n cb p, .ok) :: past)
        = if x = t then some ⟨n, 0, false⟩ else MiniRTOS.countdown x past := by
      intro x
      rw [countdown_call (by simp)]
      by_cases hx : x = t
      · simp [hx, WdtOp.handle, WdtOp.act]
      · rw [if_neg hx, if_neg fun heq => hx (Option.some.inj heq.1).symm]
    obtain ⟨hnd, hnone⟩ := Watchdog.keyed_push (e := ⟨some t, n, n, cb, p, false⟩) h.nodup h.named rfl hnew
    refine ⟨by simpa using Nat.succ_le_of_lt hroom, hnd, hnone, fun e he => ?_, fun e he x hx => ?_,
      fun x hx => ?_⟩
    · rcases List.mem_append.mp he with he | he
      · exact h.inRange e he
      · obtain rfl := List.mem_singleton.mp he
        exact ⟨hn, Nat.le_refl _⟩
    · rw [hcall]
      rcases List.mem_append.mp he with he | he
      · have hxt : x ≠ t := fun hxt => hnew (hxt ▸ hx ▸ List.mem_map_of_mem he)
        rw [if_neg hxt]
        exact h.shows e he x hx
      · obtain rfl := List.mem_singleton.mp he
        obtain rfl := Option.some.inj hx
        rw [if_pos rfl]
        simp [WdtEntry.countdown]
    · simp only [Watchdog.tasks, List.map_append, List.map_cons, List.map_nil, List.mem_append,
        List.mem_singleton]
      rw [hcall] at hx
      by_cases hxt : x = t
      · exact .inr (congrArg some hxt)
      · rw [if_neg hxt] at hx
        exact .inl (h.listed x hx)

/-- `os_wdt_unregister`. -/
theorem unregister (h : WdtInv w past) (k : Kernel) (handle : Option TaskId) :
    WdtInv (osWdtUnregister k w handle).2.2
      ((.unregister handle, (osWdtUnregister k w handle).1) :: past) := by
  rcases osWdtUnregister_cases k h.nodup handle with ⟨hr, hw⟩ | ⟨t, k', table, rfl, hperm, heq⟩
  · exact h.failed (by simp) (congrArg Watchdog.table hw) hr
  · rw [heq]
    -- The compaction moves the last entry into the gap, so up to the order it is a filter,
    -- and none of what follows depends on the order.
    have hmem : ∀ e, e ∈ table ↔ e ∈ w.table ∧ e.tcb ≠ some t := fun e => by
      rw [hperm.mem_iff, List.mem_filter, decide_eq_true_iff]
    have hcall : ∀ x, MiniRTOS.countdown x ((.unregister (some t), .ok) :: past)
        = if x = t then none else MiniRTOS.countdown x past := by
      intro x
      rw [countdown_call (by simp)]
      by_cases hx : x = t
      · simp [hx, WdtOp.handle, WdtOp.act]
      · rw [if_neg hx, if_neg fun heq => hx (Option.some.inj heq.1).symm]
    obtain ⟨hlen, hnd, hnone⟩ := Watchdog.keyed_filter h.nodup h.named hperm
    refine ⟨hlen.trans h.fits, hnd, hnone, fun e he => ?_, fun e he x hx => ?_, fun x hx => ?_⟩
    · exact h.inRange e ((hmem e).mp he).1
    · obtain ⟨he, hne⟩ := (hmem e).mp he
      rw [hcall, if_neg fun hxt => hne (hx.trans (congrArg some hxt))]
      exact h.shows e he x hx
    · rw [hcall] at hx
      by_cases hxt : x = t
      · simp [hxt] at hx
      · rw [if_neg hxt] at hx
        obtain ⟨e, he, hex⟩ := List.mem_map.mp (h.listed x hx)
        refine List.mem_map.mpr ⟨e, (hmem e).mpr ⟨he, fun het => ?_⟩, hex⟩
        exact hxt (Option.some.inj (hex.symm.trans het))

/-- `os_wdt_set_deadline`. -/
theorem setDeadline (h : WdtInv w past) (k : Kernel) (handle : Option TaskId) (n : Nat) :
    WdtInv (osWdtSetDeadline k w handle n).2.2
      ((.setDeadline handle n, (osWdtSetDeadline k w handle n).1) :: past) := by
  rw [osWdtSetDeadline]
  split
  · exact h.failed (by simp) rfl nofun
  · next hn =>
      have hupd := h.update (.setDeadline handle n)
        (f := fun e => { e with deadline := n, remaining := n }) (by simp) (fun _ => rfl)
        (fun _ _ => ⟨Nat.pos_of_ne_zero hn, Nat.le_refl _⟩)
        (fun e _ => by simp [WdtOp.act, WdtEntry.countdown]) rfl
      simp only [WdtOp.handle] at hupd
      split
      · next heq =>
          rw [heq] at hupd
          exact hupd
      · next heq =>
          rw [heq] at hupd
          exact hupd

/-- `os_wdt_tick`. -/
theorem tick {w' : Watchdog} (h : WdtInv w past) (hw : osWdtTick (fun _ _ _ w => w) w = some w') :
    WdtInv w' ((.tick, .ok) :: past) := by
  rw [osWdtTick_eq_pass h.fits, Watchdog.pass] at hw
  split at hw
  · -- The default handler does not return, so there is no state after it.
    cases hw
  · obtain rfl := Option.some.inj hw
    refine h.map rfl (fun e => ?_) (fun e he => ?_) (fun e he t ht hc => ?_) fun t hc => ?_
    · rw [WdtEntry.tick]
      split
      · rfl
      · split <;> rfl
    · -- Either reset to the deadline, or one less and still positive.
      obtain ⟨hpos, hle⟩ := he
      rw [WdtEntry.tick]
      split
      · exact ⟨hpos, hle⟩
      · split
        · exact ⟨by dsimp only; omega, Nat.le_refl _⟩
        · exact ⟨by dsimp only; omega, by dsimp only; omega⟩
    · rw [MiniRTOS.countdown, hc, WdtEntry.countdown_tick he (by simp [ht])]
      rfl
    · rw [MiniRTOS.countdown, hc]
      rfl

/-- **One call keeps the invariant.** -/
theorem step {s s' : WdtSys} {op : WdtOp} (h : WdtInv s.wdt s.history) (hs : wdtStep s op = some s') :
    WdtInv s'.wdt s'.history := by
  cases op with
  | register t n cb p =>
      obtain rfl := Option.some.inj hs
      exact h.register s.kernel t n cb p
  | unregister t =>
      obtain rfl := Option.some.inj hs
      exact h.unregister s.kernel t
  | feed t =>
      obtain rfl := Option.some.inj hs
      exact h.update (.feed t) (by simp) (fun _ => rfl)
        (fun e he => ⟨Nat.lt_of_lt_of_le he.1 he.2, Nat.le_refl _⟩)
        (fun e _ => by simp [WdtOp.act, WdtEntry.countdown]) rfl
  | pause t =>
      obtain rfl := Option.some.inj hs
      exact h.update (.pause t) (by simp) (fun _ => rfl) (fun e he => he) (fun _ _ => rfl) rfl
  | resume t =>
      obtain rfl := Option.some.inj hs
      exact h.update (.resume t) (by simp) (fun _ => rfl)
        (fun e he => ⟨Nat.lt_of_lt_of_le he.1 he.2, Nat.le_refl _⟩)
        (fun e _ => by simp [WdtOp.act, WdtEntry.countdown]) rfl
  | setDeadline t n =>
      obtain rfl := Option.some.inj hs
      exact h.setDeadline s.kernel t n
  | setDefaultCallback cb p =>
      obtain rfl := Option.some.inj hs
      refine h.same rfl fun t => ?_
      rw [WdtSys.noteUpdate, countdown_call (by simp)]
      exact if_neg (by simp [WdtOp.handle])
  | tick =>
      obtain ⟨w', hw, rfl⟩ := Option.map_eq_some_iff.mp hs
      exact h.tick hw

end WdtInv

/-! ## When a callback is called -/

/-- The next tick calls a callback for the task. -/
def Watchdog.Fires (w : Watchdog) (t : TaskId) : Prop := ∃ c ∈ wdtTickCalls w, c.task = some t

/-- Whether the next tick calls the callback of a task can be decided. -/
instance Watchdog.decidableFires (w : Watchdog) (t : TaskId) : Decidable (w.Fires t) :=
  inferInstanceAs (Decidable (∃ c ∈ wdtTickCalls w, _))

/-- **The default handler halts the next tick before it reaches the entry of the task.** -/
def Watchdog.haltsBefore (w : Watchdog) (t : TaskId) : Bool :=
  (w.table.takeWhile fun e => e.tcb ≠ some t).any w.halts

/-- What a pass calls: the handlers of the entries that fire, none of those in front halting the
system. -/
theorem Watchdog.mem_passCalls {w : Watchdog} {es : List WdtEntry} {c : Timeout} :
    c ∈ w.passCalls es ↔ ∃ front e back, es = front ++ e :: back ∧ front.any w.halts = false ∧
      e.due = true ∧ c = ⟨e.tcb, timeoutCallback w e⟩ := by
  -- Induction along the table: the head entry halts, is due, or is passed.
  induction es with
  | nil => simp [Watchdog.passCalls]
  | cons x es ih =>
      constructor
      · intro hc
        rw [Watchdog.passCalls] at hc
        by_cases hx : w.halts x = true
        · rw [if_pos hx] at hc
          obtain ⟨hdue, hcb⟩ : x.due = true ∧ timeoutCallback w x = none := by
            simpa [Watchdog.halts] using hx
          exact ⟨[], x, es, rfl, rfl, hdue, by simpa [hcb] using hc⟩
        · rw [if_neg hx] at hc
          have hrest : c ∈ w.passCalls es → ∃ front e back, x :: es = front ++ e :: back ∧
              front.any w.halts = false ∧ e.due = true ∧ c = ⟨e.tcb, timeoutCallback w e⟩ := by
            intro hc
            obtain ⟨front, e, back, rfl, hfront, hdue, hc⟩ := ih.mp hc
            exact ⟨x :: front, e, back, rfl, by simpa [hx] using hfront, hdue, hc⟩
          split at hc
          · next hdue =>
              rcases List.mem_cons.mp hc with hc | hc
              · exact ⟨[], x, es, rfl, rfl, hdue, hc⟩
              · exact hrest hc
          · exact hrest hc
      · rintro ⟨front, e, back, heq, hfront, hdue, hc⟩
        cases front with
        | nil =>
            obtain ⟨rfl, rfl⟩ := List.cons.inj heq
            rw [Watchdog.passCalls]
            split
            · next hx =>
                have hcb : timeoutCallback w x = none := by
                  simpa [Watchdog.halts, hdue] using hx
                simp [hc, hcb]
            · simp [hc]
        | cons y front =>
            obtain ⟨rfl, rfl⟩ := List.cons.inj heq
            obtain ⟨hx, hfront⟩ : w.halts x = false ∧ front.any w.halts = false := by
              simpa [List.any_cons] using hfront
            have hmem := ih.mpr ⟨front, e, back, rfl, hfront, hdue, hc⟩
            rw [w.passCalls_cons hx]
            split
            · exact List.mem_cons_of_mem _ hmem
            · exact hmem

/-- A pass calls at most one callback for an entry. -/
theorem Watchdog.passCalls_sublist (w : Watchdog) (es : List WdtEntry) :
    ((w.passCalls es).map Timeout.task).Sublist (es.map WdtEntry.tcb) := by
  induction es with
  | nil => exact List.Sublist.slnil
  | cons x es ih =>
      rw [Watchdog.passCalls]
      split
      · simp
      · split
        · exact ih.cons_cons _
        · exact ih.cons _

/-- An entry fires when the countdown it shows has run out. -/
theorem WdtEntry.due_iff {e : WdtEntry} (hr : e.InRange) (ht : e.tcb.isSome) :
    e.due = true ↔ e.countdown.Due := by
  obtain ⟨hpos, hle⟩ := hr
  have hnone : e.tcb.isNone = false := by simpa using ht
  simp only [WdtEntry.due, Countdown.Due, WdtEntry.countdown, hnone, Bool.or_false, Bool.and_eq_true,
    Bool.not_eq_true', beq_iff_eq]
  refine and_congr_right fun _ => ?_
  omega

/-- The entries in front of the entry of a task. -/
theorem takeWhile_front {front back : List WdtEntry} {e : WdtEntry} {t : TaskId}
    (hnd : ((front ++ e :: back).map WdtEntry.tcb).Nodup) (het : e.tcb = some t) :
    (front ++ e :: back).takeWhile (fun e => decide (e.tcb ≠ some t)) = front := by
  rw [List.takeWhile_append_of_pos fun x hx => ?_, List.takeWhile_cons_of_neg (by simp [het]),
    List.append_nil]
  exact decide_eq_true (het ▸ tcb_ne_of_nodup hnd (List.mem_append_left _ hx))

/-- **When the next tick calls a callback for a task.** -/
theorem WdtInv.fires_iff {w : Watchdog} {past : List (WdtOp × Status)} (h : WdtInv w past) (t : TaskId) :
    w.Fires t ↔ ∃ c, countdown t past = some c ∧ c.Due ∧ w.haltsBefore t = false := by
  have hnd := h.nodup
  rw [Watchdog.tasks] at hnd
  rw [Watchdog.Fires, wdtTickCalls_eq_pass h.fits, Watchdog.haltsBefore]
  constructor
  · rintro ⟨c, hc, hct⟩
    obtain ⟨front, e, back, htable, hfront, hdue, rfl⟩ := Watchdog.mem_passCalls.mp hc
    have he : e ∈ w.table := by simp [htable]
    -- A task has one entry only, so those before this one are those before the task.
    have het : e.tcb = some t := hct
    refine ⟨e.countdown, h.shows e he t het, ?_, ?_⟩
    · exact (WdtEntry.due_iff (h.inRange e he) (by simp [het])).mp hdue
    · rw [htable] at hnd ⊢
      rw [takeWhile_front hnd het]
      exact hfront
  · rintro ⟨c, hc, hdue, hfront⟩
    obtain ⟨e, he, het⟩ := List.mem_map.mp (h.listed t (by simp [hc]))
    obtain rfl : e.countdown = c := Option.some.inj ((h.shows e he t het).symm.trans hc)
    obtain ⟨front, back, htable⟩ := List.append_of_mem he
    refine ⟨⟨e.tcb, timeoutCallback w e⟩, ?_, het⟩
    rw [htable] at hnd hfront
    rw [takeWhile_front hnd het] at hfront
    exact Watchdog.mem_passCalls.mpr ⟨front, e, back, htable, hfront,
      (WdtEntry.due_iff (h.inRange e he) (by simp [het])).mpr hdue, rfl⟩

/-- **Watchdog timing.** After any sequence of calls the entries have distinct tasks and their ticks
left are in range; the next tick calls at most one callback for a task, the one its entry asks for; and
it calls one exactly when the countdown of the task has run out, unless the default handler halts the
system at an entry in front. -/
theorem watchdog_fires_iff {k : Kernel} {ops : List WdtOp} {s : WdtSys}
    (hr : Run (fun _ _ => True) wdtStep (.start k) ops s) :
    (s.wdt.tasks.Nodup ∧ none ∉ s.wdt.tasks ∧
      ∀ e ∈ s.wdt.table, 0 < e.remaining ∧ e.remaining ≤ e.deadline) ∧
    (∀ t, some t ∈ s.wdt.tasks ↔ (countdown t s.history).isSome) ∧
    (∀ c ∈ wdtTickCalls s.wdt, ∃ e ∈ s.wdt.table, c = ⟨e.tcb, timeoutCallback s.wdt e⟩) ∧
    ((wdtTickCalls s.wdt).map Timeout.task).Nodup ∧
    ∀ t, s.wdt.Fires t ↔
      ∃ c, countdown t s.history = some c ∧ c.Due ∧ s.wdt.haltsBefore t = false := by
  have h : WdtInv s.wdt s.history :=
    hr.invariant (fun s => WdtInv s.wdt s.history) (fun _ _ _ h _ hs => WdtInv.step h hs) WdtInv.init
  refine ⟨⟨h.nodup, h.named, h.inRange⟩, fun t => ⟨fun ht => ?_, h.listed t⟩, fun c hc => ?_, ?_,
    h.fires_iff⟩
  · obtain ⟨e, he, het⟩ := List.mem_map.mp ht
    simp [h.shows e he t het]
  · rw [wdtTickCalls_eq_pass h.fits] at hc
    obtain ⟨front, e, back, htable, -, -, hc⟩ := Watchdog.mem_passCalls.mp hc
    exact ⟨e, by simp [htable], hc⟩
  · rw [wdtTickCalls_eq_pass h.fits]
    exact h.nodup.sublist (s.wdt.passCalls_sublist _)

/-- Two tasks are registered; the first is unregistered, so that the entry of the second one moves, and
the second one is paused for a tick and resumed. -/
def movedTrace : List WdtOp :=
  [.register (some 1) 9 (some 0) 0, .register (some 2) 2 (some 0) 0, .tick, .pause (some 2), .tick,
    .unregister (some 1), .resume (some 2), .tick]

/-- The entry that has moved fires two ticks after the resumption. -/
theorem watchdog_fires_movedTrace :
    ∃ s, Run (fun _ _ => True) wdtStep (.start Sys.boot.kernel) movedTrace s ∧ s.wdt.Fires 2 := by
  obtain ⟨s, hr, hc, hh⟩ := exists_run_of_exec (fun _ _ => True) wdtStep (.start Sys.boot.kernel)
    movedTrace (fun s => countdown 2 s.history = some ⟨2, 1, false⟩ ∧ s.wdt.haltsBefore 2 = false)
    (by decide +kernel)
  exact ⟨s, hr, ((watchdog_fires_iff hr).2.2.2.2 2).mpr ⟨_, hc, by decide, hh⟩⟩

/-- **A halt hides the other timeouts.** Two tasks miss their deadlines on the same tick; the first one
has no callback and there is no default, so the tick halts the system and the callback of the second
task is not called. -/
theorem watchdog_halt_hides :
    ∃ s, Run (fun _ _ => True) wdtStep (.start Sys.boot.kernel)
        [.register (some 1) 1 none 0, .register (some 2) 1 (some 0) 0] s ∧
      (∃ c, countdown 2 s.history = some c ∧ c.Due) ∧ ¬ s.wdt.Fires 2 := by
  obtain ⟨s, hr, hc, hf⟩ := exists_run_of_exec (fun _ _ => True) wdtStep (.start Sys.boot.kernel)
    [.register (some 1) 1 none 0, .register (some 2) 1 (some 0) 0]
    (fun s => countdown 2 s.history = some ⟨1, 0, false⟩ ∧ ¬ s.wdt.Fires 2) (by decide +kernel)
  exact ⟨s, hr, ⟨_, hc, by decide⟩, hf⟩

end MiniRTOS
