import MiniRTOS.Kernel.State
import MiniRTOS.Lib.IndexedWalk
import MiniRTOS.Lib.Runs

/-! # Tick hooks and idle hooks

`kernel.c` and `task.c` each keep a table of function pointers: `os_kernel_tick_increment` and the idle
task call the hooks of theirs by index, outside critical sections, and a hook may register and
unregister hooks itself. Unregistering moves the later entries down.

* **`HookTable`**, **`registerHook`**, **`unregisterHook`** — the array with its count, and the loops of
  the four calls.
* **`HookTable.Holds`** — the array holds a list of distinct hooks, and null pointers behind it.
* **`hookCalls_simulate`** — along every sequence of calls the array behaves as such a list.
* **`hooks_called_once`** — the hooks called in one pass are the table as it is afterwards, if no hook
  unregisters itself or one that has been called.
* **`hooks_called_but_next`** — a hook that unregisters itself costs the next one its call. -/

namespace MiniRTOS

open IndexedWalk

variable {max : Nat} {T T' : HookTable} {l : List Addr} {h : Addr}

/-! ## The tables (`kernel.c`, `task.c`) -/

/-- `OS_CONFIG_MAX_TICK_HOOKS`. -/
def maxTickHooks : Nat := 4

/-- `OS_CONFIG_MAX_IDLE_HOOKS`. -/
def maxIdleHooks : Nat := 4

/-- `tick_hooks` with `tick_hook_count`, or `idle_hooks` with `idle_hook_count`. -/
structure HookTable where
  /-- The function pointers. -/
  slots : Nat → Option Addr
  /-- How many slots are in use. -/
  count : Nat

/-- The zero-initialised table, as `os_task_init_ready_list` leaves the idle hooks, too. -/
def HookTable.empty : HookTable := ⟨fun _ => none, 0⟩

/-- The loop that looks for a hook, over `n` slots from `i` on. -/
def HookTable.find (T : HookTable) (hook : Addr) : Nat → Nat → Option Nat
  | 0, _ => none
  | n + 1, i => if T.slots i = some hook then some i else T.find hook n (i + 1)

/-- The loop that moves entries down, `n` of them into the slots from `j` on. -/
def moveDown : Nat → Nat → (Nat → Option Addr) → Nat → Option Addr
  | 0, _, slots => slots
  | n + 1, j, slots => moveDown n (j + 1) (Function.update slots j (slots (j + 1)))

/-- The body of the two calls that register; the full table is noticed first. -/
def registerHook (max : Nat) (T : HookTable) : Option Addr → Status × HookTable
  | none => (.errParam, T)
  | some hook =>
      if T.count ≥ max then (.errFull, T)
      else if (T.find hook T.count 0).isSome then (.errState, T)
      else (.ok, ⟨Function.update T.slots T.count (some hook), T.count + 1⟩)

/-- The body of the two calls that unregister. -/
def unregisterHook (T : HookTable) : Option Addr → Status × HookTable
  | none => (.errParam, T)
  | some hook =>
      match T.find hook T.count 0 with
      | none => (.errParam, T)
      | some i =>
          let slots := moveDown (T.count - 1 - i) i T.slots
          let count := T.count - 1
          (.ok, ⟨Function.update slots count none, count⟩)

/-- `os_kernel_register_tick_hook`. -/
def osKernelRegisterTickHook : HookTable → Option Addr → Status × HookTable := registerHook maxTickHooks

/-- `os_kernel_unregister_tick_hook`. -/
def osKernelUnregisterTickHook : HookTable → Option Addr → Status × HookTable := unregisterHook

/-- `os_task_register_idle_hook`. -/
def osTaskRegisterIdleHook : HookTable → Option Addr → Status × HookTable := registerHook maxIdleHooks

/-- `os_task_unregister_idle_hook`. -/
def osTaskUnregisterIdleHook : HookTable → Option Addr → Status × HookTable := unregisterHook

/-- A call on the table. -/
inductive HookCall
  /-- The register function of the table. -/
  | register (hook : Option Addr)
  /-- The unregister function of the table. -/
  | unregister (hook : Option Addr)
  deriving DecidableEq, Repr

/-- The call on the table. -/
def HookCall.run (max : Nat) (T : HookTable) : HookCall → Status × HookTable
  | .register hook => registerHook max T hook
  | .unregister hook => unregisterHook T hook

/-- Calls in order, with their answers. -/
def HookTable.runCalls (max : Nat) : HookTable → List HookCall → List Status × HookTable
  | T, [] => ([], T)
  | T, c :: cs =>
      let r := c.run max T
      let rest := HookTable.runCalls max r.2 cs
      (r.1 :: rest.1, rest.2)

/-- What the hooks call: given those called before in this pass, oldest first, and the hook. -/
abbrev HookBodies := List Addr → Addr → List HookCall

/-- The loop of `os_kernel_tick_increment` and of the idle task over the hooks, from index `i` on, with
those that it has called. -/
def callHooks (max : Nat) (bodies : HookBodies) :
    Nat → Nat → List Addr → HookTable → Option (List Addr × HookTable)
  | 0, i, called, T => if i < T.count then none else some (called, T)
  | n + 1, i, called, T =>
      if i < T.count then
        match T.slots i with
        | none => callHooks max bodies n (i + 1) called T
        | some h => callHooks max bodies n (i + 1) (called ++ [h]) (T.runCalls max (bodies called h)).2
      else some (called, T)

/-! ## The table as a list -/

/-- **What a call does to a list of hooks.** -/
def HookCall.onList (max : Nat) (l : List Addr) : HookCall → Status × List Addr
  | .register none | .unregister none => (.errParam, l)
  | .register (some h) =>
      if max ≤ l.length then (.errFull, l) else if h ∈ l then (.errState, l) else (.ok, l ++ [h])
  | .unregister (some h) => if h ∈ l then (.ok, l.erase h) else (.errParam, l)

/-- Calls in order, with their answers. -/
def callsOnList (max : Nat) : List Addr → List HookCall → List Status × List Addr
  | l, [] => ([], l)
  | l, c :: cs =>
      let r := c.onList max l
      let rest := callsOnList max r.2 cs
      (r.1 :: rest.1, rest.2)

/-- A list of distinct hooks that fits. -/
structure HookList (max : Nat) (l : List Addr) : Prop where
  /-- No hook is registered twice. -/
  nodup : l.Nodup
  /-- There are not more than slots. -/
  room : l.length ≤ max

/-- **The array holds the list**, and null pointers behind it. -/
structure HookTable.Holds (max : Nat) (T : HookTable) (l : List Addr) : Prop where
  /-- The hooks. -/
  valid : HookList max l
  /-- The count. -/
  count : T.count = l.length
  /-- The slots. -/
  slots : ∀ i, T.slots i = l[i]?

/-- The empty table holds the empty list. -/
theorem HookTable.holds_empty (max : Nat) : HookTable.empty.Holds max [] :=
  ⟨⟨List.nodup_nil, Nat.zero_le _⟩, rfl, fun _ => rfl⟩

/-- A call on the list. -/
theorem HookList.onList (hl : HookList max l) (c : HookCall) : HookList max (c.onList max l).2 := by
  cases c with
  | register hook =>
      cases hook with
      | none => exact hl
      | some h =>
          simp only [HookCall.onList]
          split
          · exact hl
          · next hroom =>
              split
              · exact hl
              · next hnew =>
                  refine ⟨List.nodup_append.mpr ⟨hl.nodup, List.nodup_singleton h, ?_⟩, ?_⟩
                  · intro x hx y hy hxy
                    obtain rfl := List.mem_singleton.mp hy
                    exact hnew (hxy ▸ hx)
                  · rw [List.length_append, List.length_singleton]
                    omega
  | unregister hook =>
      cases hook with
      | none => exact hl
      | some h =>
          simp only [HookCall.onList]
          split
          · exact ⟨hl.nodup.erase h, (List.length_erase_le).trans hl.room⟩
          · exact hl

/-! ## The loops -/

/-- **The search** finds the hook where it is in the list. -/
theorem HookTable.find_spec (hs : ∀ i, T.slots i = l[i]?) (n i : Nat) (hn : i + n = l.length) :
    (T.find h n i = none ∧ h ∉ l.drop i) ∨ ∃ j, T.find h n i = some j ∧ l[j]? = some h := by
  induction n generalizing i with
  | zero =>
      refine Or.inl ⟨rfl, ?_⟩
      rw [List.drop_eq_nil_of_le (by omega)]
      exact List.not_mem_nil
  | succ n ih =>
      rw [HookTable.find]
      by_cases hi : T.slots i = some h
      · exact Or.inr ⟨i, if_pos hi, (hs i).symm.trans hi⟩
      · rw [if_neg hi]
        refine (ih (i + 1) (by omega)).imp_left fun ⟨hf, hmem⟩ => ⟨hf, ?_⟩
        have hlt : i < l.length := by omega
        rw [List.drop_eq_getElem_cons hlt, List.mem_cons]
        rintro (rfl | hmem')
        · exact hi ((hs i).trans (List.getElem?_eq_getElem hlt))
        · exact hmem hmem'

/-- **The move** shifts `n` entries down and leaves the other slots. -/
theorem moveDown_apply (n j : Nat) (slots : Nat → Option Addr) (i : Nat) :
    moveDown n j slots i = if j ≤ i ∧ i < j + n then slots (i + 1) else slots i := by
  induction n generalizing j slots with
  | zero =>
      rw [moveDown, if_neg (by omega)]
  | succ n ih =>
      rw [moveDown, ih]
      rcases lt_trichotomy i j with hij | rfl | hij
      · rw [if_neg (by omega), if_neg (by omega), Function.update_of_ne (by omega)]
      · rw [if_neg (by omega), if_pos (by omega), Function.update_self]
      · rw [Function.update_of_ne (by omega), Function.update_of_ne (by omega)]
        have hiff : (j + 1 ≤ i ∧ i < j + 1 + n) ↔ (j ≤ i ∧ i < j + (n + 1)) := by omega
        simp only [hiff]

namespace HookTable.Holds

/-- **Registering** appends. -/
theorem register (hT : T.Holds max l) (hook : Option Addr) :
    (registerHook max T hook).1 = ((HookCall.register hook).onList max l).1 ∧
      (registerHook max T hook).2.Holds max ((HookCall.register hook).onList max l).2 := by
  cases hook with
  | none => exact ⟨rfl, hT⟩
  | some h =>
      have hvalid := hT.valid.onList (.register (some h))
      simp only [registerHook, HookCall.onList, hT.count, ge_iff_le] at hvalid ⊢
      split at hvalid
      · next hfull =>
          rw [if_pos hfull, if_pos hfull]
          exact ⟨rfl, hT⟩
      · next hroom =>
          rw [if_neg hroom, if_neg hroom]
          rcases T.find_spec (h := h) hT.slots l.length 0 (Nat.zero_add _) with ⟨hf, hnew⟩ | ⟨j, hf, hj⟩
          · rw [List.drop_zero] at hnew
            rw [if_neg hnew] at hvalid ⊢
            rw [hf, if_neg (by simp)]
            refine ⟨rfl, hvalid, by simp, fun i => ?_⟩
            show Function.update T.slots l.length (some h) i = (l ++ [h])[i]?
            rw [Function.update_apply, List.getElem?_append]
            split
            · next hi => simp [hi]
            · next hi =>
                rw [hT.slots]
                split
                · rfl
                · rw [List.getElem?_eq_none (by omega), List.getElem?_eq_none (by simp; omega)]
          · have hmem : h ∈ l := List.mem_of_getElem? hj
            rw [if_pos hmem, hf, if_pos Option.isSome_some]
            exact ⟨rfl, hT⟩

/-- **Unregistering** erases. -/
theorem unregister (hT : T.Holds max l) (hook : Option Addr) :
    (unregisterHook T hook).1 = ((HookCall.unregister hook).onList max l).1 ∧
      (unregisterHook T hook).2.Holds max ((HookCall.unregister hook).onList max l).2 := by
  cases hook with
  | none => exact ⟨rfl, hT⟩
  | some h =>
      have hvalid := hT.valid.onList (.unregister (some h))
      simp only [unregisterHook, HookCall.onList, hT.count] at hvalid ⊢
      rcases T.find_spec (h := h) hT.slots l.length 0 (Nat.zero_add _) with ⟨hf, hnew⟩ | ⟨j, hf, hj⟩
      · rw [List.drop_zero] at hnew
        rw [hf, if_neg hnew]
        exact ⟨rfl, hT⟩
      · have hmem : h ∈ l := List.mem_of_getElem? hj
        obtain ⟨hlt, hget⟩ := List.getElem?_eq_some_iff.mp hj
        rw [if_pos hmem] at hvalid ⊢
        rw [hf]
        have herase : l.erase h = l.eraseIdx j := by
          rw [← hget]
          exact hT.valid.nodup.erase_getElem j hlt
        refine ⟨rfl, hvalid, (List.length_erase_of_mem hmem).symm, fun i => ?_⟩
        show Function.update (moveDown (l.length - 1 - j) j T.slots) (l.length - 1) none i = (l.erase h)[i]?
        rw [herase, List.getElem?_eraseIdx, Function.update_apply, moveDown_apply]
        split
        · next hi => rw [if_neg (by omega), List.getElem?_eq_none (by omega)]
        · next hi =>
            rcases Nat.lt_or_ge i j with hij | hij
            · rw [if_neg (by omega), if_pos hij, hT.slots]
            · rw [if_neg (by omega : ¬ i < j)]
              split
              · rw [hT.slots]
              · rw [hT.slots, List.getElem?_eq_none (by omega), List.getElem?_eq_none (by omega)]

/-- **One call.** -/
theorem call (hT : T.Holds max l) (c : HookCall) :
    (c.run max T).1 = (c.onList max l).1 ∧ (c.run max T).2.Holds max (c.onList max l).2 := by
  cases c with
  | register hook => exact hT.register hook
  | unregister hook => exact hT.unregister hook

/-- **Any number of calls.** -/
theorem runCalls (hT : T.Holds max l) (cs : List HookCall) :
    (T.runCalls max cs).1 = (callsOnList max l cs).1 ∧
      (T.runCalls max cs).2.Holds max (callsOnList max l cs).2 := by
  induction cs generalizing T l with
  | nil => exact ⟨rfl, hT⟩
  | cons c cs ih =>
      obtain ⟨hst, hnext⟩ := hT.call c
      obtain ⟨hsts, hend⟩ := ih hnext
      exact ⟨congrArg₂ List.cons hst hsts, hend⟩

end HookTable.Holds

/-- The calls on the list keep it a list of distinct hooks that fits. -/
theorem HookList.callsOnList (hl : HookList max l) (cs : List HookCall) :
    HookList max (callsOnList max l cs).2 := by
  induction cs generalizing l with
  | nil => exact hl
  | cons c cs ih => exact ih (hl.onList c)

/-- **The tables** hold distinct hooks, in the order of registration, and answer as such a list does:
along every sequence of calls from the empty table. -/
theorem hookCalls_simulate (max : Nat) (cs : List HookCall) :
    (HookTable.empty.runCalls max cs).1 = (callsOnList max [] cs).1 ∧
      (HookTable.empty.runCalls max cs).2.Holds max (callsOnList max [] cs).2 :=
  (HookTable.holds_empty max).runCalls cs

/-! ## Passes -/

/-- What a hook makes of the list. -/
def editBy (max : Nat) (bodies : HookBodies) (called : List Addr) (h : Addr) (l : List Addr) : List Addr :=
  (callsOnList max l (bodies called h)).2

/-- The pass over the array is the walk over the list. -/
theorem HookTable.Holds.callHooks {bodies : HookBodies} {n i : Nat} {called : List Addr}
    {r : List Addr × List Addr} (hT : T.Holds max l)
    (hw : walk (editBy max bodies) n i called l = some r) :
    ∃ T', MiniRTOS.callHooks max bodies n i called T = some (r.1, T') ∧ T'.Holds max r.2 := by
  induction n generalizing i called T l with
  | zero =>
      rw [walk] at hw
      rw [MiniRTOS.callHooks, hT.count]
      split at hw
      · cases hw
      · next hi =>
          obtain rfl := Option.some.inj hw
          rw [if_neg hi]
          exact ⟨T, rfl, hT⟩
  | succ n ih =>
      rw [MiniRTOS.callHooks, hT.count, hT.slots]
      cases hx : l[i]? with
      | none =>
          have hle : l.length ≤ i := List.getElem?_eq_none_iff.mp hx
          rw [walk_of_le hle] at hw
          obtain rfl := Option.some.inj hw
          rw [if_neg (Nat.not_lt.mpr hle)]
          exact ⟨T, rfl, hT⟩
      | some x =>
          obtain ⟨hlt, -⟩ := List.getElem?_eq_some_iff.mp hx
          rw [walk_succ hx] at hw
          rw [if_pos hlt]
          exact ih (hT.runCalls (bodies called x)).2 hw

/-- **A pass ends** after one call for each slot at most, whatever the hooks call. -/
theorem HookTable.Holds.pass_ends (hT : T.Holds max l) (bodies : HookBodies) :
    ∃ r T', walk (editBy max bodies) max 0 [] l = some r ∧
      MiniRTOS.callHooks max bodies max 0 [] T = some (r.1, T') ∧ T'.Holds max r.2 ∧
      r.1.length ≤ max := by
  obtain ⟨r, hr, -, hlen⟩ := walk_isSome (P := HookList max) (n := max) (i := 0)
    (fun l hl => hl.room) (fun called x l hl => hl.callsOnList (bodies called x)) hT.valid
    (Nat.le_add_left max 0)
  obtain ⟨T', hcall, hT'⟩ := hT.callHooks hr
  exact ⟨r, T', hr, hcall, hT', by simpa using hlen⟩

/-- A call that leaves the hooks up to a place in theirs. -/
theorem onList_append (max : Nat) {front : List Addr} (rest : List Addr) {c : HookCall}
    (hc : ∀ x, c = .unregister (some x) → x ∉ front) :
    ∃ rest', (c.onList max (front ++ rest)).2 = front ++ rest' := by
  match c with
  | .register none | .unregister none => exact ⟨rest, rfl⟩
  | .register (some h) =>
      simp only [HookCall.onList]
      split
      · exact ⟨rest, rfl⟩
      · split
        · exact ⟨rest, rfl⟩
        · exact ⟨rest ++ [h], List.append_assoc ..⟩
  | .unregister (some h) =>
      simp only [HookCall.onList]
      split
      · exact ⟨rest.erase h, List.erase_append_right _ (hc h rfl)⟩
      · exact ⟨rest, rfl⟩

/-- So do any number of them. -/
theorem callsOnList_append (max : Nat) {front : List Addr} (rest : List Addr) {cs : List HookCall}
    (hcs : ∀ x, .unregister (some x) ∈ cs → x ∉ front) :
    ∃ rest', (callsOnList max (front ++ rest) cs).2 = front ++ rest' := by
  induction cs generalizing rest with
  | nil => exact ⟨rest, rfl⟩
  | cons c cs ih =>
      obtain ⟨rest₁, h₁⟩ := onList_append max rest (c := c)
        fun x hx => hcs x (hx ▸ List.mem_cons_self)
      obtain ⟨rest₂, h₂⟩ := ih rest₁ fun x hx => hcs x (List.mem_cons_of_mem c hx)
      refine ⟨rest₂, ?_⟩
      rw [callsOnList, h₁]
      exact h₂

/-- **Every hook is called once.** Whatever calls have filled the table and whatever the hooks call, a
pass ends after at most one call for each slot. If no hook unregisters itself or one that has been
called before it in the pass, then the hooks called are the table as it is after the pass: each once,
in its order, those registered on the way among them. -/
theorem hooks_called_once (max : Nat) (bodies : HookBodies) (cs : List HookCall) :
    ∃ called T', callHooks max bodies max 0 [] (HookTable.empty.runCalls max cs).2 = some (called, T') ∧
      called.length ≤ max ∧
      ((∀ i h x, called[i]? = some h → .unregister (some x) ∈ bodies (called.take i) h →
        x ∉ called.take (i + 1)) → T'.Holds max called) := by
  have hT := (hookCalls_simulate max cs).2
  obtain ⟨r, T', hr, hcall, hT', hlen⟩ := hT.pass_ends bodies
  refine ⟨r.1, T', hcall, hlen, fun hspare => ?_⟩
  have hwalk : walk (editBy max bodies) max ([] : List Addr).length [] ([] ++ (callsOnList max [] cs).2)
      = some r := hr
  have hvalid : HookList max ([] ++ (callsOnList max [] cs).2) := hT.valid
  have hall : r.1 = r.2 := by
    refine visited_eq (P := HookList max) hwalk hvalid fun i x rest hx hP => ?_
    have htake : r.1.take (i + 1) = r.1.take i ++ [x] := by
      rw [List.take_add_one, hx]
      rfl
    -- the calls of `x` spare what has been called, and `x`
    obtain ⟨rest', hrest⟩ := callsOnList_append max rest fun y hy => htake ▸ hspare i x y hx hy
    have hsplit (rest : List Addr) : r.1.take i ++ x :: rest = r.1.take i ++ [x] ++ rest :=
      List.append_cons ..
    refine ⟨rest', ?_, ?_⟩
    · rw [hsplit rest, hsplit rest']
      exact hrest
    · rw [hsplit rest', ← hrest, ← hsplit rest]
      exact hP.callsOnList _
  rw [hall]
  exact hT'

/-- Two tick hooks, of which the first one registers a third: all three are called. -/
theorem hooks_called_once_registersThird :
    ∃ T', callHooks maxTickHooks (fun _ h => if h = 0x10 then [.register (some 0x30)] else [])
        maxTickHooks 0 [] (HookTable.empty.runCalls maxTickHooks
          [.register (some 0x10), .register (some 0x20)]).2 = some ([0x10, 0x20, 0x30], T') ∧
      T'.Holds maxTickHooks [0x10, 0x20, 0x30] := by
  obtain ⟨called, T', hcall, -, hholds⟩ := hooks_called_once maxTickHooks
    (fun _ h => if h = 0x10 then [.register (some 0x30)] else [])
    [.register (some 0x10), .register (some 0x20)]
  have hcalled : called = [0x10, 0x20, 0x30] := by
    have hrun : (callHooks maxTickHooks (fun _ h => if h = 0x10 then [.register (some 0x30)] else [])
        maxTickHooks 0 [] (HookTable.empty.runCalls maxTickHooks
          [.register (some 0x10), .register (some 0x20)]).2).map Prod.fst = some [0x10, 0x20, 0x30] := by
      decide
    rw [hcall] at hrun
    exact Option.some.inj hrun
  refine ⟨T', hcalled ▸ hcall, hcalled ▸ hholds fun i h x hi hmem => ?_⟩
  -- nobody unregisters anybody
  split at hmem
  · simp at hmem
  · simp at hmem

/-- The hook `x` unregisters itself, the others make no calls. -/
def unregistersItself (x : Addr) : HookBodies := fun _ h =>
  if h = x then [.unregister (some x)] else []

/-- What the calls of its hooks make of the list. -/
theorem editBy_unregistersItself (max : Nat) (x : Addr) (called : List Addr) (h : Addr) (l : List Addr) :
    editBy max (unregistersItself x) called h l = if h = x then l.erase x else l := by
  unfold editBy unregistersItself
  split
  · show (HookCall.onList max l (.unregister (some x))).2 = _
    simp only [HookCall.onList]
    split
    · rfl
    · next hx => exact (List.erase_of_not_mem hx).symm
  · rfl

/-- **A hook that unregisters itself costs the next one its call.** In every table, wherever it stands:
the hooks before it, it and the hooks behind the next one are called, and the table then holds all but
it. In the last place it costs no call. -/
theorem hooks_called_but_next {before after : List Addr} {x : Addr} {cs : List HookCall}
    (hcs : (callsOnList max [] cs).2 = before ++ x :: after) :
    ∃ T', callHooks max (unregistersItself x) max 0 [] (HookTable.empty.runCalls max cs).2
        = some (before ++ x :: after.tail, T') ∧ T'.Holds max (before ++ after) := by
  have hT := (hookCalls_simulate max cs).2
  rw [hcs] at hT
  refine hT.callHooks (visited_of_erase hT.valid.nodup (editBy_unregistersItself max x) ?_)
  have hroom := hT.valid.room
  simp only [List.length_append, List.length_cons, List.length_tail] at hroom ⊢
  omega

/-- Three tick hooks, of which the first runs once. -/
theorem hooks_called_but_next_oneShot :
    ∃ T', callHooks maxTickHooks (unregistersItself 0x10) maxTickHooks 0 []
        (HookTable.empty.runCalls maxTickHooks
          [.register (some 0x10), .register (some 0x20), .register (some 0x30)]).2
        = some ([0x10, 0x30], T') ∧ T'.Holds maxTickHooks [0x20, 0x30] :=
  @hooks_called_but_next maxTickHooks [] [0x20, 0x30] 0x10 _ (by decide)

end MiniRTOS
