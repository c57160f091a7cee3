import MiniRTOS.Kernel.SystemInv

/-! # One tick of the blocked list

The loop of `os_task_tick` takes nodes out of the list that it walks and links them into the ready lists
through the same two fields. It reads the next node before it touches one, so every delay is counted
down once, and every task whose delay ends arrives at the tail of its ready list, in list order.

* **`BlockedTick`** — what one tick does to delays, states, lists and bitmap.
* **`osTaskTick_blockedList`** — every tick does it, whatever the lists hold. -/

namespace MiniRTOS

open Runs

variable {k k' : Kernel} {L L' : Layout} {t : TaskId}

/-- The tasks of a list whose delay ends at the next tick, at one priority. -/
def Kernel.dueAt (k : Kernel) (l : List TaskId) (p : Prio) : List TaskId :=
  l.filter fun x => decide ((k.tcb x).delayTicks = 1 ∧ k.prio x = p)

/-- **One tick of `blocked_list`**, from the layout `L` to the layout `L'`. -/
structure BlockedTick (k k' : Kernel) (L L' : Layout) : Prop where
  /-- Delays of tasks in `blocked_list` are counted down; 0 stands for ever and stays. -/
  delay : ∀ x, (k'.tcb x).delayTicks
    = if x ∈ L .blocked then (k.tcb x).delayTicks - 1 else (k.tcb x).delayTicks
  /-- A task whose delay ends is READY. -/
  state : ∀ x, (k'.tcb x).state
    = if x ∈ L .blocked ∧ (k.tcb x).delayTicks = 1 then .ready else (k.tcb x).state
  /-- It goes to the tail of its ready list, in the order of `blocked_list`. -/
  ready : ∀ p, L' (.ready p) = L (.ready p) ++ k.dueAt (L .blocked) p
  /-- The other tasks stay in `blocked_list`, in order. -/
  blocked : L' .blocked = (L .blocked).filter fun x => decide ((k.tcb x).delayTicks ≠ 1)
  /-- The bitmap has the bits of the ready lists that were filled. -/
  bitmap : ∀ p : Prio, k'.readyBitmap.getLsbD p = true ↔
    k.readyBitmap.getLsbD p = true ∨ k.dueAt (L .blocked) p ≠ []
  /-- It has no others. -/
  bitmapHigh : ∀ i, numPriorities ≤ i → k'.readyBitmap.getLsbD i = false
  /-- Nobody else moves. -/
  others : ∀ P, (∀ p, P ≠ .ready p) → P ≠ .blocked → L' P = L P
  /-- No other field of a control block changes but the high-water mark. -/
  fields : ∀ x, ∃ n, k'.tcb x
    = { k.tcb x with
        delayTicks := (k'.tcb x).delayTicks, state := (k'.tcb x).state, stackHighWater := n }
  /-- Nothing is freed, and the other variables stay. -/
  rest : k'.data = { k with tcb := k'.tcb }.data

/-- The tails of the ready lists after the walk. -/
theorem tickedLayout_ready (k : Kernel) (L : Layout) (l : List TaskId) (p : Prio) :
    tickedLayout k L [] l (.ready p) = L (.ready p) ++ k.dueAt l p := by
  refine congrArg (L (.ready p) ++ ·) (List.filter_congr fun x _ => ?_)
  rw [Bool.eq_iff_iff]
  simp [Kernel.expiring]

/-- What the walk leaves in `blocked_list`. -/
theorem tickedLayout_blocked (k : Kernel) (L : Layout) (l : List TaskId) :
    tickedLayout k L [] l .blocked = l.filter fun x => decide ((k.tcb x).delayTicks ≠ 1) := by
  show [] ++ l.filter (fun x => !k.expiring x) = _
  rw [List.nil_append]
  refine List.filter_congr fun x _ => ?_
  rw [Bool.eq_iff_iff]
  simp [Kernel.expiring]

/-- A tick moves tasks between `blocked_list` and the ready lists only. -/
theorem tickedLayout_others (k : Kernel) (L : Layout) (l : List TaskId) {P : Place}
    (hr : ∀ p, P ≠ .ready p) (hb : P ≠ .blocked) : tickedLayout k L [] l P = L P := by
  cases P with
  | ready p => exact absurd rfl (hr p)
  | blocked => exact absurd rfl hb
  | wait w => rfl
  | deferred => rfl

/-- With no deferred deletion a tick frees nothing. -/
theorem Ticked.rest (ht : Ticked k k' L) (hnil : L .deferred = [])
    (hfreed : k'.freed = k.freed ++ deferredFrees k (L .deferred)) :
    k'.data = { k with tcb := k'.tcb }.data := by
  have hlive := ht.live
  rw [hnil] at hfreed hlive
  have hsame : ({ k with tcb := k'.tcb, freed := k'.freed, liveTcbs := k'.liveTcbs } : Kernel)
      = { k with tcb := k'.tcb } := by
    rw [hfreed, hlive]
    simp [deferredFrees]
  exact ht.data.trans (congrArg Kernel.data hsame)

/-- **One tick of the blocked list.** In every state with well-formed task lists, an intact canary and no
deferred deletion, `os_task_tick` returns and does to `blocked_list` what it should. -/
theorem osTaskTick_blockedList (h : TaskListInv k L) (hcan : k.canaryIntact)
    (hdef : k.deferredDeleteList = none) :
    ∃ k' L', osTaskTick k = some k' ∧ TaskListInv k' L' ∧ BlockedTick k k' L L' := by
  obtain ⟨k', hk, h', ht⟩ := h.osTaskTick hcan
  have hnil : L .deferred = [] := by
    have hhead := h.lists.head .deferred
    simp only [Kernel.listHead] at hhead
    exact List.head?_eq_none_iff.mp (hhead ▸ hdef)
  have hset : (tickedLayout k L [] (L .blocked)).set .deferred [] = tickedLayout k L [] (L .blocked) := by
    have hsame : tickedLayout k L [] (L .blocked) .deferred = [] := hnil
    rw [← hsame]
    exact Function.update_eq_self ..
  rw [hset] at h'
  obtain ⟨-, hfreed⟩ := h.osTaskTick_frees hk
  refine ⟨k', _, hk, h', ?_⟩
  constructor
  case delay => exact ht.delayTicks
  case state => exact ht.state
  case ready => exact tickedLayout_ready k L _
  case blocked => exact tickedLayout_blocked ..
  case bitmap =>
    intro p
    rw [h'.lists.bitmap p, h.lists.bitmap p, tickedLayout_ready]
    simp only [ne_eq, List.append_eq_nil_iff, not_and_or]
  case bitmapHigh => exact h'.lists.bitmapHigh
  case others => exact fun P hr hb => tickedLayout_others k L _ hr hb
  case fields => exact ht.fields
  case rest => exact ht.rest hnil hfreed

/-- Three delays and a wait without a time-out; the next tick ends two neighbouring delays. -/
def threeDelaysTrace : List Op :=
  [.create (taskAt 0x100 3), .create (taskAt 0x200 3), .create (taskAt 0x300 5),
    .create (taskAt 0x400 6), .selectNext, .delay 2, .selectNext, .delay 1, .selectNext, .delay 1,
    .selectNext, .notifyWait waitForever, .selectNext]

/-- The next tick ends two delays and leaves one task in `blocked_list`. -/
theorem osTaskTick_blockedList_threeDelays :
    ∃ s L, Run WithoutMutexes step .boot threeDelaysTrace s ∧ TaskListInv s.kernel L ∧
      s.kernel.blockedList = some 0x400 ∧
      ∃ k' L', osTaskTick s.kernel = some k' ∧ TaskListInv k' L' ∧ BlockedTick s.kernel k' L L' := by
  obtain ⟨s, hr, hblocked, hdef, hcan⟩ := exists_run_of_exec WithoutMutexes step Sys.boot
    threeDelaysTrace (fun s => s.kernel.blockedList = some 0x400 ∧ s.kernel.deferredDeleteList = none ∧
      ∀ c ∈ s.kernel.current, s.kernel.stackMem (s.kernel.tcb c).stackBase = stackCanaryValue)
    (by decide +kernel)
  obtain ⟨L, h⟩ := taskListInv_of_run Sys.boot_init hr
  exact ⟨s, L, hr, h, hblocked, osTaskTick_blockedList h hcan hdef⟩

end MiniRTOS
