import MiniRTOS.Kernel.State
import MiniRTOS.Lib.HistoryRing

/-! # The trace of `trace.c`

A ring of the last `OS_CONFIG_TRACE_DEPTH` events, each with its parameters and the tick at which it
was recorded.

* **`osTraceInit`**, **`osTraceRecord`**, **`osTraceClear`** — the calls that write.
* **`osTraceRead`**, **`osTraceIterate`** — the calls that read.
* **`Trace.Shows`** — what the ring is for: it shows the last records of a history.
* **`trace_ring`** — after every sequence of calls it shows those since the last clear. -/

namespace MiniRTOS

open HistoryRing

/-! ## Data -/

/-- `OS_CONFIG_TRACE_DEPTH`. -/
abbrev traceDepth : Nat := 32

/-- `os_trace_event_t`. Applications count up from `OS_TRACE_USER`. -/
inductive OsTraceEvent
  | taskCreate | taskDelete | taskSwitch | taskDelay | taskSuspend | taskResume
  | isrEnter | isrExit
  | queueSend | queueRecv
  | semGive | semTake
  | mutexLock | mutexUnlock
  /-- An event of the application. -/
  | user (number : Nat)
  deriving DecidableEq, Repr

/-- `os_trace_entry_t`. -/
structure OsTraceEntry where
  /-- `system_tick` when the event was recorded. -/
  timestamp : Nat
  /-- What happened. -/
  event : OsTraceEvent
  /-- First parameter. -/
  param1 : BitVec 32
  /-- Second parameter. -/
  param2 : BitVec 32
  deriving DecidableEq, Repr

/-- The file-scope variables of `trace.c`. -/
structure Trace where
  /-- `trace_buffer`. -/
  buffer : Vector OsTraceEntry traceDepth
  /-- `trace_head`, the next write position. -/
  head : Fin traceDepth
  /-- `trace_count`, the number of valid entries. -/
  count : Nat
  /-- There are no more entries than slots. -/
  count_le : count ≤ traceDepth
  /-- `trace_initialized`. -/
  initialized : Bool

/-! ## The calls -/

/-- The effect of `os_trace_record` in its critical section: `trace_buffer[trace_head]` is written and
`trace_head` moves on. -/
def Trace.put (s : Trace) (e : OsTraceEntry) : Trace where
  buffer := s.buffer.set s.head e s.head.isLt
  head := ⟨(s.head + 1) % traceDepth, Nat.mod_lt _ (by decide)⟩
  count := if s.count < traceDepth then s.count + 1 else s.count
  count_le := by
    split
    · assumption
    · exact s.count_le
  initialized := s.initialized

/-- `os_trace_record`, at a given `os_kernel_get_tick()`. -/
def osTraceRecord (tick : Nat) (event : OsTraceEvent) (param1 param2 : BitVec 32) (s : Trace) :
    Trace :=
  if s.initialized then s.put ⟨tick, event, param1, param2⟩ else s

/-- `trace_head = 0; trace_count = 0`. -/
def Trace.reset (s : Trace) : Trace :=
  { s with head := ⟨0, by decide⟩, count := 0, count_le := Nat.zero_le _ }

/-- `os_trace_init`. It records a boot event, whose parameter reads "BOOT". -/
def osTraceInit (tick : Nat) (s : Trace) : Trace :=
  osTraceRecord tick (.user 0) 0x424F4F54 0 { s.reset with initialized := true }

/-- `os_trace_clear`. -/
def osTraceClear (s : Trace) : Trace := s.reset

/-- `os_trace_get_count`. -/
def osTraceGetCount (s : Trace) : Nat := s.count

/-- `os_trace_read`: the value stored in `*entry`, or the error when nothing is stored.
`entry` says that the pointer is not `NULL`. -/
def osTraceRead (s : Trace) (index : Nat) (entry : Bool) : Except Status OsTraceEntry :=
  if h : entry = false ∨ index ≥ s.count then .error .errParam
  else
    -- oldest entry first
    if s.count < traceDepth then
      .ok (s.buffer.get ⟨index, by have := s.count_le; omega⟩)
    else
      .ok (s.buffer.get ⟨(s.head + index) % traceDepth, Nat.mod_lt _ (by decide)⟩)

/-- One turn of the loop of `os_trace_iterate`. -/
def Trace.visit {σ : Type} (visitor : OsTraceEntry → Trace × σ → Trace × σ) (w : Trace × σ)
    (i : Nat) : Trace × σ :=
  match osTraceRead w.1 i true with
  | .ok entry => visitor entry w
  | .error _ => w

/-- `os_trace_iterate`. A visitor may change what `param` points to and may itself call the trace;
the number of turns is fixed before the first one. -/
def osTraceIterate {σ : Type} (visitor : Option (OsTraceEntry → Trace × σ → Trace × σ)) (s : Trace)
    (param : σ) : Nat × Trace × σ :=
  match visitor with
  | none => (0, s, param)
  | some visitor =>
      let count := s.count
      (count, (List.range count).foldl (Trace.visit visitor) (s, param))

/-! ## What the ring shows -/

/-- **The ring shows the last records of `h`**: it is in use, its slots hold them, and head and count
are where `h` puts them. -/
structure Trace.Shows (s : Trace) (h : List OsTraceEntry) : Prop where
  /-- Records are taken. -/
  initialized : s.initialized = true
  /-- The slots. -/
  holds : Holds s.buffer h
  /-- The next slot to write. -/
  head : s.head.val = h.length % traceDepth
  /-- The number of entries. -/
  count : s.count = min h.length traceDepth

variable {s : Trace} {h : List OsTraceEntry}

/-- Recording appends to the history. -/
theorem Trace.Shows.record (hs : s.Shows h) (tick : Nat) (event : OsTraceEvent)
    (param1 param2 : BitVec 32) :
    (osTraceRecord tick event param1 param2 s).Shows (h ++ [⟨tick, event, param1, param2⟩]) := by
  unfold osTraceRecord
  rw [if_pos hs.initialized]
  constructor
  · exact hs.initialized
  · exact holds_push hs.holds s.head.isLt hs.head
  · show (s.head.val + 1) % traceDepth = _
    rw [hs.head, Nat.mod_add_mod, List.length_append, List.length_singleton]
  · show (if s.count < traceDepth then s.count + 1 else s.count) = _
    rw [hs.count, List.length_append, List.length_singleton]
    split
    · omega
    · omega

/-- A ring that has been reset shows nothing, whatever its slots hold. -/
theorem Trace.shows_reset (hi : s.initialized = true) : s.reset.Shows [] where
  initialized := hi
  holds := holds_nil _
  head := rfl
  count := rfl

/-- The boot event of `os_trace_init`. -/
def bootEntry (tick : Nat) : OsTraceEntry := ⟨tick, .user 0, 0x424F4F54, 0⟩

/-- After `os_trace_init` the ring shows the boot event, whatever it held before. -/
theorem Trace.shows_init (s : Trace) (tick : Nat) : (osTraceInit tick s).Shows [bootEntry tick] := by
  have hreset : ({ s.reset with initialized := true } : Trace).Shows [] := by
    constructor
    · rfl
    · exact holds_nil _
    · rfl
    · rfl
  exact hreset.record tick (.user 0) 0x424F4F54 0

/-! ### Reading -/

/-- **`os_trace_read`** gives the entry of that index among the last records, and fails where there is
none. -/
theorem Trace.Shows.read (hs : s.Shows h) (i : Nat) :
    osTraceRead s i true = ((recent traceDepth h)[i]?).elim (.error .errParam) .ok := by
  by_cases hi : i < s.count
  · have hlen : i < (recent traceDepth h).length := by
      rw [length_recent, ← hs.count]
      exact hi
    unfold osTraceRead
    rw [dif_neg (by simp only [Bool.true_eq_false, false_or]; omega)]
    rw [hs.count] at hi
    split
    · rename_i hpart
      have hslot := hs.holds.read_partial (by rw [hs.count] at hpart; omega) (i := i) (by omega)
      rw [← hslot, Vector.getElem?_eq_getElem]
      rfl
    · rename_i hfull
      rw [hs.count] at hfull
      have hslot := hs.holds.read_full (by omega) (i := i) (by omega)
      rw [← hs.head] at hslot
      rw [← hslot, Vector.getElem?_eq_getElem]
      rfl
  · have hlen : (recent traceDepth h).length ≤ i := by
      rw [length_recent, ← hs.count]
      omega
    rw [List.getElem?_eq_none hlen]
    unfold osTraceRead
    rw [dif_pos (.inr (by omega))]
    rfl

/-- A walk over the indices of a list visits its items in order. -/
theorem foldl_visit {σ : Type} (visitor : OsTraceEntry → σ → σ) (hs : s.Shows h) (p : σ) (n : Nat)
    (hn : n ≤ (recent traceDepth h).length) :
    (List.range n).foldl (Trace.visit fun e w => (w.1, visitor e w.2)) (s, p) =
      (s, ((recent traceDepth h).take n).foldl (fun p e => visitor e p) p) := by
  induction n with
  | zero => rfl
  | succ n ih =>
      have hlt : n < (recent traceDepth h).length := by omega
      rw [List.range_succ, List.foldl_append, ih (by omega), List.foldl_cons, List.foldl_nil]
      unfold Trace.visit
      rw [hs.read n, List.getElem?_eq_getElem hlt, List.take_succ_eq_append_getElem hlt,
        List.foldl_append]
      rfl

/-- **`os_trace_iterate`** hands the last records to a visitor, oldest first. -/
theorem Trace.Shows.iterate {σ : Type} (visitor : OsTraceEntry → σ → σ) (hs : s.Shows h) (p : σ) :
    osTraceIterate (some fun e w => (w.1, visitor e w.2)) s p =
      ((recent traceDepth h).length, s,
        (recent traceDepth h).foldl (fun p e => visitor e p) p) := by
  have hcount : s.count = (recent traceDepth h).length := by rw [hs.count, length_recent]
  show (s.count, _) = _
  rw [foldl_visit visitor hs p s.count hcount.le, hcount, List.take_length]

/-! ## Sequences of calls -/

/-- A call that writes the trace, with the tick at which it is made. -/
inductive TraceOp
  /-- `os_trace_init`. -/
  | init (tick : Nat)
  /-- `os_trace_record`. -/
  | record (tick : Nat) (event : OsTraceEvent) (param1 param2 : BitVec 32)
  /-- `os_trace_clear`. -/
  | clear

/-- The effect of a call. -/
def TraceOp.apply (s : Trace) : TraceOp → Trace
  | .init tick => osTraceInit tick s
  | .record tick event param1 param2 => osTraceRecord tick event param1 param2 s
  | .clear => osTraceClear s

/-- **The history**: the records since the last clear or init, of which the boot event of an init is the
first. -/
def TraceOp.note (h : List OsTraceEntry) : TraceOp → List OsTraceEntry
  | .init tick => [bootEntry tick]
  | .record tick event param1 param2 => h ++ [⟨tick, event, param1, param2⟩]
  | .clear => []

/-- The records since the last clear or init of a sequence of calls. -/
def TraceOp.history (h : List OsTraceEntry) (ops : List TraceOp) : List OsTraceEntry :=
  ops.foldl TraceOp.note h

/-- One call. -/
theorem Trace.Shows.apply (hs : s.Shows h) (op : TraceOp) : (op.apply s).Shows (op.note h) := by
  cases op with
  | init tick => exact s.shows_init tick
  | record tick event param1 param2 => exact hs.record tick event param1 param2
  | clear => exact Trace.shows_reset hs.initialized

/-- Every sequence of calls. -/
theorem Trace.Shows.run (hs : s.Shows h) (ops : List TraceOp) :
    (ops.foldl TraceOp.apply s).Shows (TraceOp.history h ops) := by
  induction ops generalizing s h with
  | nil => exact hs
  | cons op ops ih => exact ih (hs.apply op)

/-- **The trace ring.** After `os_trace_init`, whatever the variables held before, and every sequence of
calls, the count is the number of records since the last clear or init, at most
`OS_CONFIG_TRACE_DEPTH`; the entries below it, and only these, can be read, and are the last records,
oldest first; and a visitor is handed exactly these in this order. -/
theorem trace_ring (s₀ : Trace) (tick : Nat) (ops : List TraceOp) :
    let s := ops.foldl TraceOp.apply (osTraceInit tick s₀)
    let h := TraceOp.history [bootEntry tick] ops
    osTraceGetCount s = min h.length traceDepth ∧
      (∀ i, (∃ e, osTraceRead s i true = .ok e) ↔ i < osTraceGetCount s) ∧
      (∀ i, osTraceRead s i true = ((recent traceDepth h)[i]?).elim (.error .errParam) .ok) ∧
      ∀ (σ : Type) (visitor : OsTraceEntry → σ → σ) (param : σ),
        osTraceIterate (some fun e w => (w.1, visitor e w.2)) s param =
          (osTraceGetCount s, s, (recent traceDepth h).foldl (fun p e => visitor e p) param) := by
  intro s h
  have hs : s.Shows h := (s₀.shows_init tick).run ops
  have hcount : (recent traceDepth h).length = osTraceGetCount s := by
    rw [length_recent, ← hs.count]
    rfl
  refine ⟨hs.count, ?_, hs.read, ?_⟩
  · intro i
    rw [hs.read i, ← hcount]
    constructor
    · intro ⟨e, he⟩
      by_contra hge
      rw [List.getElem?_eq_none (by omega), Option.elim_none] at he
      exact nomatch he
    · intro hi
      rw [List.getElem?_eq_getElem hi]
      exact ⟨_, rfl⟩
  · intro σ visitor param
    rw [hs.iterate visitor param, hcount]

end MiniRTOS
