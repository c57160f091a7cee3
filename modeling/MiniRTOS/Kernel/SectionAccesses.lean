import MiniRTOS.Lib.PreemptiveCpu
import MiniRTOS.Kernel.CriticalSections

/-! # Critical sections, one access at a time

The kernel calls keep their data consistent with `os_sched_enter_critical` and
`os_sched_exit_critical`, and these two keep their own consistent with nothing but the order of their
accesses: `os_port_enter_critical` reads the mask register before it closes it, `critical_nesting` and
`saved_mask` are shared by all tasks and handlers, and `os_port_exit_critical` comes last. Between any two
accesses a handler can be taken and another task can be switched in, if the mask register allows it.

* **`SectionPc`**, **`sectionAct`** — the accesses of the two functions in both ports.
* **`enter_accesses`**, **`exit_accesses`** — with nobody in between they are one step of the lock.
* **`SectionRel`** — where the running party is, and what the shared variables hold then.
* **`sections_exclude`** — in every interleaving of tasks and handlers, at most one party is inside, and
  interrupts are masked exactly while it is.
* **`section_in_one_piece`** — from the access that closes interrupts to the one that opens them nobody
  else runs. -/

namespace MiniRTOS

open BracketedCode MaskNesting PreemptiveCpu Runs

variable {b : Bool} {m : Sections Nat} {d : Nat}

/-! ## The accesses (`scheduler.c`, `port.c`) -/

/-- **Where a party is**; `d` is the number of other sections that it has open, and `v` is what it has
read from the mask register or from `critical_nesting`. -/
inductive SectionPc
  /-- In its own code. -/
  | code (d : Nat)
  /-- `os_port_enter_critical`: the read of the mask register. -/
  | enterRead (d : Nat)
  /-- Its write. -/
  | enterMask (d v : Nat)
  /-- `if (critical_nesting < CRITICAL_NESTING_MAX)`. -/
  | enterTest (d v : Nat)
  /-- `saved_mask[critical_nesting] = mask`. -/
  | enterSave (d v : Nat)
  /-- `critical_nesting++`: the load. -/
  | enterLoad (d : Nat)
  /-- The store. -/
  | enterStore (d v : Nat)
  /-- `if (critical_nesting > 0)`. -/
  | exitTest (d : Nat)
  /-- `critical_nesting--`: the load. -/
  | exitLoad (d : Nat)
  /-- The store. -/
  | exitStore (d v : Nat)
  /-- `if (critical_nesting == 0)`. -/
  | exitCheck (d : Nat)
  /-- `os_port_exit_critical(saved_mask[0])`. -/
  | exitRestore (d : Nat)
  deriving DecidableEq

/-- What a party does next: it calls `os_sched_enter_critical` or `os_sched_exit_critical`, or makes the
next access of the function that it is in. -/
inductive SectionAct
  | enter | exit | next
  deriving DecidableEq, Repr

/-- **One access**, on 32-bit words. A party exits only sections that it has entered, and with
`2 ^ 32 - 1` of them open it enters no other. -/
def sectionAct (b : Bool) (m : Sections Nat) : SectionPc → SectionAct → Option (Sections Nat × SectionPc)
  | .code d, .enter => if d + 1 < 2 ^ 32 then some (m, .enterRead d) else none
  | .code (d + 1), .exit => some (m, .exitTest d)
  | .enterRead d, .next => some (m, .enterMask d m.mask)
  | .enterMask d v, .next => some ({ m with mask := portMask b }, .enterTest d v)
  | .enterTest d v, .next =>
      some (m, if m.nesting < criticalNestingMax then .enterSave d v else .enterLoad d)
  | .enterSave d v, .next => some ({ m with saved := Function.update m.saved m.nesting v }, .enterLoad d)
  | .enterLoad d, .next => some (m, .enterStore d m.nesting)
  | .enterStore d v, .next => some ({ m with nesting := (v + 1) % 2 ^ 32 }, .code (d + 1))
  | .exitTest d, .next => some (m, if m.nesting > 0 then .exitLoad d else .code d)
  | .exitLoad d, .next => some (m, .exitStore d m.nesting)
  | .exitStore d v, .next => some ({ m with nesting := (v + (2 ^ 32 - 1)) % 2 ^ 32 }, .exitCheck d)
  | .exitCheck d, .next => some (m, if m.nesting = 0 then .exitRestore d else .code d)
  | .exitRestore d, .next => some ({ m with mask := m.saved 0 }, .code d)
  | _, _ => none

/-- Several accesses of one party, with nobody in between. -/
def sectionActs (b : Bool) : Sections Nat × SectionPc → List SectionAct → Option (Sections Nat × SectionPc)
  | r, [] => some r
  | r, a :: as => (sectionAct b r.1 r.2 a).bind fun r' => sectionActs b r' as

/-- A first access and the rest. -/
theorem sectionActs_cons {r r₁ r' : Sections Nat × SectionPc} {a : SectionAct} {as : List SectionAct}
    (h : sectionAct b r.1 r.2 a = some r₁) (hs : sectionActs b r₁ as = some r') :
    sectionActs b r (a :: as) = some r' := by
  rw [sectionActs, h]
  exact hs

/-- **`os_sched_enter_critical` in one piece** enters a section. -/
theorem enter_accesses (b : Bool) (m : Sections Nat) (hd : d + 1 < 2 ^ 32) :
    ∃ n, sectionActs b (m, .code d) (.enter :: List.replicate n .next)
      = some ((criticalLock b).step m .enter, .code (d + 1)) := by
  have henter : sectionAct b m (.code d) .enter = some (m, .enterRead d) := if_pos hd
  by_cases hsave : m.nesting < criticalNestingMax
  · have hstep : (criticalLock b).step m .enter
        = ⟨(m.nesting + 1) % 2 ^ 32, Function.update m.saved m.nesting m.mask, portMask b⟩ :=
      congrArg (fun f => Sections.mk _ f _) (if_pos hsave)
    have htest : sectionAct b ⟨m.nesting, m.saved, portMask b⟩ (.enterTest d m.mask) .next
        = some (⟨m.nesting, m.saved, portMask b⟩, .enterSave d m.mask) :=
      congrArg (fun pc => some (_, pc)) (if_pos hsave)
    rw [hstep]
    refine ⟨6, sectionActs_cons henter (sectionActs_cons rfl (sectionActs_cons rfl ?_))⟩
    exact sectionActs_cons htest (sectionActs_cons rfl (sectionActs_cons rfl (sectionActs_cons rfl rfl)))
  · have hstep : (criticalLock b).step m .enter = ⟨(m.nesting + 1) % 2 ^ 32, m.saved, portMask b⟩ :=
      congrArg (fun f => Sections.mk _ f _) (if_neg hsave)
    have htest : sectionAct b ⟨m.nesting, m.saved, portMask b⟩ (.enterTest d m.mask) .next
        = some (⟨m.nesting, m.saved, portMask b⟩, .enterLoad d) :=
      congrArg (fun pc => some (_, pc)) (if_neg hsave)
    rw [hstep]
    refine ⟨5, sectionActs_cons henter (sectionActs_cons rfl (sectionActs_cons rfl ?_))⟩
    exact sectionActs_cons htest (sectionActs_cons rfl (sectionActs_cons rfl rfl))

/-- The store of `critical_nesting--`. -/
theorem sectionAct_exitStore (b : Bool) (m : Sections Nat) {n : Nat} (hn : n + 1 < 2 ^ 32) (d : Nat) :
    sectionAct b m (.exitStore d (n + 1)) .next = some ({ m with nesting := n }, .exitCheck d) := by
  have hmod : (n + 1 + (2 ^ 32 - 1)) % 2 ^ 32 = n := by omega
  simp only [sectionAct, hmod]

/-- **`os_sched_exit_critical` in one piece** exits one. -/
theorem exit_accesses (b : Bool) {m : Sections Nat} (hm : m.nesting < 2 ^ 32) (d : Nat) :
    ∃ n, sectionActs b (m, .code (d + 1)) (.exit :: List.replicate n .next)
      = some ((criticalLock b).step m .exit, .code d) := by
  obtain ⟨nesting, saved, mask⟩ := m
  cases nesting with
  | zero => exact ⟨1, sectionActs_cons rfl (sectionActs_cons rfl rfl)⟩
  | succ n =>
      have hstore := sectionAct_exitStore b ⟨n + 1, saved, mask⟩ hm d
      cases n with
      | zero =>
          refine ⟨5, sectionActs_cons rfl (sectionActs_cons rfl (sectionActs_cons rfl ?_))⟩
          exact sectionActs_cons hstore (sectionActs_cons rfl (sectionActs_cons rfl rfl))
      | succ n =>
          refine ⟨4, sectionActs_cons rfl (sectionActs_cons rfl (sectionActs_cons rfl ?_))⟩
          exact sectionActs_cons hstore (sectionActs_cons rfl rfl)

/-! ## Who is inside -/

/-- The party has closed the mask register and not restored it yet. -/
def SectionPc.inside : SectionPc → Bool
  | .code d | .enterRead d | .enterMask d _ => decide (0 < d)
  | _ => true

/-- **Where a party can be left**: outside; and what it has read from the mask register says that
interrupts are open. -/
def SectionPc.Parked (pc : SectionPc) : Prop := pc = .code 0 ∨ pc = .enterRead 0 ∨ pc = .enterMask 0 0

/-- Who is switched out is outside. -/
theorem SectionPc.Parked.outside {pc : SectionPc} (h : pc.Parked) : pc.inside = false := by
  rcases h with rfl | rfl | rfl <;> rfl

/-- `n` sections are counted, interrupts are masked, and they were open before the outermost one. -/
structure Holding (b : Bool) (m : Sections Nat) (n : Nat) : Prop where
  /-- `critical_nesting` is the number of sections. -/
  nesting : m.nesting = n
  /-- The mask is closed. -/
  mask : m.mask = portMask b
  /-- The saved mask is the open one. -/
  saved : m.saved 0 = 0

/-- What the shared variables hold for a party with `d` sections open that is at rest. -/
def Resting (b : Bool) (m : Sections Nat) : Nat → Prop
  | 0 => m.nesting = 0 ∧ m.mask = 0
  | d + 1 => Holding b m (d + 1) ∧ d + 1 < 2 ^ 32

/-- **What they hold for the running party**, wherever it is. -/
def SectionRel (b : Bool) (m : Sections Nat) : SectionPc → Prop
  | .code d => Resting b m d
  | .enterRead d => Resting b m d ∧ d + 1 < 2 ^ 32
  | .enterMask d v => Resting b m d ∧ d + 1 < 2 ^ 32 ∧ (d = 0 → v = 0)
  | .enterTest d v | .enterSave d v =>
      (m.nesting = d ∧ m.mask = portMask b) ∧ d + 1 < 2 ^ 32 ∧ if d = 0 then v = 0 else m.saved 0 = 0
  | .enterLoad d => Holding b m d ∧ d + 1 < 2 ^ 32
  | .enterStore d v => Holding b m d ∧ d + 1 < 2 ^ 32 ∧ v = d
  | .exitTest d | .exitLoad d => Holding b m (d + 1) ∧ d + 1 < 2 ^ 32
  | .exitStore d v => Holding b m (d + 1) ∧ d + 1 < 2 ^ 32 ∧ v = d + 1
  | .exitCheck d => Holding b m d ∧ d + 1 < 2 ^ 32
  | .exitRestore d => Holding b m d ∧ d = 0

/-- The closed mask is not zero. -/
theorem portMask_ne_zero (b : Bool) : portMask b ≠ 0 := by
  cases b <;> decide

namespace SectionRel

variable {pc : SectionPc}

/-- The mask register tells whether the running party is inside. -/
theorem mask_eq (h : SectionRel b m pc) : m.mask = if pc.inside then portMask b else 0 := by
  cases pc with
  | code d =>
      cases d with
      | zero => exact h.2
      | succ d => exact h.1.mask
  | enterRead d | enterMask d v =>
      cases d with
      | zero => exact h.1.2
      | succ d => exact h.1.1.mask
  | enterTest d v | enterSave d v => exact h.1.2
  | enterLoad d | enterStore d v | exitTest d | exitLoad d | exitStore d v | exitCheck d
  | exitRestore d => exact h.1.mask

/-- Interrupts are open exactly outside. -/
theorem mask_eq_zero_iff (h : SectionRel b m pc) : m.mask = 0 ↔ pc.inside = false := by
  rw [h.mask_eq]
  cases pc.inside <;> simp [portMask_ne_zero b]

/-- A party that can be interrupted is parked. -/
theorem park (h : SectionRel b m pc) (hm : m.mask = 0) : pc.Parked := by
  have hout := h.mask_eq_zero_iff.mp hm
  cases pc with
  | code d =>
      obtain rfl : d = 0 := by simpa [SectionPc.inside] using hout
      exact Or.inl rfl
  | enterRead d =>
      obtain rfl : d = 0 := by simpa [SectionPc.inside] using hout
      exact Or.inr (Or.inl rfl)
  | enterMask d v =>
      obtain rfl : d = 0 := by simpa [SectionPc.inside] using hout
      obtain rfl : v = 0 := h.2.2 rfl
      exact Or.inr (Or.inr rfl)
  | _ => cases hout

/-- Where interrupts are open, nothing is counted. -/
theorem nesting_eq_zero (h : SectionRel b m pc) (hm : m.mask = 0) : m.nesting = 0 := by
  rcases h.park hm with rfl | rfl | rfl
  · exact h.1
  · exact h.1.1
  · exact h.1.1

/-- A parked party can go on. -/
theorem of_parked (hp : pc.Parked) (hn : m.nesting = 0) (hm : m.mask = 0) : SectionRel b m pc := by
  rcases hp with rfl | rfl | rfl
  · exact ⟨hn, hm⟩
  · exact ⟨⟨hn, hm⟩, by decide⟩
  · exact ⟨⟨hn, hm⟩, by decide, fun _ => rfl⟩

/-- **The next access** of the function that the running party is in. -/
theorem next {r : Sections Nat × SectionPc} (h : SectionRel b m pc)
    (hs : sectionAct b m pc .next = some r) : SectionRel b r.1 r.2 := by
  cases pc with
  | code d => cases d <;> cases hs
  | enterRead d =>
      obtain rfl := Option.some.inj hs
      refine ⟨h.1, h.2, ?_⟩
      rintro rfl
      exact h.1.2
  | enterMask d v =>
      obtain rfl := Option.some.inj hs
      obtain ⟨hrest, hd, hv⟩ := h
      cases d with
      | zero =>
          refine ⟨⟨hrest.1, rfl⟩, hd, ?_⟩
          rw [if_pos rfl]
          exact hv rfl
      | succ d =>
          refine ⟨⟨hrest.1.nesting, rfl⟩, hd, ?_⟩
          rw [if_neg (Nat.succ_ne_zero d)]
          exact hrest.1.saved
  | enterTest d v =>
      obtain rfl := Option.some.inj hs
      obtain ⟨⟨hn, hm⟩, hd, hv⟩ := h
      show SectionRel b m (if m.nesting < criticalNestingMax then .enterSave d v else .enterLoad d)
      by_cases hsave : m.nesting < criticalNestingMax
      · rw [if_pos hsave]
        exact ⟨⟨hn, hm⟩, hd, hv⟩
      · -- the first sections have a slot, so this is an inner one
        rw [if_neg hsave]
        have hpos : d ≠ 0 := fun hz => hsave (by rw [hn, hz]; decide)
        rw [if_neg hpos] at hv
        exact ⟨⟨hn, hm, hv⟩, hd⟩
  | enterSave d v =>
      obtain rfl := Option.some.inj hs
      obtain ⟨⟨hn, hm⟩, hd, hv⟩ := h
      refine ⟨⟨hn, hm, ?_⟩, hd⟩
      show Function.update m.saved m.nesting v 0 = 0
      rw [hn]
      by_cases hz : d = 0
      · rw [if_pos hz] at hv
        rw [hz, Function.update_self, hv]
      · rw [if_neg hz] at hv
        rw [Function.update_of_ne (Ne.symm hz), hv]
  | enterLoad d =>
      obtain rfl := Option.some.inj hs
      exact ⟨h.1, h.2, h.1.nesting⟩
  | enterStore d v =>
      obtain rfl := Option.some.inj hs
      obtain ⟨hh, hd, rfl⟩ := h
      exact ⟨⟨Nat.mod_eq_of_lt hd, hh.mask, hh.saved⟩, hd⟩
  | exitTest d =>
      obtain rfl := Option.some.inj hs
      have hpos : m.nesting > 0 := by
        rw [h.1.nesting]
        exact Nat.succ_pos d
      show SectionRel b m (if m.nesting > 0 then .exitLoad d else .code d)
      rw [if_pos hpos]
      exact h
  | exitLoad d =>
      obtain rfl := Option.some.inj hs
      exact ⟨h.1, h.2, h.1.nesting⟩
  | exitStore d v =>
      obtain ⟨hh, hd, rfl⟩ := h
      rw [sectionAct_exitStore b m hd d] at hs
      obtain rfl := Option.some.inj hs
      exact ⟨⟨rfl, hh.mask, hh.saved⟩, hd⟩
  | exitCheck d =>
      obtain rfl := Option.some.inj hs
      obtain ⟨hh, hd⟩ := h
      show SectionRel b m (if m.nesting = 0 then .exitRestore d else .code d)
      rw [hh.nesting]
      cases d with
      | zero =>
          rw [if_pos rfl]
          exact ⟨hh, rfl⟩
      | succ d =>
          rw [if_neg (Nat.succ_ne_zero d)]
          exact ⟨hh, Nat.lt_of_succ_lt hd⟩
  | exitRestore d =>
      obtain rfl := Option.some.inj hs
      obtain ⟨hh, rfl⟩ := h
      exact ⟨hh.nesting, hh.saved⟩

/-- **One action** of the running party. -/
theorem act {a : SectionAct} {r : Sections Nat × SectionPc} (h : SectionRel b m pc)
    (hs : sectionAct b m pc a = some r) : SectionRel b r.1 r.2 := by
  cases a with
  | next => exact h.next hs
  | enter =>
      cases pc with
      | code d =>
          have hs : (if d + 1 < 2 ^ 32 then some (m, SectionPc.enterRead d) else none) = some r := hs
          split at hs
          · next hd =>
              obtain rfl := Option.some.inj hs
              exact ⟨h, hd⟩
          · cases hs
      | _ => cases hs
  | exit =>
      cases pc with
      | code d =>
          cases d with
          | zero => cases hs
          | succ d =>
              obtain rfl := Option.some.inj hs
              exact h
      | _ => cases hs

end SectionRel

/-! ## Everybody -/

/-- **The code of tasks and handlers**: any sequence of sections, up to `2^32 - 1` of them open at a time,
which is as far as `critical_nesting` counts. A handler starts and returns outside. Interrupts are open
when the mask register is zero; with BASEPRI it never masks the handlers above the threshold, and these
make no kernel calls. -/
def sectionCode (b : Bool) : Code (Sections Nat) SectionPc SectionAct where
  act := sectionAct b
  entry := .code 0
  finished pc := pc = .code 0
  opened m := m.mask = 0

/-- Whether a handler may return can be decided. -/
instance (b : Bool) : DecidablePred (sectionCode b).finished := fun pc =>
  inferInstanceAs (Decidable (pc = .code 0))

/-- Whether interrupts are open can be decided. -/
instance (b : Bool) : DecidablePred (sectionCode b).opened := fun m =>
  inferInstanceAs (Decidable (m.mask = 0))

/-- Every access keeps the relation, and so do switches and handlers. -/
theorem sectionRule (b : Bool) : Rule (sectionCode b) (SectionRel b) SectionPc.Parked where
  act _ _ _ _ h hs := h.act hs
  park _ _ h hm := h.park hm
  resume _ _ _ h hm hq := .of_parked hq (h.nesting_eq_zero hm) hm
  entry := Or.inl rfl
  finished _ _ h hf := by
    obtain rfl := hf
    exact h.2

/-- The start: no section is open, and every task is in its own code. -/
def sectionStart (c : TaskId) : State (Sections Nat) SectionPc TaskId :=
  ⟨⟨0, fun _ => 0, 0⟩, [], fun _ => .code 0, c⟩

/-- The invariant in every state reached. -/
theorem sectionInv_of_run {c : TaskId} {os : List (PreemptiveCpu.Op TaskId SectionAct)}
    {s : State (Sections Nat) SectionPc TaskId}
    (hr : Run (Permits (sectionCode b)) (PreemptiveCpu.step (sectionCode b)) (sectionStart c) os s) :
    Inv (SectionRel b) SectionPc.Parked s := by
  have hinit : Inv (SectionRel b) SectionPc.Parked (sectionStart c) :=
    ⟨⟨rfl, rfl⟩, fun _ h => absurd h List.not_mem_nil, fun _ _ => Or.inl rfl⟩
  exact hinit.run (sectionRule b) hr

/-- **Critical sections exclude each other.** Tasks and nested handlers enter and exit sections, up to
`2^32 - 1` of them open at a time, in both ports, with switches and further handlers between any two
accesses that leave interrupts open. In every state reached, whoever does not run is outside; interrupts
are masked, so that nobody else can run, exactly as long as the running party is inside; and in its own
code `critical_nesting` is the number of sections that it has open. -/
theorem sections_exclude {c : TaskId} {os : List (PreemptiveCpu.Op TaskId SectionAct)}
    {s : State (Sections Nat) SectionPc TaskId}
    (hr : Run (Permits (sectionCode b)) (PreemptiveCpu.step (sectionCode b)) (sectionStart c) os s) :
    (∀ pc ∈ s.handlers.tail, pc.inside = false) ∧
      (∀ t, s.handlers ≠ [] ∨ t ≠ s.current → (s.tasks t).inside = false) ∧
      s.shared.mask = (if s.running.inside then portMask b else 0) ∧
      ∀ d, s.running = .code d → s.shared.nesting = d := by
  have h := sectionInv_of_run hr
  refine ⟨fun pc hpc => (h.handlers pc hpc).outside, fun t ht => (h.tasks t ht).outside,
    h.running.mask_eq, fun d hd => ?_⟩
  have hrun := h.running
  rw [hd] at hrun
  cases d with
  | zero => exact hrun.1
  | succ d => exact hrun.1.nesting

/-- A task is interrupted between its read of the mask register and its write; the handler opens and
closes a section of its own and is interrupted in turn, another task is switched in, and then the first
one goes on into its section. -/
def sectionTrace : List (PreemptiveCpu.Op TaskId SectionAct) :=
  [.act .enter, .act .next, .preempt, .act .enter, .preempt, .ret] ++
    List.replicate 6 (.act .next) ++ [.act .exit] ++ List.replicate 5 (.act .next) ++
    [.ret, .switch 0x200, .act .enter, .act .next, .switch 0x100] ++ List.replicate 5 (.act .next)

/-- The interrupted task is in its section, and the other one is still ahead of its own. -/
theorem sections_exclude_sectionTrace : ∃ s,
    Run (Permits (sectionCode false)) (PreemptiveCpu.step (sectionCode false)) (sectionStart 0x100)
      sectionTrace s ∧ s.running = .code 1 ∧ s.shared.nesting = 1 ∧ s.shared.mask = 1 ∧
      s.tasks 0x200 = .enterMask 0 0 := by
  obtain ⟨s, hr, hrun, hother⟩ := exists_run_of_exec (Permits (sectionCode false))
    (PreemptiveCpu.step (sectionCode false)) (sectionStart 0x100) sectionTrace
    (fun s => s.running = .code 1 ∧ s.tasks 0x200 = .enterMask 0 0) (by decide)
  obtain ⟨-, -, hmask, hnesting⟩ := sections_exclude hr
  rw [hrun] at hmask
  exact ⟨s, hr, hrun, hnesting 1 hrun, hmask, hother⟩

/-- **A critical section is made in one piece.** When the running party has closed interrupts, whatever
happens from then on begins with its own accesses, and they go on until it is outside or the run ends;
meanwhile every other task and every handler below is where it was, and nothing is switched in. -/
theorem section_in_one_piece {c : TaskId} {os os' : List (PreemptiveCpu.Op TaskId SectionAct)}
    {s s' : State (Sections Nat) SectionPc TaskId}
    (hr : Run (Permits (sectionCode b)) (PreemptiveCpu.step (sectionCode b)) (sectionStart c) os s)
    (hin : s.running.inside = true)
    (hr' : Run (Permits (sectionCode b)) (PreemptiveCpu.step (sectionCode b)) s os' s') :
    ∃ (as : List SectionAct) (rest : List (PreemptiveCpu.Op TaskId SectionAct))
      (s₁ : State (Sections Nat) SectionPc TaskId), os' = as.map PreemptiveCpu.Op.act ++ rest ∧
      Run (Permits (sectionCode b)) (PreemptiveCpu.step (sectionCode b)) s
        (as.map PreemptiveCpu.Op.act) s₁ ∧
      Run (Permits (sectionCode b)) (PreemptiveCpu.step (sectionCode b)) s₁ rest s' ∧
      s.SameOthers s₁ ∧ (rest = [] ∨ s₁.running.inside = false) := by
  have h := sectionInv_of_run hr
  have hclosed : ¬ (sectionCode b).opened s.shared := fun hopen => by
    have hout := h.running.mask_eq_zero_iff.mp hopen
    rw [hin] at hout
    cases hout
  obtain ⟨as, rest, s₁, hos, hrun, hrest, hsame, hend⟩ := h.alone (sectionRule b) hclosed hr'
  have h₁ := sectionInv_of_run (hr.append hrun)
  exact ⟨as, rest, s₁, hos, hrun, hrest, hsame, hend.imp_right h₁.running.mask_eq_zero_iff.mp⟩

/-- The first task exits its section, and then the other one is switched in. -/
def sectionExitTrace : List (PreemptiveCpu.Op TaskId SectionAct) :=
  [.act .exit] ++ List.replicate 5 (.act .next) ++ [.switch 0x200]

/-- From there the first task goes on alone until it is outside. -/
theorem section_in_one_piece_sectionExitTrace : ∃ s,
    Run (Permits (sectionCode false)) (PreemptiveCpu.step (sectionCode false)) (sectionStart 0x100)
      sectionTrace s ∧
    ∃ (as : List SectionAct) (rest : List (PreemptiveCpu.Op TaskId SectionAct))
      (s₁ : State (Sections Nat) SectionPc TaskId),
      sectionExitTrace = as.map PreemptiveCpu.Op.act ++ rest ∧
      s₁.current = 0x100 ∧ s₁.tasks 0x200 = .enterMask 0 0 ∧ s₁.running.inside = false := by
  obtain ⟨s, hr, hrun, hother, hcur, hexec⟩ := exists_run_of_exec (Permits (sectionCode false))
    (PreemptiveCpu.step (sectionCode false)) (sectionStart 0x100) sectionTrace
    (fun s => s.running = .code 1 ∧ s.tasks 0x200 = .enterMask 0 0 ∧ s.current = 0x100 ∧
      (exec (Permits (sectionCode false)) (PreemptiveCpu.step (sectionCode false)) s
        sectionExitTrace).isSome = true) (by decide +kernel)
  obtain ⟨s', hs'⟩ := Option.isSome_iff_exists.mp hexec
  have hin : s.running.inside = true := by rw [hrun]; rfl
  obtain ⟨as, rest, s₁, hos, -, -, hsame, hend⟩ :=
    section_in_one_piece hr hin (run_of_exec hs')
  have hne : (0x200 : TaskId) ≠ s.current := by rw [hcur]; decide
  refine ⟨s, hr, as, rest, s₁, hos, hsame.current.trans hcur,
    (hsame.tasks 0x200 (Or.inr hne)).trans hother, hend.resolve_left ?_⟩
  -- the trace ends with a switch, which is no access
  rintro rfl
  have hswitch : PreemptiveCpu.Op.switch 0x200 ∈ as.map PreemptiveCpu.Op.act := by
    rw [List.append_nil] at hos
    rw [← hos]
    exact List.mem_append_right _ (List.mem_singleton_self _)
  obtain ⟨a, -, ha⟩ := List.mem_map.mp hswitch
  cases ha

end MiniRTOS
