import MiniRTOS.Kernel.MutexInv
import MiniRTOS.Kernel.TaskMoves

/-! # Semaphore tokens

Tokens enter a semaphore by giving calls and leave it by taking calls, either through `count` or from
hand to hand when a give finds a waiter. `SemLedger` keeps the books of one semaphore from the results
of the calls alone: the gives and takes that returned `OS_OK`, the callers that went to sleep in a
take, and those of them that a give has woken since.

* **`SemInv`** — the books balance, the waiters are the sleepers that no give has woken, and there is
  a waiter only while `count` is zero.
* **`sem_conserved`** — so it is in every state that a run reaches after the creation of the
  semaphore.
* **`semInv_of_safeRun`** — and also when the tasks use mutexes, as long as no boosted owner releases one
  for good. -/

namespace MiniRTOS

open Runs

variable {a : Addr} {m n : Nat} {s s' : Sys} {L : Layout} {op : Op} {t c : TaskId}

/-! ## The books of one semaphore -/

/-- What the callers of one semaphore have seen since its creation. -/
structure SemLedger where
  /-- Gives that returned `OS_OK`. -/
  gives : Nat
  /-- Takes that returned `OS_OK`. -/
  takes : Nat
  /-- Callers that went to sleep in a take and have not returned from it. -/
  inside : List TaskId
  /-- Those of them that a give has woken. -/
  woken : List TaskId
  deriving DecidableEq

/-- Nothing has happened yet. -/
def SemLedger.empty : SemLedger := ⟨0, 0, [], []⟩

/-- A giving call returned, having woken `w`. -/
def SemLedger.gave (l : SemLedger) (r : Status) (w : Option TaskId) : SemLedger :=
  if r = .ok then { l with gives := l.gives + 1, woken := l.woken ++ w.toList } else l

/-- A taking call of `c` returned, or put its caller to sleep. -/
def SemLedger.took (l : SemLedger) (c : Option TaskId) : Outcome Status → SemLedger
  | .done r => if r = .ok then { l with takes := l.takes + 1 } else l
  | .blocked => { l with inside := l.inside ++ c.toList }

/-- The taking call that `c` had gone to sleep in returned. -/
def SemLedger.returned (l : SemLedger) (c : TaskId) (r : Status) : SemLedger :=
  if c ∈ l.inside then
    { l with
      takes := if r = .ok then l.takes + 1 else l.takes
      inside := l.inside.erase c
      woken := l.woken.erase c }
  else l

/-- The entry that a step makes in the books of the semaphore `a`. -/
def SemLedger.record (a : Addr) (s : Sys) (l : SemLedger) : Op → SemLedger
  | .semTake x timeout =>
      if x = a then
        match osSemTake s.kernel a timeout with
        | some (_, r) => l.took s.kernel.current r
        | none => l
      else l
  | .semTakeFromIsr x => if x = a then l.took none (.done (osSemTakeFromIsr s.kernel a).2) else l
  | .semGive x =>
      if x = a then
        match osSemGive s.kernel a with
        | some (_, r) => l.gave r (Sem.prvWakeTask s.kernel a).1
        | none => l
      else l
  | .semGiveFromIsr x =>
      if x = a then l.gave (osSemGiveFromIsr s.kernel a).2 (Sem.prvWakeTask s.kernel a).1 else l
  | .returnFromCall =>
      match s.kernel.current with
      | none => l
      | some c => if s.call c = .semTake a then l.returned c (osSemTakeResume s.kernel c) else l
  | _ => l

/-- The system together with the books of one semaphore. -/
structure SemSys where
  /-- The system. -/
  sys : Sys
  /-- The books. -/
  ledger : SemLedger

/-- One step, with its entry in the books. -/
def semStep (a : Addr) (σ : SemSys) (op : Op) : Option SemSys :=
  (step σ.sys op).map fun s => ⟨s, σ.ledger.record a σ.sys op⟩

/-- The semaphore is created anew. -/
def Op.createsSem (a : Addr) : Op → Bool
  | .semCreateCounting x .. => x = a
  | _ => false

/-- The steps of the runs below: whatever the environment may do, mutex calls and a second creation
aside. -/
def SemStep (a : Addr) (σ : SemSys) (op : Op) : Prop :=
  WithoutMutexes σ.sys op ∧ op.createsSem a = false

/-- Whether a step may take place in such a run can be decided. -/
instance (a : Addr) (σ : SemSys) (op : Op) : Decidable (SemStep a σ op) :=
  inferInstanceAs (Decidable (_ ∧ _))

/-- The system right after `os_sem_create_counting`, with empty books. -/
def SemSys.start (s : Sys) (a : Addr) (maxCount initialCount : Nat) : SemSys :=
  ⟨s.after (osSemCreateCounting s.kernel a maxCount initialCount).2, .empty⟩

/-- A binary semaphore is a counting one. -/
theorem osSemCreateBinary_eq (k : Kernel) (a : Addr) :
    osSemCreateBinary k a = osSemCreateCounting k a 1 0 := rfl

/-! ## What a step does to the books -/

/-- **The turns of one semaphore**: what a step does to its tokens, its waiters and its books. -/
inductive SemTurn (a : Addr) (s s' : Sys) (l : SemLedger) (l' : SemLedger) : Prop
  /-- Nothing happens to the semaphore. -/
  | frame (htok : s'.kernel.waits.tokens a = s.kernel.waits.tokens a)
      (hw : ∀ t, s'.kernel.WaitsOn (.sem a) t ↔ s.kernel.WaitsOn (.sem a) t) (hl : l' = l)
  /-- A take finds a token. -/
  | takes (hpos : 0 < (s.kernel.waits.tokens a).1)
      (htok : s'.kernel.waits.tokens a
        = ((s.kernel.waits.tokens a).1 - 1, (s.kernel.waits.tokens a).2))
      (hw : ∀ t, s'.kernel.WaitsOn (.sem a) t ↔ s.kernel.WaitsOn (.sem a) t)
      (hl : l' = { l with takes := l.takes + 1 })
  /-- A take finds none, and its caller goes to sleep. -/
  | sleeps (c : TaskId) (hc : c ∈ s.kernel.liveTcbs) (hidle : s.call c = .idle)
      (hin : s'.call c = .semTake a) (hto : (s'.kernel.waits.phases c).timedOut = false)
      (hzero : (s.kernel.waits.tokens a).1 = 0)
      (htok : s'.kernel.waits.tokens a = s.kernel.waits.tokens a)
      (hw : ∀ t, s'.kernel.WaitsOn (.sem a) t ↔ t = c ∨ s.kernel.WaitsOn (.sem a) t)
      (hl : l' = { l with inside := l.inside ++ [c] })
  /-- A give wakes a waiter. -/
  | handsOff (t : TaskId) (ht : s.kernel.WaitsOn (.sem a) t)
      (htok : s'.kernel.waits.tokens a = s.kernel.waits.tokens a)
      (hw : ∀ x, s'.kernel.WaitsOn (.sem a) x ↔ x ≠ t ∧ s.kernel.WaitsOn (.sem a) x)
      (hl : l' = { l with gives := l.gives + 1, woken := l.woken ++ [t] })
  /-- A give finds no waiter, and the token is counted. -/
  | counts (hnone : ∀ t, ¬ s.kernel.WaitsOn (.sem a) t)
      (hlt : (s.kernel.waits.tokens a).1 < (s.kernel.waits.tokens a).2)
      (htok : s'.kernel.waits.tokens a
        = ((s.kernel.waits.tokens a).1 + 1, (s.kernel.waits.tokens a).2))
      (hw : ∀ t, s'.kernel.WaitsOn (.sem a) t ↔ s.kernel.WaitsOn (.sem a) t)
      (hl : l' = { l with gives := l.gives + 1 })

/-- The waiters of a semaphore are the tasks of its wait list. -/
theorem TaskListInv.mem_sem_iff {k : Kernel} (h : TaskListInv k L) :
    t ∈ L (.wait (.sem a)) ↔ k.WaitsOn (.sem a) t := by
  refine h.mem_wait_iff (w := .sem a) fun u hu => ?_
  cases u <;> simp_all [WaitList.obj]

/-- Writing tokens leaves the waiters alone. -/
theorem waitsOn_setTokens {k k' : Kernel} {o : Obj} {i : Nat × Nat}
    (h : k'.waits = k.waits.setTokens a i) (t : TaskId) : k'.WaitsOn o t ↔ k.WaitsOn o t := by
  refine waitsOn_congr ?_ ?_ t
  · rw [h]
    rfl
  · rw [h]
    rfl

/-- A taking call on the semaphore. -/
theorem TakeTurn.semTurn {r : Outcome Status} {l : SemLedger} {caller : Option TaskId}
    (hturn : TakeTurn s.kernel a r s'.kernel.waits)
    (hcaller : r = .blocked → ∃ c, caller = some c ∧ s.kernel.current = some c ∧
      c ∈ s.kernel.liveTcbs ∧ s.call c = .idle ∧ s'.call c = .semTake a) :
    SemTurn a s s' l (l.took caller r) := by
  cases hturn with
  | takes hpos hr h =>
      subst hr
      refine .takes hpos ?_ (waitsOn_setTokens h) rfl
      rw [h]
      exact Function.update_self ..
  | fails hzero hr h =>
      subst hr
      refine .frame (congrFun (congrArg Waits.tokens h) a)
        (waitsOn_congr (congrArg Waits.phases h) (congrArg Waits.live h)) rfl
  | sleeps hzero hr n h =>
      subst hr
      obtain ⟨c, hcaller, hc, hlive, hidle, hin⟩ := hcaller rfl
      rw [hc] at h
      refine .sleeps c hlive hidle hin ?_ hzero (congrFun (congrArg Waits.tokens h) a) (fun x => ?_) ?_
      · rw [h]
        show (Function.update s.kernel.waits.phases c _ c).timedOut = false
        rw [Function.update_self]
        rfl
      · rw [waitsOn_set h]
        by_cases hx : x = c
        · subst hx
          rw [if_pos rfl]
          exact iff_of_true ⟨hlive, rfl⟩ (Or.inl rfl)
        · rw [if_neg hx]
          simp [hx]
      · rw [hcaller]
        rfl

/-- A giving call on the semaphore. -/
theorem GiveTurn.semTurn {r : Status} {l : SemLedger} (hinv : TaskListInv s.kernel L)
    (hturn : GiveTurn s.kernel a r s'.kernel.waits) :
    SemTurn a s s' l (l.gave r (Sem.prvWakeTask s.kernel a).1) := by
  have hhead := hinv.lists.head (.wait (.sem a))
  simp only [Kernel.listHead] at hhead
  have hfst : (Sem.prvWakeTask s.kernel a).1 = s.kernel.waitHead (.sem a) := wakeTask_fst s.kernel _
  rw [hfst]
  cases hturn with
  -- the token goes straight to the first waiter; the count stays
  | handsOff t ht hr h =>
      subst hr
      rw [ht] at hhead ⊢
      have hon : s.kernel.WaitsOn (.sem a) t :=
        hinv.mem_sem_iff.mp (List.mem_of_mem_head? hhead.symm)
      refine .handsOff t hon (congrFun (congrArg Waits.tokens h) a) (fun x => ?_) rfl
      rw [waitsOn_set h]
      split
      · next hx => simp [hx, Phase.woken]
      · next hx => simp [hx]
  -- nobody waits: the wait list is empty, and the count grows
  | counts hnone hlt hr h =>
      subst hr
      rw [hnone] at hhead ⊢
      have hnil : L (.wait (.sem a)) = [] := List.head?_eq_none_iff.mp hhead.symm
      refine .counts (fun t ht => ?_) hlt ?_ (waitsOn_setTokens h) ?_
      · have hmem := hinv.mem_sem_iff.mpr ht
        rw [hnil] at hmem
        cases hmem
      · rw [h]
        exact Function.update_self ..
      · simp [SemLedger.gave]
  | fails hnone hr h =>
      subst hr
      exact .frame (congrFun (congrArg Waits.tokens h) a)
        (waitsOn_congr (congrArg Waits.phases h) (congrArg Waits.live h)) rfl

/-- The step in which a task returns from a take in which it had gone to sleep. -/
def Op.ReturnsTake (a : Addr) (s : Sys) (op : Op) (c : TaskId) : Prop :=
  op = .returnFromCall ∧ s.kernel.current = some c ∧ s.call c = .semTake a

/-- **Every other step is a turn of the semaphore**, and its entry in the books says which. -/
theorem step_semTurn {l : SemLedger} (hinv : TaskListInv s.kernel L) (hop : op.Allowed s)
    (hcreate : op.createsSem a = false) (hret : ∀ c, ¬ op.ReturnsTake a s c)
    (hs : step s op = some s') :
    SemTurn a s s' l (l.record a s op) := by
  have hmoves := step_moves hinv hop hs
  -- steps that are no call on this semaphore and no return
  have hframe : op.object ≠ some (.sem a) → l.record a s op = l → SemTurn a s s' l (l.record a s op) :=
    fun hobj hl => .frame (hmoves.tokens a hobj) (hmoves.waitsOn_iff hinv hobj) hl
  have hother : ∀ x : Addr, x ≠ a → (some (.sem x) : Option Obj) ≠ some (.sem a) := by
    intro x hx h
    cases h
    exact hx rfl
  cases op with
  | semTake x n =>
      by_cases hx : x = a
      · subst hx
        obtain ⟨c, hc, hlive, hst, hidle⟩ := Sys.Permits.task hop.1
        obtain ⟨c', k, r, hc', hk, rfl⟩ := Sys.blockingCall_inv hs
        obtain rfl : c = c' := Option.some.inj (hc.symm.trans hc')
        have hrec : l.record x s (.semTake x n) = l.took s.kernel.current r := by
          simp only [SemLedger.record, if_true, hk]
        rw [hrec]
        have hturn := waits_osSemTake hc hk
        refine TakeTurn.semTurn ?_ fun hr => ⟨c, hc, hc, hlive, hidle, ?_⟩
        · rw [Sys.kernel_outcome _ _ _ _ fun _ => rfl]
          exact hturn
        · rw [hr]
          exact Function.update_self ..
      · exact hframe (hother x hx) (if_neg hx)
  | semTakeFromIsr x =>
      by_cases hx : x = a
      · subst hx
        obtain rfl := Option.some.inj hs
        have hrec : l.record x s (.semTakeFromIsr x)
            = l.took none (.done (osSemTakeFromIsr s.kernel x).2) := if_pos rfl
        rw [hrec]
        exact TakeTurn.semTurn (waits_osSemTakeFromIsr s.kernel x) fun hr => by cases hr
      · exact hframe (hother x hx) (if_neg hx)
  | semGive x =>
      by_cases hx : x = a
      · subst hx
        obtain ⟨r, hk, rfl⟩ := Option.map_eq_some_iff.mp hs
        have hrec : l.record x s (.semGive x) = l.gave r.2 (Sem.prvWakeTask s.kernel x).1 := by
          simp only [SemLedger.record, if_true, hk]
        rw [hrec]
        exact GiveTurn.semTurn hinv (waits_osSemGive hk)
      · exact hframe (hother x hx) (if_neg hx)
  | semGiveFromIsr x =>
      by_cases hx : x = a
      · subst hx
        obtain rfl := Option.some.inj hs
        have hrec : l.record x s (.semGiveFromIsr x)
            = l.gave (osSemGiveFromIsr s.kernel x).2 (Sem.prvWakeTask s.kernel x).1 := if_pos rfl
        rw [hrec]
        exact GiveTurn.semTurn hinv (waits_osSemGiveFromIsr s.kernel x)
      · exact hframe (hother x hx) (if_neg hx)
  | semCreateCounting x i j =>
      refine hframe (hother x fun hx => ?_) rfl
      simp [Op.createsSem, hx] at hcreate
  | returnFromCall =>
      obtain ⟨c, hc, hlive, hst, -⟩ := Sys.Permits.resumed hop.1
      have hcall : ¬ s.call c = .semTake a := fun hcall => hret c ⟨rfl, hc, hcall⟩
      refine hframe (by simp [Op.object]) ?_
      simp only [SemLedger.record, hc, if_neg hcall]
  | _ => exact hframe (by simp [Op.object]) rfl

/-! ## The invariant -/

/-- **The books balance.** -/
structure SemInv (a : Addr) (m n : Nat) (σ : SemSys) : Prop where
  /-- The task lists are well formed. -/
  lists : ∃ L, TaskListInv σ.sys.kernel L
  /-- The bound given at creation. -/
  bound : (σ.sys.kernel.waits.tokens a).2 = m
  /-- The count respects it. -/
  count_le : (σ.sys.kernel.waits.tokens a).1 ≤ m
  /-- Tokens in, tokens out. -/
  conserved : n + σ.ledger.gives
    = (σ.sys.kernel.waits.tokens a).1 + (σ.ledger.takes + σ.ledger.woken.length)
  /-- The waiters are the sleepers that no give has woken. -/
  waiters : ∀ t, σ.sys.kernel.WaitsOn (.sem a) t ↔ t ∈ σ.ledger.inside ∧ t ∉ σ.ledger.woken
  /-- Only sleepers are woken. -/
  woken_inside : ∀ t ∈ σ.ledger.woken, t ∈ σ.ledger.inside
  /-- No sleeper is woken twice. -/
  woken_nodup : σ.ledger.woken.Nodup
  /-- No task sleeps in two takes. -/
  inside_nodup : σ.ledger.inside.Nodup
  /-- Waiters only while there is no token. -/
  exhausted : ∀ t, σ.sys.kernel.WaitsOn (.sem a) t → (σ.sys.kernel.waits.tokens a).1 = 0
  /-- The sleepers are live tasks inside `os_sem_take`, and not timed out. -/
  sleepers : ∀ t ∈ σ.ledger.inside, t ∈ σ.sys.kernel.liveTcbs ∧ σ.sys.call t = .semTake a ∧
    (σ.sys.kernel.waits.phases t).state ≠ .deleted ∧ (σ.sys.kernel.waits.phases t).timedOut = false

/-- A sleeper stays one until its call returns. -/
theorem SemInv.sleeper_step {σ : SemSys} (h : SemInv a m n σ) (hinv : TaskListInv σ.sys.kernel L)
    (hop : op.Allowed σ.sys) (hs : step σ.sys op = some s') (hret : ¬ op.ReturnsTake a σ.sys t)
    (ht : t ∈ σ.ledger.inside) :
    t ∈ s'.kernel.liveTcbs ∧ s'.call t = .semTake a ∧ (s'.kernel.waits.phases t).state ≠ .deleted ∧
      (s'.kernel.waits.phases t).timedOut = false := by
  obtain ⟨hlive, hcall, hst, hto⟩ := h.sleepers t ht
  have hmoves := step_moves hinv hop hs
  have hmove := hmoves.moves t hlive
  have hne : σ.sys.call t ≠ .idle := by rw [hcall]; simp
  refine ⟨hmoves.kept t hlive (Or.inl hst), ?_, ?_, hmove.timedOut hto⟩
  · rcases step_call hop hlive hs with hc | ⟨hc, -, hop' | hidle⟩
    · rw [hc, hcall]
    · exact absurd ⟨hop', hc, hcall⟩ hret
    · exact absurd hidle hne
  · -- only the current task deletes itself, and it is inside no call
    intro hdel
    obtain ⟨rfl, hc⟩ := hmove.of_deleted hst hdel
    obtain ⟨c, hc', -, -, hidle⟩ := Sys.Permits.task hop.1
    obtain rfl := Option.some.inj (hc.symm.trans hc')
    exact hne hidle

/-- A turn keeps the books balanced. -/
theorem SemInv.turn {σ : SemSys} {l' : SemLedger} (h : SemInv a m n σ)
    (hlists : ∃ L', TaskListInv s'.kernel L') (hlive : ∀ L', TaskListInv s'.kernel L' →
      ∀ t, s'.kernel.WaitsOn (.sem a) t → (s'.kernel.waits.phases t).state ≠ .deleted)
    (hsleep : ∀ t ∈ σ.ledger.inside, t ∈ s'.kernel.liveTcbs ∧ s'.call t = .semTake a ∧
      (s'.kernel.waits.phases t).state ≠ .deleted ∧ (s'.kernel.waits.phases t).timedOut = false)
    (hturn : SemTurn a σ.sys s' σ.ledger l') : SemInv a m n ⟨s', l'⟩ := by
  have hbound := h.bound
  have hle := h.count_le
  have hcons := h.conserved
  cases hturn with
  | frame htok hw hl =>
      subst hl
      exact ⟨hlists, htok ▸ hbound, htok ▸ hle, htok ▸ hcons, fun t => (hw t).trans (h.waiters t),
        h.woken_inside, h.woken_nodup, h.inside_nodup,
        fun t ht => htok ▸ h.exhausted t ((hw t).mp ht), hsleep⟩
  | takes hpos htok hw hl =>
      subst hl
      refine ⟨hlists, ?_, ?_, ?_, fun t => (hw t).trans (h.waiters t), h.woken_inside, h.woken_nodup,
        h.inside_nodup, fun t ht => ?_, hsleep⟩
      · rw [htok]
        exact hbound
      · rw [htok]
        show (σ.sys.kernel.waits.tokens a).1 - 1 ≤ m
        omega
      · rw [htok]
        show n + σ.ledger.gives = (σ.sys.kernel.waits.tokens a).1 - 1
          + (σ.ledger.takes + 1 + σ.ledger.woken.length)
        omega
      · -- a waiter would have found the count at zero
        have hzero := h.exhausted t ((hw t).mp ht)
        omega
  | sleeps c hc hidle hin hto hzero htok hw hl =>
      subst hl
      -- the caller was in no call, so it is not among the tasks inside one
      have hnew : c ∉ σ.ledger.inside := by
        intro hmem
        have hcall := (h.sleepers c hmem).2.1
        rw [hidle] at hcall
        cases hcall
      have hcw : c ∉ σ.ledger.woken := fun hmem => hnew (h.woken_inside c hmem)
      refine ⟨hlists, htok ▸ hbound, htok ▸ hle, htok ▸ hcons, fun t => ?_, fun t ht => ?_,
        h.woken_nodup, ?_, fun t ht => ?_, fun t ht => ?_⟩
      · rw [hw t, h.waiters t]
        show _ ↔ t ∈ σ.ledger.inside ++ [c] ∧ _
        rw [List.mem_append, List.mem_singleton]
        constructor
        · rintro (rfl | ⟨hin, hnw⟩)
          · exact ⟨Or.inr rfl, hcw⟩
          · exact ⟨Or.inl hin, hnw⟩
        · rintro ⟨hin | rfl, hnw⟩
          · exact Or.inr ⟨hin, hnw⟩
          · exact Or.inl rfl
      · exact List.mem_append_left _ (h.woken_inside t ht)
      · show (σ.ledger.inside ++ [c]).Nodup
        rw [List.nodup_append_comm]
        exact List.nodup_cons.mpr ⟨hnew, h.inside_nodup⟩
      · rw [htok]
        exact hzero
      · rcases List.mem_append.mp ht with ht | ht
        · exact hsleep t ht
        · obtain rfl := List.mem_singleton.mp ht
          have hon := (hw t).mpr (Or.inl rfl)
          obtain ⟨L', h'⟩ := hlists
          exact ⟨hon.1, hin, hlive L' h' t hon, hto⟩
  | handsOff t ht htok hw hl =>
      subst hl
      obtain ⟨hin, hnw⟩ := (h.waiters t).mp ht
      refine ⟨hlists, htok ▸ hbound, htok ▸ hle, ?_, fun x => ?_, fun x hx => ?_, ?_,
        h.inside_nodup, fun x hx => ?_, hsleep⟩
      · rw [htok]
        show n + (σ.ledger.gives + 1) = (σ.sys.kernel.waits.tokens a).1
          + (σ.ledger.takes + (σ.ledger.woken ++ [t]).length)
        rw [List.length_append, List.length_singleton]
        omega
      · rw [hw x, h.waiters x]
        show _ ↔ x ∈ σ.ledger.inside ∧ x ∉ σ.ledger.woken ++ [t]
        rw [List.mem_append, List.mem_singleton, not_or]
        tauto
      · rcases List.mem_append.mp hx with hx | hx
        · exact h.woken_inside x hx
        · exact List.mem_singleton.mp hx ▸ hin
      · show (σ.ledger.woken ++ [t]).Nodup
        rw [List.nodup_append_comm]
        exact List.nodup_cons.mpr ⟨hnw, h.woken_nodup⟩
      · rw [htok]
        exact h.exhausted x ((hw x).mp hx).2
  | counts hnone hlt htok hw hl =>
      subst hl
      refine ⟨hlists, ?_, ?_, ?_, fun t => (hw t).trans (h.waiters t), h.woken_inside, h.woken_nodup,
        h.inside_nodup, fun t ht => absurd ((hw t).mp ht) (hnone t), hsleep⟩
      · rw [htok]
        exact hbound
      · rw [htok]
        show (σ.sys.kernel.waits.tokens a).1 + 1 ≤ m
        omega
      · rw [htok]
        show n + (σ.ledger.gives + 1) = (σ.sys.kernel.waits.tokens a).1 + 1
          + (σ.ledger.takes + σ.ledger.woken.length)
        omega

/-- The return of a take: its caller had been woken, and gets `OS_OK`. -/
theorem SemInv.returns {σ : SemSys} (h : SemInv a m n σ) (hinv : TaskListInv σ.sys.kernel L)
    (hop : op.Allowed σ.sys) (hret : op.ReturnsTake a σ.sys c) (hs : step σ.sys op = some s')
    (hlists : ∃ L', TaskListInv s'.kernel L') : SemInv a m n ⟨s', σ.ledger.record a σ.sys op⟩ := by
  have hmoves := step_moves hinv hop hs
  have hobj : op.object ≠ some (.sem a) := by
    rw [hret.1]
    simp [Op.object]
  have htok := hmoves.tokens a hobj
  have hw := hmoves.waitsOn_iff hinv hobj
  have hsleep : ∀ t ∈ σ.ledger.inside, t ≠ c → t ∈ s'.kernel.liveTcbs ∧ s'.call t = .semTake a ∧
      (s'.kernel.waits.phases t).state ≠ .deleted ∧
      (s'.kernel.waits.phases t).timedOut = false := by
    intro t ht htc
    refine h.sleeper_step hinv hop hs (fun hr => htc ?_) ht
    exact Option.some.inj (hr.2.1.symm.trans hret.2.1)
  have hrec : σ.ledger.record a σ.sys op = σ.ledger.returned c (osSemTakeResume σ.sys.kernel c) := by
    rw [hret.1]
    simp only [SemLedger.record, hret.2.1, if_pos hret.2.2]
  rw [hrec]
  by_cases hin : c ∈ σ.ledger.inside
  · -- a current task waits for nothing, so a give has woken it
    obtain ⟨c', hc', hlive, hst, -⟩ : ∃ c', σ.sys.kernel.current = some c' ∧
        c' ∈ σ.sys.kernel.liveTcbs ∧ ((σ.sys.kernel.tcb c').state = .ready ∨
          (σ.sys.kernel.tcb c').state = .running) ∧ σ.sys.call c' ≠ .idle := by
      have hperm := hop.1
      rw [hret.1] at hperm
      exact Sys.Permits.resumed hperm
    obtain rfl := Option.some.inj (hret.2.1.symm.trans hc')
    have hwoken : c ∈ σ.ledger.woken := by
      by_contra hnw
      have hblocked := hinv.blocked_of_waitsOn ((h.waiters c).mpr ⟨hin, hnw⟩)
      cases (Tcb.phase_state_ready.mpr hst).symm.trans hblocked
    have hok : osSemTakeResume σ.sys.kernel c = .ok := by
      have hto : (σ.sys.kernel.tcb c).timedOut = false := (h.sleepers c hin).2.2.2
      simp [osSemTakeResume, hto]
    have hlen := List.length_erase_of_mem hwoken
    have hpos := List.length_pos_of_mem hwoken
    have hcons := h.conserved
    rw [SemLedger.returned, if_pos hin, hok]
    refine ⟨hlists, htok ▸ h.bound, htok ▸ h.count_le, ?_, fun t => ?_, fun t ht => ?_,
      h.woken_nodup.erase c, h.inside_nodup.erase c, fun t ht => ?_, fun t ht => ?_⟩
    · rw [htok]
      show n + σ.ledger.gives = (σ.sys.kernel.waits.tokens a).1
        + (σ.ledger.takes + 1 + (σ.ledger.woken.erase c).length)
      omega
    · rw [hw t, h.waiters t]
      show _ ↔ t ∈ σ.ledger.inside.erase c ∧ t ∉ σ.ledger.woken.erase c
      by_cases htc : t = c
      · subst htc
        simp [hwoken, h.inside_nodup.not_mem_erase]
      · rw [List.mem_erase_of_ne htc, List.mem_erase_of_ne htc]
    · have htc : t ≠ c := fun htc => h.woken_nodup.not_mem_erase (htc ▸ ht)
      exact (List.mem_erase_of_ne htc).mpr (h.woken_inside t (List.mem_of_mem_erase ht))
    · rw [htok]
      exact h.exhausted t ((hw t).mp ht)
    · have htc : t ≠ c := fun htc => h.inside_nodup.not_mem_erase (htc ▸ ht)
      exact hsleep t (List.mem_of_mem_erase ht) htc
  · -- the take was one of an earlier semaphore at this address
    rw [SemLedger.returned, if_neg hin]
    exact ⟨hlists, htok ▸ h.bound, htok ▸ h.count_le, htok ▸ h.conserved,
      fun t => (hw t).trans (h.waiters t), h.woken_inside, h.woken_nodup, h.inside_nodup,
      fun t ht => htok ▸ h.exhausted t ((hw t).mp ht),
      fun t ht => hsleep t ht fun htc => hin (htc ▸ ht)⟩

/-- **One step keeps the books balanced**, if it keeps the task lists well formed. -/
theorem SemInv.enter {σ : SemSys} (h : SemInv a m n σ) (hop : op.Allowed σ.sys)
    (hcreate : op.createsSem a = false) (hs : MiniRTOS.step σ.sys op = some s')
    (hlists : ∃ L', TaskListInv s'.kernel L') : SemInv a m n ⟨s', σ.ledger.record a σ.sys op⟩ := by
  obtain ⟨L, hinv⟩ := h.lists
  by_cases hret : ∃ c, op.ReturnsTake a σ.sys c
  · obtain ⟨c, hret⟩ := hret
    exact h.returns hinv hop hret hs hlists
  · have hret' : ∀ c, ¬ op.ReturnsTake a σ.sys c := fun c hc => hret ⟨c, hc⟩
    refine h.turn hlists (fun L' h' t ht hdel => ?_)
      (fun t ht => h.sleeper_step hinv hop hs (hret' t) ht)
      (step_semTurn hinv hop hcreate hret' hs)
    cases hdel.symm.trans (h'.blocked_of_waitsOn ht)

/-- A step without mutexes keeps the books balanced. -/
theorem SemInv.step {σ σ' : SemSys} (h : SemInv a m n σ) (hop : SemStep a σ op)
    (hs : semStep a σ op = some σ') : SemInv a m n σ' := by
  obtain ⟨hop, hcreate⟩ := hop
  obtain ⟨s', hk, rfl⟩ := Option.map_eq_some_iff.mp hs
  obtain ⟨L, hinv⟩ := h.lists
  exact h.enter hop.1 hcreate hk (taskListInv_of_step hinv hop hk)

/-- The books balance at creation. -/
theorem SemInv.start (hinv : TaskListInv s.kernel L) (hfresh : s.kernel.waitHead (.sem a) = none)
    (hm : 1 ≤ m) (hn : n ≤ m) : SemInv a m n (.start s a m n) := by
  have hk : (osSemCreateCounting s.kernel a m n).2 = s.kernel.setSem a ⟨n, m, none⟩ := by
    have hm' : ¬ m = 0 := by omega
    have hn' : ¬ n > m := by omega
    simp [osSemCreateCounting, hm', hn']
  have hwaits : (s.kernel.setSem a ⟨n, m, none⟩).waits = s.kernel.waits.setTokens a (n, m) :=
    waits_setSem ..
  have htok : (s.kernel.setSem a ⟨n, m, none⟩).waits.tokens a = (n, m) := by
    rw [hwaits]
    exact Function.update_self ..
  have hlists : ∃ L', TaskListInv (osSemCreateCounting s.kernel a m n).2 L' := by
    obtain ⟨L', h', -⟩ := hinv.osSemCreateCounting (m := m) (n := n) hfresh
    exact ⟨L', h'⟩
  -- the head is null, so nobody waits on what the new semaphore replaces
  have hnone : ∀ t, ¬ (s.kernel.setSem a ⟨n, m, none⟩).WaitsOn (.sem a) t := by
    intro t ht
    have hhead := hinv.lists.head (.wait (.sem a))
    have hmem := hinv.mem_sem_iff.mpr ((waitsOn_setTokens hwaits t).mp ht)
    simp only [Kernel.listHead, hfresh] at hhead
    rw [List.head?_eq_none_iff.mp hhead.symm] at hmem
    cases hmem
  unfold SemSys.start
  rw [hk] at hlists ⊢
  refine ⟨hlists, ?_, ?_, ?_, fun t => iff_of_false (hnone t) ?_, fun t ht => ?_, List.nodup_nil,
    List.nodup_nil, fun t ht => absurd ht (hnone t), fun t ht => ?_⟩
  · exact congrArg Prod.snd htok
  · show ((s.kernel.setSem a ⟨n, m, none⟩).waits.tokens a).1 ≤ m
    rw [htok]
    exact hn
  · show n + 0 = ((s.kernel.setSem a ⟨n, m, none⟩).waits.tokens a).1 + (0 + 0)
    rw [htok]
  · simp [SemLedger.empty]
  · cases ht
  · cases ht

/-! ## Conservation -/

/-- **Semaphore conservation.** Let `os_sem_create_counting` be called with a bound `m ≥ 1` and an
initial count `n ≤ m`, in any state that a run can reach. Whatever happens next, the tokens put in are
the tokens there are and those taken: the initial ones and the gives that returned `OS_OK` are the
count and the takes that returned `OS_OK` or whose sleeping caller a give has woken. The count stays
within the bound; a task is in the wait list only while the count is zero; each task of the list is a
sleeper that no give has woken, and no sleeper has been woken twice. -/
theorem sem_conserved {s₀ : Sys} {pre ops : List Op} {σ : SemSys} (h₀ : s₀.Init)
    (hpre : Run WithoutMutexes step s₀ pre s) (hfresh : s.kernel.waitHead (.sem a) = none)
    (hm : 1 ≤ m) (hn : n ≤ m) (hr : Run (SemStep a) (semStep a) (.start s a m n) ops σ) :
    n + σ.ledger.gives
        = (σ.sys.kernel.sems a).count + (σ.ledger.takes + σ.ledger.woken.length) ∧
      (σ.sys.kernel.sems a).count ≤ m ∧ (σ.sys.kernel.sems a).maxCount = m ∧
      (σ.sys.kernel.waitHead (.sem a) ≠ none → (σ.sys.kernel.sems a).count = 0) ∧
      (∃ L, TaskListInv σ.sys.kernel L ∧
        ∀ t, t ∈ L (.wait (.sem a)) ↔ t ∈ σ.ledger.inside ∧ t ∉ σ.ledger.woken) ∧
      σ.ledger.woken.Nodup ∧ ∀ t ∈ σ.ledger.woken, σ.sys.call t = .semTake a := by
  obtain ⟨L₀, hinv₀⟩ : ∃ L, TaskListInv s.kernel L :=
    hpre.invariant (fun s => ∃ L, TaskListInv s.kernel L)
      (fun _ _ _ ⟨_, h⟩ hop hs => taskListInv_of_step h hop hs) ⟨_, h₀.taskListInv⟩
  have h : SemInv a m n σ := hr.invariant (SemInv a m n) (fun _ _ _ h hop hs => h.step hop hs)
    (SemInv.start hinv₀ hfresh hm hn)
  obtain ⟨L, hinv⟩ := h.lists
  refine ⟨h.conserved, h.count_le, h.bound, fun hhead => ?_, ⟨L, hinv, fun t => ?_⟩, h.woken_nodup,
    fun t ht => (h.sleepers t (h.woken_inside t ht)).2.1⟩
  · obtain ⟨t, ht⟩ := Option.ne_none_iff_exists'.mp hhead
    have hfirst := hinv.lists.head (.wait (.sem a))
    simp only [Kernel.listHead, ht] at hfirst
    exact h.exhausted t (hinv.mem_sem_iff.mp (List.mem_of_mem_head? hfirst.symm))
  · exact hinv.mem_sem_iff.trans (h.waiters t)

/-- Three tasks on a semaphore: two takes sleep, an interrupt and a task give, one take returns. -/
def tokenTrace : List Op :=
  [.create (taskAt 0x100 2), .create (taskAt 0x200 3), .create (taskAt 0x300 4), .selectNext,
    .semTake 0x10 waitForever, .selectNext, .semTake 0x10 5, .selectNext, .semGiveFromIsr 0x10,
    .semGive 0x10, .semGive 0x10, .selectNext, .returnFromCall]

/-- Three gives: a take has returned, a woken sleeper has yet to return, and a token is left. -/
theorem sem_conserved_tokenTrace :
    ∃ σ, Run (SemStep 0x10) (semStep 0x10) (.start .boot 0x10 1 0) tokenTrace σ ∧
      σ.ledger = ⟨3, 1, [0x200], [0x200]⟩ ∧
      0 + σ.ledger.gives
        = (σ.sys.kernel.sems 0x10).count + (σ.ledger.takes + σ.ledger.woken.length) := by
  obtain ⟨σ, hr, hl⟩ := exists_run_of_exec (SemStep 0x10) (semStep 0x10) (.start .boot 0x10 1 0)
    tokenTrace (fun σ => σ.ledger = ⟨3, 1, [0x200], [0x200]⟩) (by decide +kernel)
  exact ⟨σ, hr, hl, (sem_conserved Sys.boot_init (.nil Sys.boot) rfl (Nat.le_refl 1) (Nat.zero_le 1) hr).1⟩

/-! ## With mutexes in use -/

/-- The steps of runs in which the tasks use mutexes as well: no boosted owner releases one for good. -/
def SafeSemStep (a : Addr) (σ : SemSys) (op : Op) : Prop :=
  SafeStep σ.sys op ∧ op.createsSem a = false

/-- Such a step keeps the books balanced, and the mutexes in order. -/
theorem SemInv.safeStep {σ σ' : SemSys} (h : SemInv a m n σ ∧ ∃ L, LockInv σ.sys L)
    (hop : SafeSemStep a σ op) (hs : semStep a σ op = some σ') :
    SemInv a m n σ' ∧ ∃ L, LockInv σ'.sys L := by
  obtain ⟨hbooks, L, hlocks⟩ := h
  obtain ⟨s', hk, rfl⟩ := Option.map_eq_some_iff.mp hs
  obtain ⟨L', hlocks'⟩ := hlocks.step hop.1 hk
  exact ⟨hbooks.enter hop.1.1.1 hop.2 hk ⟨L', hlocks'.tasks.lists⟩, L', hlocks'⟩

/-- **The books of a semaphore balance among mutexes, too.** In every run of `SafeStep`s after the creation
of the semaphore, in any state that such a run can reach. -/
theorem semInv_of_safeRun {s₀ : Sys} {pre ops : List Op} {σ : SemSys} (h₀ : s₀.Init) (hfree : s₀.NoneHeld)
    (hpre : Run SafeStep step s₀ pre s) (hfresh : s.kernel.waitHead (.sem a) = none)
    (hm : 1 ≤ m) (hn : n ≤ m) (hr : Run (SafeSemStep a) (semStep a) (.start s a m n) ops σ) :
    SemInv a m n σ := by
  obtain ⟨L, hlocks⟩ := lockInv_of_run h₀ hfree hpre
  have hlists := hlocks.tasks.lists
  have hstart : ∃ L', LockInv (SemSys.start s a m n).sys L' :=
    hlocks.of_calm (hlists.osSemCreateCounting hfresh)
      (congrArg View.locks (view_osSemCreateCounting s.kernel a m n)) rfl rfl
  exact (hr.invariant (fun σ => SemInv a m n σ ∧ ∃ L, LockInv σ.sys L)
    (fun _ _ _ h hop hs => SemInv.safeStep h hop hs) ⟨.start hlists hfresh hm hn, hstart⟩).1

end MiniRTOS
