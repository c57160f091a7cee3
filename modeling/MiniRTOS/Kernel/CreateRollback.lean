import MiniRTOS.Kernel.TaskHeap

/-! # Task creations that fail

`os_task_create` asks the heap twice, for a stack and for the control block. When the second request
fails, the stack goes back: the block that was split for it is joined with its other half again. It is not
joined with anything else, because no two free blocks are neighbours before the call.

* **`Heap.Tiled.alloc_undone`** — freeing what was allocated last gives the old list of blocks.
* **`create_fails_atomically`** — a creation that fails, for whatever reason, leaves the blocks of the
  heap, the kernel and the handle as they were. -/

namespace MiniRTOS

open ByteMemory Runs Tiling Heap

variable {c : HeapConfig} {h h₁ h₂ : Heap} {bs bs' : List Block} {k k' : Kernel} {n q : Nat}

/-! ## The function with its heap -/

/-- The stack that `os_task_create` works with: that of the caller, or what `prv_allocate_stack` gets. -/
def createStack (c : HeapConfig) (h : Heap) (a : CreateArgs) : Option (Heap × Option Addr) :=
  match a.stackBuf with
  | some buf => some (h, some buf)
  | none => osHeapAlloc c h a.stackSize

/-- `os_task_create` from the allocations on. -/
def createAccepted (c : HeapConfig) (tcbBytes : Nat) (h : Heap) (k : Kernel) (handle : Option TaskId)
    (a : CreateArgs) (func : BitVec 32) (prio : Prio) :
    Option (Status × Option TaskId × Heap × Kernel) := do
  let (h₁, stack) ← createStack c h a
  match stack with
  | none => some (.errNoMem, handle, h₁, k)
  | some stack => do
    let (h₂, tcb) ← osHeapAlloc c h₁ tcbBytes
    match tcb with
    | none =>
        if a.stackBuf.isSome then some (.errNoMem, handle, h₂, k)
        else do
          let h₃ ← osHeapFree c h₂ (some stack)
          some (.errNoMem, handle, h₃, freeStack k stack)
    | some t =>
        some (.ok, if a.wantHandle then some t else handle,
          { h₂ with mem := stackImage c h₂.mem func a.param stack a.stackSize },
          initTask k func a.param prio stack a.stackSize t)

/-- `os_task_create` on a kernel and a heap; `handle` is what `*handle` holds. The stack is written in the
kernel's view and in the memory of the heap; the fields of the control block are part of the kernel. -/
def osTaskCreateOnHeap (c : HeapConfig) (tcbBytes : Nat) (h : Heap) (k : Kernel)
    (handle : Option TaskId) (a : CreateArgs) : Option (Status × Option TaskId × Heap × Kernel) :=
  match a.func with
  | none => some (.errParam, handle, h, k)
  | some func =>
    if hp : a.priority < numPriorities then
      if k.taskTable.length ≥ maxTasks then some (.errFull, handle, h, k)
      else if a.stackSize < 128 then some (.errParam, handle, h, k)
      else createAccepted c tcbBytes h k handle a func ⟨a.priority, hp⟩
    else some (.errParam, handle, h, k)

/-- Only a request to the heap comes back without a stack. -/
theorem stackBuf_eq_none {a : CreateArgs} (h₀ : createStack c h a = some (h₁, none)) :
    a.stackBuf = none := by
  unfold createStack at h₀
  split at h₀
  · cases h₀
  · next hbuf => exact hbuf

/-- Where the stack comes from. -/
theorem or_createStack {a : CreateArgs} {stack : Addr} (h₀ : createStack c h a = some (h₁, some stack)) :
    a.stackBuf.or (some stack) = some stack := by
  unfold createStack at h₀
  split at h₀
  · next buf hbuf =>
      obtain ⟨-, hstack⟩ := Prod.mk.inj (Option.some.inj h₀)
      rw [hbuf, hstack]
      rfl
  · next hbuf => rw [hbuf, Option.none_or]

/-- **The kernel's part of the call** is `osTaskCreate`, given what the heap answers. -/
theorem osTaskCreate_of_onHeap {tcbBytes : Nat} {handle handle' : Option TaskId} {a : CreateArgs}
    {st : Status} {h' : Heap}
    (heq : osTaskCreateOnHeap c tcbBytes h k handle a = some (st, handle', h', k')) :
    ∃ stackBlock tcbBlock stored,
      osTaskCreate k { a with stackBlock := stackBlock, tcbBlock := tcbBlock } = (st, stored, k') ∧
        handle' = stored.or handle := by
  unfold osTaskCreateOnHeap at heq
  unfold osTaskCreate
  cases hfunc : a.func with
  | none =>
      simp only [hfunc, Option.some.injEq, Prod.mk.injEq] at heq
      obtain ⟨rfl, rfl, -, rfl⟩ := heq
      exact ⟨none, none, none, rfl, rfl⟩
  | some func =>
      simp only [hfunc] at heq
      dsimp only
      split at heq
      · next hp =>
          simp only [hp, dif_pos]
          split at heq
          · next hfull =>
              simp only [Option.some.injEq, Prod.mk.injEq] at heq
              obtain ⟨rfl, rfl, -, rfl⟩ := heq
              exact ⟨none, none, none, by rw [if_pos hfull], rfl⟩
          · next hfull =>
              simp only [if_neg hfull]
              split at heq
              · next hsmall =>
                  simp only [Option.some.injEq, Prod.mk.injEq] at heq
                  obtain ⟨rfl, rfl, -, rfl⟩ := heq
                  exact ⟨none, none, none, by rw [if_pos hsmall], rfl⟩
              · next hsmall =>
                  simp only [if_neg hsmall]
                  obtain ⟨⟨h₁, stack⟩, hstack, heq⟩ := Option.bind_eq_some_iff.mp heq
                  cases stack with
                  | none =>
                      simp only [Option.some.injEq, Prod.mk.injEq] at heq
                      obtain ⟨rfl, rfl, -, rfl⟩ := heq
                      have hbuf : a.stackBuf = none := stackBuf_eq_none hstack
                      exact ⟨none, none, none, by rw [hbuf]; rfl, rfl⟩
                  | some stack =>
                      have hor : a.stackBuf.or (some stack) = some stack := or_createStack hstack
                      obtain ⟨⟨h₂, tcb⟩, -, heq⟩ := Option.bind_eq_some_iff.mp heq
                      refine ⟨some stack, tcb, ?_⟩
                      simp only [hor]
                      cases tcb with
                      | none =>
                          dsimp only at heq ⊢
                          split at heq
                          · next hbuf =>
                              simp only [Option.some.injEq, Prod.mk.injEq] at heq
                              obtain ⟨rfl, rfl, -, rfl⟩ := heq
                              exact ⟨none, by rw [if_pos hbuf], rfl⟩
                          · next hbuf =>
                              obtain ⟨h₃, -, heq⟩ := Option.bind_eq_some_iff.mp heq
                              simp only [Option.some.injEq, Prod.mk.injEq] at heq
                              obtain ⟨rfl, rfl, -, rfl⟩ := heq
                              exact ⟨none, by rw [if_neg hbuf], rfl⟩
                      | some t =>
                          simp only [Option.some.injEq, Prod.mk.injEq] at heq
                          obtain ⟨rfl, rfl, -, rfl⟩ := heq
                          refine ⟨_, rfl, ?_⟩
                          split <;> rfl
      · next hp =>
          simp only [Option.some.injEq, Prod.mk.injEq] at heq
          obtain ⟨rfl, rfl, -, rfl⟩ := heq
          exact ⟨none, none, none, by rw [dif_neg hp], rfl⟩

/-- **What a creation stores**: the control block names the stack. -/
theorem stackBase_initTask (k : Kernel) (func param : BitVec 32) (prio : Prio) (stack : Addr)
    (size : Nat) (t : TaskId) :
    ((initTask k func param prio stack size t).tcb t).stackBase = stack := by
  simp only [initTask, osTaskAddToReady, Function.update_self]
  rfl

/-- **The heap's part of an accepted call** is `createAllocs`. -/
theorem createAllocs_of_accepted {tcbBytes : Nat} {s : HeapSys} {handle : Option TaskId} {a : CreateArgs}
    {func : BitVec 32} {prio : Prio} {r : Status × Option TaskId × Heap × Kernel}
    (heq : createAccepted c tcbBytes s.heap k handle a func prio = some r) :
    ∃ s' made, createAllocs c tcbBytes s a.stackBuf a.stackSize = some (s', made) ∧
      match made with
      | none => r.1 = .errNoMem ∧ r.2.2.1 = s'.heap
      | some (stack, t) => r.1 = .ok ∧ (r.2.2.2.tcb t).stackBase = stack ∧
          r.2.2.1 = (s'.writeStack c func a.param stack a.stackSize).heap := by
  obtain ⟨⟨h₁, stack⟩, hstack, heq⟩ := Option.bind_eq_some_iff.mp heq
  unfold createStack at hstack
  cases hbuf : a.stackBuf with
  | some buf =>
      rw [hbuf] at hstack
      obtain ⟨rfl, rfl⟩ := Prod.mk.inj (Option.some.inj hstack)
      obtain ⟨⟨h₂, tcb⟩, htcb, heq⟩ := Option.bind_eq_some_iff.mp heq
      refine ⟨_, _, createAllocs_supplied buf htcb, ?_⟩
      cases tcb with
      | none =>
          simp only [hbuf, Option.isSome_some, if_true] at heq
          obtain rfl := Option.some.inj heq
          exact ⟨rfl, rfl⟩
      | some t =>
          obtain rfl := Option.some.inj heq
          exact ⟨rfl, stackBase_initTask .., rfl⟩
  | none =>
      rw [hbuf] at hstack
      cases stack with
      | none =>
          obtain rfl := Option.some.inj heq
          exact ⟨_, _, createAllocs_noStack hstack, rfl, rfl⟩
      | some stack =>
          obtain ⟨⟨h₂, tcb⟩, htcb, heq⟩ := Option.bind_eq_some_iff.mp heq
          cases tcb with
          | none =>
              simp only [hbuf, Option.isSome_none, Bool.false_eq_true, if_false] at heq
              obtain ⟨h₃, hfree, heq⟩ := Option.bind_eq_some_iff.mp heq
              obtain rfl := Option.some.inj heq
              exact ⟨_, _, createAllocs_rolledBack hstack htcb hfree, rfl, rfl⟩
          | some t =>
              obtain rfl := Option.some.inj heq
              exact ⟨_, _, createAllocs_both hstack htcb, rfl, stackBase_initTask .., rfl⟩

/-- **The heap's part of the call** is `createBlocks`, unless the call is refused before it asks the heap;
and the control block of a new task names the stack that the heap has on record. -/
theorem createBlocks_of_onHeap {tcbBytes : Nat} {σ : TaskHeap} {handle handle' : Option TaskId}
    {a : CreateArgs} {st : Status} {h' : Heap}
    (heq : osTaskCreateOnHeap c tcbBytes σ.heap.heap k handle a = some (st, handle', h', k')) :
    (st ≠ .ok ∧ h' = σ.heap.heap ∧ k' = k) ∨
      ∃ func σ', a.func = some func ∧
        createBlocks c tcbBytes σ func a.param a.stackBuf a.stackSize = some σ' ∧ σ'.heap.heap = h' ∧
        (st = .ok → ∃ t stack, σ'.tasks = ⟨t, stack, a.stackBuf⟩ :: σ.tasks ∧
          (k'.tcb t).stackBase = stack) := by
  have hrefused : ∀ r : Status, r ≠ .ok → some (r, handle, σ.heap.heap, k) = some (st, handle', h', k') →
      st ≠ .ok ∧ h' = σ.heap.heap ∧ k' = k := by
    intro r hr heq
    simp only [Option.some.injEq, Prod.mk.injEq] at heq
    obtain ⟨rfl, -, rfl, rfl⟩ := heq
    exact ⟨hr, rfl, rfl⟩
  unfold osTaskCreateOnHeap at heq
  split at heq
  · exact Or.inl (hrefused _ (by decide) heq)
  · next func hfunc =>
      split at heq
      · next hp =>
          split at heq
          · exact Or.inl (hrefused _ (by decide) heq)
          · split at heq
            · exact Or.inl (hrefused _ (by decide) heq)
            · -- the arguments are good
              obtain ⟨s', made, hallocs, hmade⟩ := createAllocs_of_accepted heq
              refine Or.inr ⟨func, ?_⟩
              rw [createBlocks, hallocs]
              cases made with
              | none => exact ⟨_, hfunc, rfl, hmade.2.symm, fun h => by rw [h] at hmade; cases hmade.1⟩
              | some made =>
                  obtain ⟨-, hbase, hheap⟩ := hmade
                  exact ⟨_, hfunc, rfl, hheap.symm, fun _ => ⟨made.2, made.1, rfl, hbase⟩⟩
      · exact Or.inl (hrefused _ (by decide) heq)

/-- **The new stack is one and the same** in the kernel and in the memory of a 32-bit heap. -/
theorem sameWords_initTask {stack size : Nat} (hptr : c.ptrBytes = 4) (h4 : stack % 4 = 0)
    (m : Mem) (k : Kernel) (func param : BitVec 32) (prio : Prio) (t : TaskId) :
    SameWords {x | ∃ i, i < size / 4 ∧ x = stack + 4 * i} (stackImage c m func param stack size)
      (initTask k func param prio stack size t).stackMem := by
  apply sameWords_stackImage hptr _ h4
  · rintro x ⟨i, hi, rfl⟩ hout
    exact absurd ⟨Nat.le_add_right _ _, by omega⟩ hout
  · rintro x ⟨i, -, rfl⟩
    omega

/-! ## Undoing an allocation -/

/-- **An allocation is undone by freeing it**, if nothing has happened to the heap since. -/
theorem Heap.Tiled.alloc_undone (ht : Tiled c h bs) (hi : h.heapInitialized = true)
    (hc : Coalesced bs) (heq : MiniRTOS.osHeapAlloc c h n = some (h₁, some q))
    (hmem : h₂.mem = h₁.mem) (hpx : h₂.pxBlockList = h₁.pxBlockList)
    (hi₂ : h₂.heapInitialized = true) :
    ∃ h₃, MiniRTOS.osHeapFree c h₂ (some q) = some h₃ ∧ h₃.blocks c = some bs := by
  rcases ht.osHeapAlloc hi n with ⟨h', hnone, -⟩ | ⟨h', l, b, r, -, hsome, rfl, hb, -, -, ht₁, -⟩
  · rw [hnone] at heq
    cases heq
  · rw [hsome] at heq
    obtain ⟨rfl, hq⟩ := Prod.mk.inj (Option.some.inj heq)
    obtain rfl := Option.some.inj hq
    obtain ⟨f, r', htake, haddr, hused, hrelease⟩ :=
      exists_release_take c.header heapAlignment (alignUp 4 n) hc hb
    rw [htake] at ht₁
    have ht₂ : Tiled c h₂ (l ++ f :: r') := ht₁.congr hpx fun _ _ _ _ _ => by rw [hmem]
    obtain ⟨h₃, hfree, ht₃, -⟩ := ht₂.osHeapFree hi₂ hused
    have hdata : f.data c.header = b.data c.header := by rw [Block.data, haddr, Block.data]
    rw [hdata] at hfree
    rw [hrelease] at ht₃
    exact ⟨h₃, hfree, ht₃.blocks_eq⟩

/-- A request that fails changes no block. -/
theorem Heap.Tiled.alloc_failed (ht : Tiled c h bs) (hi : h.heapInitialized = true)
    (heq : MiniRTOS.osHeapAlloc c h n = some (h₁, none)) :
    h₁.mem = h.mem ∧ h₁.pxBlockList = h.pxBlockList ∧ h₁.heapInitialized = true := by
  rcases ht.osHeapAlloc hi n with ⟨h', hnone, hmem, hpx, -, -, hi', -⟩ | ⟨h', l, b, r, -, hsome, -⟩
  · obtain ⟨rfl, -⟩ := Prod.mk.inj (Option.some.inj (hnone.symm.trans heq))
    exact ⟨hmem, hpx, hi'⟩
  · rw [hsome] at heq
    cases heq

/-! ## The call -/

/-- **Blocks, kernel and handle are as they were.** Only the pointers passed to `os_heap_free` are
recorded. -/
structure CreatedNothing (c : HeapConfig) (h h' : Heap) (k k' : Kernel)
    (handle handle' : Option TaskId) : Prop where
  /-- Addresses, sizes and allocated bits on `px_block_list`. -/
  blocks : h'.blocks c = h.blocks c
  /-- Ready lists, bitmap, task table and all the rest. -/
  kernel : k' = { k with freed := k'.freed }
  /-- `*handle`. -/
  handle : handle' = handle

/-- Nothing is created when nothing happens. -/
theorem CreatedNothing.refl (c : HeapConfig) (h : Heap) (k : Kernel) (handle : Option TaskId) :
    CreatedNothing c h h k k handle handle :=
  ⟨rfl, rfl, rfl⟩

/-- **The call fails without a trace**, or it succeeds. -/
def FailsCleanly (c : HeapConfig) (h : Heap) (k : Kernel) (handle : Option TaskId)
    (r : Option (Status × Option TaskId × Heap × Kernel)) : Prop :=
  ∃ st handle' h' k', r = some (st, handle', h', k') ∧
    (st ≠ .ok → CreatedNothing c h h' k k' handle handle')

/-- A refusal before anything was done. -/
theorem failsCleanly_refused (c : HeapConfig) (h : Heap) (k : Kernel) (handle : Option TaskId)
    (st : Status) : FailsCleanly c h k handle (some (st, handle, h, k)) :=
  ⟨st, handle, h, k, rfl, fun _ => .refl c h k handle⟩

/-- A request of the call that the heap could not serve. -/
theorem HeapInv.createdNothing {s : HeapSys} (hI : HeapInv c s bs) (k : Kernel)
    (handle : Option TaskId) (heq : osHeapAlloc c s.heap n = some (h₁, none)) :
    CreatedNothing c s.heap h₁ k k handle handle := by
  obtain ⟨hmem, hpx, -⟩ := hI.tiled.alloc_failed hI.initialized heq
  constructor
  case blocks =>
    unfold Heap.blocks
    rw [hmem, hpx]
  case kernel => rfl
  case handle => rfl

/-- **The roll-back**: the stack was allocated, the control block was not. -/
theorem HeapInv.create_rolledBack {s : HeapSys} {tcbBytes : Nat} {stack : Addr} (hI : HeapInv c s bs)
    (k : Kernel) (handle : Option TaskId) (hstack : osHeapAlloc c s.heap n = some (h₁, some stack))
    (hI₁ : HeapInv c ⟨h₁, stack :: s.live⟩ bs') (htcb : osHeapAlloc c h₁ tcbBytes = some (h₂, none)) :
    ∃ h₃, osHeapFree c h₂ (some stack) = some h₃ ∧
      CreatedNothing c s.heap h₃ k (freeStack k stack) handle handle := by
  obtain ⟨hmem, hpx, hi₂⟩ := hI₁.tiled.alloc_failed hI₁.initialized htcb
  obtain ⟨h₃, hfree, hblocks⟩ :=
    hI.tiled.alloc_undone hI.initialized hI.coalesced hstack hmem hpx hi₂
  refine ⟨h₃, hfree, ?_⟩
  constructor
  case blocks => rw [hblocks, hI.tiled.blocks_eq]
  case kernel => rfl
  case handle => rfl

/-- **A heap in order is enough**, whatever the kernel looks like. -/
theorem HeapInv.create_fails {s : HeapSys} (hI : HeapInv c s bs) (tcbBytes : Nat) (k : Kernel)
    (handle : Option TaskId) (a : CreateArgs) :
    FailsCleanly c s.heap k handle (osTaskCreateOnHeap c tcbBytes s.heap k handle a) := by
  unfold osTaskCreateOnHeap
  split
  · exact failsCleanly_refused ..
  · split
    · split
      · exact failsCleanly_refused ..
      · split
        · exact failsCleanly_refused ..
        · -- the arguments are good, so what happens is up to the heap
          cases hbuf : a.stackBuf with
          | some buf =>
              obtain ⟨h₂, t, bs₂, heq₂, -⟩ := hI.alloc tcbBytes
              simp only [createAccepted, createStack, hbuf, Option.isSome_some, if_true, Option.bind_eq_bind,
                Option.bind_some, heq₂]
              cases t with
              | none => exact ⟨_, _, _, _, rfl, fun _ => hI.createdNothing k handle heq₂⟩
              | some t => exact ⟨_, _, _, _, rfl, fun hst => absurd rfl hst⟩
          | none =>
              obtain ⟨h₁, stack, bs₁, heq₁, hI₁, -⟩ := hI.alloc a.stackSize
              simp only [createAccepted, createStack, hbuf, Option.isSome_none, Bool.false_eq_true, if_false,
                Option.bind_eq_bind, Option.bind_some, heq₁]
              cases stack with
              | none => exact ⟨_, _, _, _, rfl, fun _ => hI.createdNothing k handle heq₁⟩
              | some stack =>
                  obtain ⟨h₂, t, bs₂, heq₂, -⟩ := hI₁.alloc tcbBytes
                  simp only [heq₂, Option.bind_some]
                  cases t with
                  | none =>
                      obtain ⟨h₃, hfree, hnothing⟩ := hI.create_rolledBack k handle heq₁ hI₁ heq₂
                      simp only [hfree, Option.bind_some]
                      exact ⟨_, _, _, _, rfl, fun _ => hnothing⟩
                  | some t => exact ⟨_, _, _, _, rfl, fun hst => absurd rfl hst⟩
    · exact failsCleanly_refused ..

/-- **A failed creation is atomic.** Whatever tasks were created and deleted and whatever else the heap
was used for before, and in every state of the kernel, a call of `os_task_create` returns; and when its
status is not `OS_OK`, the blocks of the heap, the kernel and `*handle` are as they were. -/
theorem create_fails_atomically {tcbBytes : Nat} {ops : List TaskHeapOp} {σ : TaskHeap}
    (hidle : idleTaskStack < c.start ∨ c.start + heapSize < idleTaskStack)
    (hr : Run (fun σ op => op.Permitted c tcbBytes σ) (taskHeapStep c tcbBytes) (.init c h) ops σ)
    (k : Kernel) (handle : Option TaskId) (a : CreateArgs) :
    ∃ st handle' h' k', osTaskCreateOnHeap c tcbBytes σ.heap.heap k handle a
        = some (st, handle', h', k') ∧
      (st ≠ .ok → CreatedNothing c σ.heap.heap h' k k' handle handle') := by
  obtain ⟨bs, hI⟩ := taskHeapInv_of_run hidle hr
  exact hI.heap.create_fails tcbBytes k handle a

/-- 304 bytes are left: enough for a stack of 256 bytes, but not for the control block behind it. -/
def fullTrace : List TaskHeapOp := [.heap (.alloc 9912)]

/-- The arguments of a creation in that heap. -/
def lateTask : CreateArgs := ⟨some 0x08000101, 0, 3, none, 256, true, none, none⟩

/-- With 304 bytes left, a creation fails and leaves everything as it was. -/
theorem create_fails_atomically_fullTrace : ∃ σ,
    Run (fun σ op => op.Permitted HeapConfig.cortexM 100 σ) (taskHeapStep HeapConfig.cortexM 100)
      (.init HeapConfig.cortexM Heap.unset) fullTrace σ ∧
    ∃ handle' h' k', osTaskCreateOnHeap HeapConfig.cortexM 100 σ.heap.heap Sys.boot.kernel none lateTask
        = some (.errNoMem, handle', h', k') ∧
      CreatedNothing HeapConfig.cortexM σ.heap.heap h' Sys.boot.kernel k' none handle' ∧
      k'.freed ≠ [] := by
  obtain ⟨σ, hr, hcall⟩ := exists_run_of_exec
    (fun σ op => op.Permitted HeapConfig.cortexM 100 σ) (taskHeapStep HeapConfig.cortexM 100)
    (.init HeapConfig.cortexM Heap.unset) fullTrace
    (fun σ => (osTaskCreateOnHeap HeapConfig.cortexM 100 σ.heap.heap Sys.boot.kernel none lateTask).map
      (fun r => (r.1, r.2.2.2.freed.length)) = some (.errNoMem, 1)) (by decide +kernel)
  have hidle : idleTaskStack < HeapConfig.cortexM.start ∨
      HeapConfig.cortexM.start + heapSize < idleTaskStack := by decide
  obtain ⟨st, handle', h', k', heq, hclean⟩ :=
    create_fails_atomically hidle hr Sys.boot.kernel none lateTask
  rw [heq] at hcall
  obtain ⟨rfl, hfreed⟩ : st = .errNoMem ∧ k'.freed.length = 1 := by simpa using hcall
  refine ⟨σ, hr, handle', h', k', heq, hclean (by decide), ?_⟩
  intro hnil
  rw [hnil] at hfreed
  cases hfreed

/-! ## Behind a frame on a header -/

/-- Memory at `0x01000000` that reads like the header of a free block of 256 bytes. The first stack of the
heap ends 4 bytes behind a multiple of 8, so xPSR is pushed into `next` of the header behind it. -/
def overwrittenTrace : List TaskHeapOp :=
  [.poke 0x01000000 [0, 0, 0, 0, 0, 1, 0, 0], .create 0x08000101 0 none 256]

/-- **After such a frame** a creation that fails is not atomic: its stack comes from the memory that xPSR
points to, and when the roll-back puts it into the list again, it heads the list. -/
theorem failed_create_moves_block :
    ¬ ∀ (c : HeapConfig) (tcbBytes : Nat) (h : Heap) (ops : List TaskHeapOp) (σ : TaskHeap) (k : Kernel)
      (handle : Option TaskId) (a : CreateArgs) (st : Status) (handle' : Option TaskId) (h' : Heap)
      (k' : Kernel),
      (idleTaskStack < c.start ∨ c.start + heapSize < idleTaskStack) →
      Run (fun σ op => op.Legal c σ) (taskHeapStep c tcbBytes) (.init c h) ops σ →
      osTaskCreateOnHeap c tcbBytes σ.heap.heap k handle a = some (st, handle', h', k') → st ≠ .ok →
      CreatedNothing c σ.heap.heap h' k k' handle handle' := by
  intro hall
  obtain ⟨σ, hr, ⟨st, handle', h', k'⟩, heq, hst, hmoved⟩ := exists_run_of_exec
    (fun σ op => op.Legal HeapConfig.cortexM σ) (taskHeapStep HeapConfig.cortexM 100)
    (.init HeapConfig.cortexM Heap.unset) overwrittenTrace
    (fun σ => ∃ r ∈ osTaskCreateOnHeap HeapConfig.cortexM 100 σ.heap.heap Sys.boot.kernel none lateTask,
      r.1 ≠ .ok ∧ r.2.2.1.blocks HeapConfig.cortexM ≠ σ.heap.heap.blocks HeapConfig.cortexM)
    (by decide +kernel)
  exact hmoved (hall _ _ _ _ σ _ _ _ st handle' h' k' (by decide) hr heq hst).blocks

end MiniRTOS
