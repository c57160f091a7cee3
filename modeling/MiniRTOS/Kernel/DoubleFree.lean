import MiniRTOS.Kernel.HeapRequests

/-! # Freeing twice

`os_heap_free` looks at the size word in front of the pointer and returns when its top bit is clear. The
header of a freed block leaves the list when the block is merged into the one before it, but the word
stays in memory, inside a free block, where nobody writes until an allocation takes that block.

* **`Heap.DeadHeader`** — where the header of a freed block is found, and what it says.
* **`heap_double_free`** — until the next allocation, freeing the pointer again changes nothing. -/

namespace MiniRTOS

open ByteMemory Runs Tiling Heap

variable {c : HeapConfig} {h h' : Heap} {s s₀ s₁ s' : HeapSys} {bs bs' l r : List Block}
  {b b' d : Block} {a p q : Nat}

/-! ## Headers that left the list -/

/-- **A dead header**: that of a free block, or what is left of one in the data area of a free block. -/
def Heap.DeadHeader (c : HeapConfig) (h : Heap) (bs : List Block) (a : Addr) : Prop :=
  ∃ b ∈ bs, b.used = false ∧ (b.addr = a ∨
    b.data c.header ≤ a ∧ a + c.header ≤ b.finish c.header ∧ prvBlockIsAllocated c h.mem a = false)

/-- It reads as not allocated. -/
theorem Heap.DeadHeader.not_allocated (hd : h.DeadHeader c bs a) (ht : Tiled c h bs) :
    prvBlockIsAllocated c h.mem a = false := by
  obtain ⟨b, hb, hfree, rfl | ⟨-, -, hword⟩⟩ := hd
  · rw [ht.isAllocated hb, hfree]
  · exact hword

/-- A header whose bytes stay reads as before. -/
theorem prvBlockIsAllocated_congr {m m' : Mem}
    (h : ∀ x, a ≤ x → x < a + c.header → m' x = m x) :
    prvBlockIsAllocated c m' a = prvBlockIsAllocated c m a := by
  unfold prvBlockIsAllocated
  rw [sizeWord_congr h]

/-- **Writing outside the free data areas**, with the free blocks where they were. -/
theorem Heap.DeadHeader.frame (hd : h.DeadHeader c bs a)
    (hmem : ∀ b ∈ bs, b.used = false → ∀ x, b.data c.header ≤ x → x < b.finish c.header →
      h'.mem x = h.mem x)
    (hsub : ∀ b ∈ bs, b.used = false → b ∈ bs') : h'.DeadHeader c bs' a := by
  obtain ⟨b, hb, hfree, hplace⟩ := hd
  refine ⟨b, hsub b hb hfree, hfree, ?_⟩
  rcases hplace with rfl | ⟨hle, hle', hword⟩
  · exact Or.inl rfl
  · refine Or.inr ⟨hle, hle', ?_⟩
    have hsame : prvBlockIsAllocated c h'.mem a = prvBlockIsAllocated c h.mem a := by
      apply prvBlockIsAllocated_congr
      intro x hx hx'
      exact hmem b hb hfree x (Nat.le_trans hle hx) (Nat.lt_of_lt_of_le hx' hle')
    rw [hsame, hword]

/-- Writing into headers on the list is such a write. -/
theorem Heap.DeadHeader.touched {A : List Nat} (hd : h.DeadHeader c bs a) (ht : Tiled c h bs)
    (htouch : Touched c A h.mem h'.mem) (hA : A ⊆ bs.map Block.addr)
    (hsub : ∀ b ∈ bs, b.used = false → b ∈ bs') : h'.DeadHeader c bs' a := by
  refine hd.frame (fun b hb _ x hx hx' => htouch x fun y hy => ?_) hsub
  obtain ⟨e, he, rfl⟩ := List.mem_map.mp (hA hy)
  exact ht.data_apart hb he hx hx'

/-! ## Merging -/

/-- A block that takes in the one behind it. -/
theorem mem_join_of_ne (hdr : Nat) (hx : d ∈ l ++ b :: b' :: r) (hb : d ≠ b) (hb' : d ≠ b') :
    d ∈ l ++ b.join hdr b' :: r := by
  simp only [List.mem_append, List.mem_cons] at hx ⊢
  tauto

/-- **A merge keeps dead headers**, and makes one of the header that it takes off the list. -/
theorem Heap.DeadHeader.absorb (hd : h.DeadHeader c (l ++ b :: b' :: r) a)
    (ht : Tiled c h (l ++ b :: b' :: r)) (hb' : b'.used = false) :
    (MiniRTOS.absorb c h b.addr b'.addr).DeadHeader c (l ++ b.join c.header b' :: r) a := by
  obtain ⟨-, htouch⟩ := ht.absorb
  have hmem : b ∈ l ++ b :: b' :: r := by simp
  have hmem' : b' ∈ l ++ b :: b' :: r := by simp
  have hnext : b.finish c.header = b'.addr := (tiles_mid.mp ht.tiles).2.1.symm
  have hend : (b.join c.header b').finish c.header = b'.finish c.header := by
    simp only [Block.join, Block.finish] at hnext ⊢
    omega
  -- only the header of `b` is written
  have hkeep : ∀ d ∈ l ++ b :: b' :: r, ∀ x, d.data c.header ≤ x → x < d.finish c.header →
      (MiniRTOS.absorb c h b.addr b'.addr).mem x = h.mem x := by
    intro d hd x hx hx'
    refine htouch x fun y hy => ?_
    rw [List.mem_singleton.mp hy]
    exact ht.data_apart hd hmem hx hx'
  have hjoin : b.join c.header b' ∈ l ++ b.join c.header b' :: r := by simp
  have hword : ∀ d ∈ l ++ b :: b' :: r, d.data c.header ≤ a → a + c.header ≤ d.finish c.header →
      prvBlockIsAllocated c h.mem a = false →
      prvBlockIsAllocated c (MiniRTOS.absorb c h b.addr b'.addr).mem a = false := by
    intro d hd hle hle' hfree
    have hsame : prvBlockIsAllocated c (MiniRTOS.absorb c h b.addr b'.addr).mem a
        = prvBlockIsAllocated c h.mem a := by
      apply prvBlockIsAllocated_congr
      intro x hx hx'
      exact hkeep d hd x (Nat.le_trans hle hx) (Nat.lt_of_lt_of_le hx' hle')
    rw [hsame, hfree]
  obtain ⟨d, hdm, hfree, hplace⟩ := hd
  by_cases hdb : d = b
  · subst hdb
    refine ⟨d.join c.header b', hjoin, rfl, ?_⟩
    rcases hplace with rfl | ⟨hle, hle', hdead⟩
    · exact Or.inl rfl
    · refine Or.inr ⟨hle, ?_, hword d hmem hle hle' hdead⟩
      rw [hend]
      refine Nat.le_trans hle' ?_
      rw [hnext]
      exact Nat.le_add_right_of_le (Nat.le_add_right _ _)
  · by_cases hdb' : d = b'
    · subst hdb'
      refine ⟨b.join c.header d, hjoin, rfl, Or.inr ?_⟩
      rw [hend]
      rcases hplace with rfl | ⟨hle, hle', hdead⟩
      · -- the header of the second block, which was not written
        refine ⟨?_, Nat.le_add_right _ _, ?_⟩
        · rw [← hnext]
          exact Nat.le_add_right _ _
        · have hsame : prvBlockIsAllocated c (MiniRTOS.absorb c h b.addr d.addr).mem d.addr
              = prvBlockIsAllocated c h.mem d.addr := by
            apply prvBlockIsAllocated_congr
            intro x hx _
            refine htouch x fun y hy => Or.inr ?_
            rw [List.mem_singleton.mp hy]
            rw [Block.finish] at hnext
            omega
          rw [hsame, ht.isAllocated hdm, hfree]
      · refine ⟨?_, hle', hword d hdm hle hle' hdead⟩
        simp only [Block.data, Block.join, Block.finish] at hle hnext ⊢
        omega
    · refine ⟨d, mem_join_of_ne c.header hdm hdb hdb', hfree, ?_⟩
      rcases hplace with rfl | ⟨hle, hle', hdead⟩
      · exact Or.inl rfl
      · exact Or.inr ⟨hle, hle', hword d hdm hle hle' hdead⟩

/-- The first merge of `prv_insert_block`. -/
theorem Heap.DeadHeader.coalescePrev {x : Addr} (hd : h.DeadHeader c (l ++ b :: r) a)
    (ht : Tiled c h (l ++ b :: r)) (hb : b.used = false)
    (heq : MiniRTOS.coalescePrev c h (l.map Block.addr).getLast? b.addr = (h', x)) :
    h'.DeadHeader c ((joinPrev c.header l b).1 ++ (joinPrev c.header l b).2 :: r) a := by
  rcases List.eq_nil_or_concat' l with rfl | ⟨l, p, rfl⟩
  · obtain ⟨rfl, -⟩ := Prod.mk.inj heq
    exact hd
  · have hp : p ∈ l ++ [p] ++ b :: r := by simp
    have hend : p.addr + c.header + p.size = b.addr := by
      rw [List.append_assoc] at ht
      exact (tiles_mid.mp ht.tiles).2.1.symm
    rw [joinPrev_concat]
    rw [List.map_append, List.map_singleton, List.getLast?_concat, MiniRTOS.coalescePrev,
      ht.getSize hp, ht.isAllocated hp] at heq
    cases hu : p.used with
    | true =>
        simp only [hu, Bool.true_eq_false, and_false, if_false] at heq
        obtain ⟨rfl, -⟩ := Prod.mk.inj heq
        simpa [hu] using hd
    | false =>
        simp only [hu, hend, and_self, if_true] at heq
        obtain ⟨rfl, -⟩ := Prod.mk.inj heq
        rw [List.append_assoc] at ht hd
        simpa [hu] using hd.absorb ht hb

/-- The second merge. -/
theorem Heap.DeadHeader.coalesceNext (hd : h.DeadHeader c (l ++ b :: r) a)
    (ht : Tiled c h (l ++ b :: r)) (heq : MiniRTOS.coalesceNext c h b.addr = h') :
    h'.DeadHeader c (l ++ (joinNext c.header b r).1 :: (joinNext c.header b r).2) a := by
  rw [MiniRTOS.coalesceNext, ht.next_mid] at heq
  cases r with
  | nil =>
      obtain rfl := heq
      exact hd
  | cons q r =>
      have hq : q ∈ l ++ b :: q :: r := by simp
      have hend : b.addr + c.header + b.size = q.addr := (tiles_mid.mp ht.tiles).2.1.symm
      rw [List.map_cons, List.head?_cons] at heq
      simp only [ht.getSize (b := b) (by simp), ht.isAllocated hq, hend, true_and] at heq
      cases hu : q.used with
      | true =>
          rw [if_neg (by simp [hu])] at heq
          obtain rfl := heq
          simpa [joinNext, hu] using hd
      | false =>
          rw [if_pos hu] at heq
          obtain rfl := heq
          simpa [joinNext, hu] using hd.absorb ht hu

/-! ## Calls -/

/-- **`os_heap_free` keeps dead headers**, and leaves one in the place of the block. -/
theorem Heap.Tiled.free_deadHeader (ht : Tiled c h (l ++ b :: r)) (hi : h.heapInitialized = true)
    (hb : b.used = true) (heq : MiniRTOS.osHeapFree c h (some (b.data c.header)) = some h')
    (hd : a = b.addr ∨ h.DeadHeader c (l ++ b :: r) a) :
    h'.DeadHeader c (release c.header l b r) a := by
  obtain ⟨h₁, h₂, h₃, heq', ht₁, -, htouch₁, hprev, hnext⟩ := ht.osHeapFree_stages hi hb
  obtain rfl := Option.some.inj (heq'.symm.trans heq)
  have hd₁ : h₁.DeadHeader c (l ++ b.freed :: r) a := by
    rcases hd with rfl | hd
    · exact ⟨b.freed, by simp, rfl, Or.inl rfl⟩
    · refine hd.touched ht htouch₁ ?_ fun x hx hfree => ?_
      · intro x hx
        simp only [List.map_append, List.map_cons, List.mem_append, List.mem_cons, Block.freed,
          List.map_nil, List.not_mem_nil, or_false] at hx ⊢
        tauto
      · -- a free block is another one than the block that is freed
        have hxb : x ≠ b := by
          rintro rfl
          rw [hb] at hfree
          cases hfree
        simp only [List.mem_append, List.mem_cons] at hx ⊢
        tauto
  obtain ⟨h₂', hprev', ht₂, -⟩ := ht₁.coalescePrev
  obtain rfl : h₂' = h₂ := (Prod.mk.inj (hprev'.symm.trans hprev)).1
  exact (hd₁.coalescePrev ht₁ rfl hprev).coalesceNext ht₂ hnext

/-- So do writes into live allocations. -/
theorem HeapInv.write_deadHeader {off : Nat} {bytes : List UInt8} (hI : HeapInv c s bs)
    (hd : s.heap.DeadHeader c bs a) (hp : p ∈ s.live)
    (hoff : off + bytes.length ≤ prvBlockGetSize c s.heap.mem (p - c.header)) :
    ({ s.heap with mem := writeBytes s.heap.mem (p + off) bytes } : Heap).DeadHeader c bs a := by
  obtain ⟨d, hdm, hu, rfl⟩ := (hI.live p).mp hp
  have hblock : d.data c.header - c.header = d.addr := Nat.add_sub_cancel ..
  rw [hblock, hI.tiled.getSize hdm] at hoff
  refine hd.frame (fun b hb hfree x hx hx' => writeBytes_of_not_mem _ ?_) fun b hb _ => hb
  have hne : b ≠ d := by
    rintro rfl
    rw [hu] at hfree
    cases hfree
  have happart := hI.tiled.tiles.apart hb hdm hne
  simp only [Block.data, Block.finish] at *
  omega

/-- A call that allocates nothing: a free, or a write of the caller. -/
def HeapOp.Quiet : HeapOp → Prop
  | .free _ => True
  | .write .. => True
  | _ => False

/-- Whether a call allocates nothing can be decided. -/
instance : DecidablePred HeapOp.Quiet
  | .alloc _ | .realloc .. => inferInstanceAs (Decidable False)
  | .free _ | .write .. => inferInstanceAs (Decidable True)

/-- **One such call.** -/
theorem HeapInv.quiet_step {op : HeapOp} (hI : HeapInv c s bs) (hd : s.heap.DeadHeader c bs a)
    (hop : op.Allowed c s) (hq : op.Quiet) (hs : heapStep c s op = some s') :
    ∃ bs', HeapInv c s' bs' ∧ s'.heap.DeadHeader c bs' a := by
  cases op with
  | alloc n => cases hq
  | realloc ptr n => cases hq
  | free ptr =>
      cases ptr with
      | none =>
          obtain rfl := Option.some.inj hs
          exact ⟨bs, hI, hd⟩
      | some p =>
          have hp : p ∈ s.live := hop p rfl
          obtain ⟨h', bs', heq, hI', -, l, b, r, rfl, rfl, hu, rfl, -⟩ := hI.free hp
          rw [heapStep, heq] at hs
          obtain rfl := Option.some.inj hs
          exact ⟨_, hI', hI.tiled.free_deadHeader hI.initialized hu heq (Or.inr hd)⟩
  | write p off bytes =>
      obtain rfl := Option.some.inj hs
      exact ⟨bs, (hI.write hop.1 hop.2).1, hI.write_deadHeader hd hop.1 hop.2⟩

/-- **A double free is harmless.** When a live pointer is freed after any sequence of permitted calls and
writes, then as long as only other live allocations are freed and written to, freeing it once more
leaves the heap as it is: every byte of it, the list and the counters. -/
theorem heap_double_free {rs : List HeapRequest} {ops : List HeapOp}
    (hr : Run (fun s r => r.Allowed c s) (requestStep c) (HeapSys.init c h) rs s₀) (hp : p ∈ s₀.live)
    (hfree : heapStep c s₀ (.free (some p)) = some s₁)
    (hquiet : Run (fun s op => op.Allowed c s ∧ op.Quiet) (heapStep c) s₁ ops s) :
    osHeapFree c s.heap (some p) = some s.heap := by
  obtain ⟨bs₀, hI₀⟩ := heapInv_of_requests hr
  obtain ⟨h₁, bs₁, heq, hI₁, -, l, b, r, rfl, rfl, hu, rfl, -⟩ := hI₀.free hp
  rw [heapStep, heq] at hfree
  obtain rfl := Option.some.inj hfree
  have hd₁ : h₁.DeadHeader c (release c.header l b r) b.addr :=
    hI₀.tiled.free_deadHeader hI₀.initialized hu heq (Or.inl rfl)
  -- the header stays dead whatever is merged around it
  obtain ⟨bs, hI, hd⟩ := hquiet.invariant
    (fun s => ∃ bs, HeapInv c s bs ∧ s.heap.DeadHeader c bs b.addr)
    (fun s op s' hinv hop hs =>
      hinv.elim fun _ h => h.1.quiet_step h.2 hop.1 hop.2 hs) ⟨_, hI₁, hd₁⟩
  have hblock : b.data c.header - c.header = b.addr := Nat.add_sub_cancel ..
  rw [osHeapFree, hblock, if_pos (Or.inr (hd.not_allocated hI.tiled))]

/-- Three allocations in a row: the second one is freed, then the first and the third one. -/
def mergeTrace : List HeapRequest := [.call (.alloc 24), .call (.alloc 24), .call (.alloc 24)]

/-- A block that was merged into its neighbour is not freed again. -/
theorem heap_double_free_merged : ∃ s₀ s₁ s : HeapSys,
    Run (fun s r => HeapRequest.Allowed HeapConfig.cortexM s r) (requestStep HeapConfig.cortexM)
      (HeapSys.init HeapConfig.cortexM Heap.unset) mergeTrace s₀ ∧
    heapStep HeapConfig.cortexM s₀ (.free (some 0x20000430)) = some s₁ ∧
    Run (fun s op => op.Allowed HeapConfig.cortexM s ∧ op.Quiet) (heapStep HeapConfig.cortexM) s₁
      [.free (some 0x2000040C), .free (some 0x20000454)] s ∧
    osHeapFree HeapConfig.cortexM s.heap (some 0x20000430) = some s.heap := by
  obtain ⟨s₀, hr, hlive, hrest⟩ := exists_run_of_exec
    (fun s r => HeapRequest.Allowed HeapConfig.cortexM s r) (requestStep HeapConfig.cortexM)
    (HeapSys.init HeapConfig.cortexM Heap.unset) mergeTrace
    (fun s₀ => 0x20000430 ∈ s₀.live ∧
      ((heapStep HeapConfig.cortexM s₀ (.free (some 0x20000430))).any fun s₁ =>
        (exec (fun s op => HeapOp.Allowed HeapConfig.cortexM s op ∧ op.Quiet)
          (heapStep HeapConfig.cortexM) s₁
          [.free (some 0x2000040C), .free (some 0x20000454)]).isSome) = true) (by decide +kernel)
  obtain ⟨s₁, hs₁, hexec⟩ := (Option.any_eq_true ..).mp hrest
  obtain ⟨s, hs⟩ := Option.isSome_iff_exists.mp hexec
  have hquiet := run_of_exec hs
  exact ⟨s₀, s₁, s, hr, hs₁, hquiet, heap_double_free hr hlive hs₁ hquiet⟩

end MiniRTOS
