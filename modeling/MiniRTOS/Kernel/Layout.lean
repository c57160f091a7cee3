import Mathlib.Data.List.Sort
import MiniRTOS.Kernel.WaitList

/-! # List layouts

The abstract view of the kernel's task lists: a `Layout` says which tasks are in which list, in
order. `ListsOk k L` connects it to the pointers of the kernel state — every list head, tail, count,
link and bitmap bit of `k` is the one that `L` prescribes, and no task is in two lists. The lemmas
below give, for each list function of `task.c` and for the wait-list functions, the layout after the
call. -/

namespace MiniRTOS

open PtrList

/-- The lists a task control block can be linked in. -/
inductive Place
  | ready (p : Prio) | blocked | wait (w : WaitList) | deferred
  deriving DecidableEq, Repr

/-- Which tasks are in which list, in order. -/
abbrev Layout := Place → List TaskId

/-- Replace one list of a layout. -/
def Layout.set (L : Layout) (P : Place) (l : List TaskId) : Layout := Function.update L P l

/-- Take a task out of one list of a layout. -/
def Layout.remove (L : Layout) (P : Place) (t : TaskId) : Layout := L.set P ((L P).erase t)

/-- What has been put in a place is there. -/
@[simp] theorem Layout.set_self (L : Layout) (P : Place) (l : List TaskId) : L.set P l P = l :=
  Function.update_self ..

/-- The other places keep their tasks. -/
theorem Layout.set_of_ne (L : Layout) {P Q : Place} (l : List TaskId) (h : Q ≠ P) :
    L.set P l Q = L Q := Function.update_of_ne h ..

/-- A place is the new one or an old one. -/
theorem Layout.set_apply (L : Layout) (P Q : Place) (l : List TaskId) :
    L.set P l Q = if Q = P then l else L Q := Function.update_apply ..

/-- The head pointer of each list in the kernel state. -/
def Kernel.listHead (k : Kernel) : Place → Option TaskId
  | .ready p => (k.readyList p).head
  | .blocked => k.blockedList
  | .wait w => k.waitHead w
  | .deferred => k.deferredDeleteList

/-- **The kernel's pointers follow a layout.** All lists but the deferred-delete list are linked
both ways; that one only uses `next`. -/
structure ListsOk (k : Kernel) (L : Layout) : Prop where
  /-- The doubly linked lists. -/
  seg : ∀ P, P ≠ .deferred → k.links.Seg none (L P) none
  /-- The deferred-delete list. -/
  path : Path k.links.next (L .deferred) none
  /-- Every head pointer. -/
  head : ∀ P, k.listHead P = (L P).head?
  /-- Every ready-list tail. -/
  tail : ∀ p, (k.readyList p).tail = (L (.ready p)).getLast?
  /-- Every ready-list count. -/
  count : ∀ p, (k.readyList p).count = (L (.ready p)).length
  /-- The bitmap bits of the priorities. -/
  bitmap : ∀ p : Prio, k.readyBitmap.getLsbD p = true ↔ L (.ready p) ≠ []
  /-- The other bitmap bits. -/
  bitmapHigh : ∀ i, numPriorities ≤ i → k.readyBitmap.getLsbD i = false
  /-- No task is twice in a list. -/
  nodup : ∀ P, (L P).Nodup
  /-- No task is in two lists. -/
  disjoint : ∀ P Q t, t ∈ L P → t ∈ L Q → P = Q

/-- The layout of a kernel without tasks. -/
def Layout.empty : Layout := fun _ => []

namespace ListsOk

variable {k k' : Kernel} {L : Layout} {t : TaskId} {P : Place}

/-- `ListsOk` only reads the links, the ready lists, the bitmap and the head pointers. -/
theorem congr (h : ListsOk k L) (hlinks : k'.links = k.links)
    (hready : k'.readyList = k.readyList) (hbits : k'.readyBitmap = k.readyBitmap)
    (hhead : ∀ P, k'.listHead P = k.listHead P) : ListsOk k' L where
  seg P hP := hlinks ▸ h.seg P hP
  path := hlinks ▸ h.path
  head P := (hhead P).trans (h.head P)
  tail p := hready ▸ h.tail p
  count p := hready ▸ h.count p
  bitmap p := hbits ▸ h.bitmap p
  bitmapHigh i hi := hbits ▸ h.bitmapHigh i hi
  nodup := h.nodup
  disjoint := h.disjoint

/-- The pointers follow one layout only. -/
theorem unique {L' : Layout} (h : ListsOk k L) (h' : ListsOk k L') (P : Place) : L P = L' P := by
  have hhead : (L P).head? = (L' P).head? := (h.head P).symm.trans (h'.head P)
  by_cases hP : P = .deferred
  · subst hP
    exact h.path.unique h'.path hhead
  · exact (h.seg P hP).path.unique (h'.seg P hP).path hhead

/-- A task in one list is in no other. -/
theorem not_mem_of_ne (h : ListsOk k L) {Q : Place} (hPQ : Q ≠ P) (ht : t ∈ L Q) : t ∉ L P :=
  fun ht' => hPQ (h.disjoint Q P t ht ht')

/-- After a task is taken out of its list it is in no list. -/
theorem not_mem_remove (h : ListsOk k L) (ht : t ∈ L P) (Q : Place) : t ∉ L.remove P t Q := by
  rw [Layout.remove, Layout.set_apply]
  split
  · exact (h.nodup P).not_mem_erase
  · next hQ => exact fun ht' => hQ (h.disjoint Q P t ht' ht)

/-- **Taking a task out of a doubly linked list.** Given the links after `unlink` and matching head
pointers, ready list and bitmap, the layout loses exactly that task. -/
theorem unlink (h : ListsOk k L) (hP : P ≠ .deferred) (ht : t ∈ L P)
    (hlinks : k'.links = k.links.unlink t)
    (hhead : ∀ Q, k'.listHead Q = (L.remove P t Q).head?)
    (htail : ∀ p, (k'.readyList p).tail = (L.remove P t (.ready p)).getLast?)
    (hcount : ∀ p, (k'.readyList p).count = (L.remove P t (.ready p)).length)
    (hbits : ∀ p : Prio, k'.readyBitmap.getLsbD p = true ↔ L.remove P t (.ready p) ≠ [])
    (hhigh : ∀ i, numPriorities ≤ i → k'.readyBitmap.getLsbD i = false) :
    ListsOk k' (L.remove P t) := by
  obtain ⟨l, r, hl, he⟩ := exists_mid_of_mem ht (h.nodup P)
  have hseg := hl ▸ h.seg P hP
  -- the other lists lose nothing, so what was apart stays apart
  have hsub : ∀ Q x, x ∈ L.remove P t Q → x ∈ L Q := by
    intro Q x hx
    rw [Layout.remove, Layout.set_apply] at hx
    split at hx
    · next hQ => exact hQ ▸ List.mem_of_mem_erase hx
    · exact hx
  have hdisj : ∀ Q, Q ≠ P → ∀ x ∈ L Q, x ∉ l ++ t :: r := fun Q hQ x hx =>
    hl ▸ h.not_mem_of_ne hQ hx
  refine ⟨fun Q hQ => ?_, ?_, hhead, htail, hcount, hbits, hhigh, fun Q => ?_,
    fun Q R x hx hx' => h.disjoint Q R x (hsub Q x hx) (hsub R x hx')⟩
  · rw [hlinks, Layout.remove, Layout.set_apply]
    split
    · rw [he]
      exact hseg.unlink (hl ▸ h.nodup P)
    · next hQP => exact hseg.unlink_frame (h.seg Q hQ) (hdisj Q hQP)
  · rw [hlinks, Layout.remove, Layout.set_of_ne _ _ hP.symm]
    exact hseg.unlink_path h.path (hdisj _ hP.symm)
  · rw [Layout.remove, Layout.set_apply]
    split
    · exact (h.nodup P).erase t
    · exact h.nodup Q

/-- A task in no list can be put into one. -/
theorem disjoint_set {l : List TaskId} (h : ListsOk k L) (ht : ∀ Q, t ∉ L Q)
    (hl : ∀ x ∈ l, x = t ∨ x ∈ L P) (Q R : Place) (x : TaskId) (hx : x ∈ L.set P l Q)
    (hx' : x ∈ L.set P l R) : Q = R := by
  have hmem : ∀ Q, x ∈ L.set P l Q → x ∈ L Q ∨ x = t ∧ Q = P := by
    intro Q hx
    rw [Layout.set_apply] at hx
    split at hx
    · next hQ =>
        rcases hl x hx with hxt | hx
        · exact Or.inr ⟨hxt, hQ⟩
        · exact Or.inl (hQ ▸ hx)
    · exact Or.inl hx
  rcases hmem Q hx with hx | ⟨rfl, hQ⟩ <;> rcases hmem R hx' with hx' | ⟨hxt, hR⟩
  · exact h.disjoint Q R x hx hx'
  · exact absurd (hxt ▸ hx) (ht Q)
  · exact absurd hx' (ht R)
  · rw [hQ, hR]

/-- **Putting a task into a doubly linked list** between the halves `l` and `r`. -/
theorem splice {l r : List TaskId} (h : ListsOk k L) (hP : P ≠ .deferred) (hl : L P = l ++ r)
    (ht : ∀ Q, t ∉ L Q) (hlinks : k'.links = k.links.splice t l.getLast? r.head?)
    (hhead : ∀ Q, k'.listHead Q = (L.set P (l ++ t :: r) Q).head?)
    (htail : ∀ p, (k'.readyList p).tail = (L.set P (l ++ t :: r) (.ready p)).getLast?)
    (hcount : ∀ p, (k'.readyList p).count = (L.set P (l ++ t :: r) (.ready p)).length)
    (hbits : ∀ p : Prio, k'.readyBitmap.getLsbD p = true ↔ L.set P (l ++ t :: r) (.ready p) ≠ [])
    (hhigh : ∀ i, numPriorities ≤ i → k'.readyBitmap.getLsbD i = false) :
    ListsOk k' (L.set P (l ++ t :: r)) := by
  have htP := hl ▸ ht P
  have hseg := hl ▸ h.seg P hP
  have hnd := hl ▸ h.nodup P
  -- the one newcomer is `t`, which was in no list
  have hmem : ∀ x ∈ l ++ t :: r, x = t ∨ x ∈ L P := by
    intro x hx
    rw [hl]
    simp only [List.mem_append, List.mem_cons] at hx ⊢
    tauto
  have hdisj : ∀ Q, Q ≠ P → ∀ x ∈ L Q, x ∉ l ++ r := fun Q hQ x hx =>
    hl ▸ h.not_mem_of_ne hQ hx
  refine ⟨fun Q hQ => ?_, ?_, hhead, htail, hcount, hbits, hhigh, fun Q => ?_,
    h.disjoint_set ht hmem⟩
  · rw [hlinks, Layout.set_apply]
    split
    · exact hseg.splice hnd htP
    · next hQP => exact (h.seg Q hQ).splice_frame (ht Q) (hdisj Q hQP)
  · rw [hlinks, Layout.set_of_ne _ _ hP.symm]
    exact Links.splice_path h.path (ht _) (hdisj _ hP.symm)
  · rw [Layout.set_apply]
    split
    · rw [List.nodup_middle]
      exact List.nodup_cons.mpr ⟨htP, hnd⟩
    · exact h.nodup Q

/-- The fields of a task in no list can be rewritten freely. -/
theorem relink (h : ListsOk k L) (ht : ∀ P, t ∉ L P)
    (hnext : ∀ x, x ≠ t → k'.links.next x = k.links.next x)
    (hprev : ∀ x, x ≠ t → k'.links.prev x = k.links.prev x)
    (hready : k'.readyList = k.readyList) (hbits : k'.readyBitmap = k.readyBitmap)
    (hhead : ∀ P, k'.listHead P = k.listHead P) : ListsOk k' L := by
  have hne : ∀ P, ∀ x ∈ L P, x ≠ t := fun P x hx hxt => ht P (hxt ▸ hx)
  refine ⟨fun P hP => ?_, ?_, fun P => (hhead P).trans (h.head P), fun p => hready ▸ h.tail p,
    fun p => hready ▸ h.count p, fun p => hbits ▸ h.bitmap p,
    fun i hi => hbits ▸ h.bitmapHigh i hi, h.nodup, h.disjoint⟩
  · exact (h.seg P hP).congr (fun x hx => hnext x (hne P x hx)) fun x hx => hprev x (hne P x hx)
  · exact h.path.congr fun x hx => hnext x (hne _ x hx)

/-- **Pushing a task on the deferred-delete list.** -/
theorem pushDeferred (h : ListsOk k L) (ht : ∀ P, t ∉ L P) :
    ListsOk { k with
        links := k.links.setNext t k.deferredDeleteList
        deferredDeleteList := some t }
      (L.set .deferred (t :: L .deferred)) := by
  have hother : ∀ Q, Q ≠ .deferred → L.set .deferred (t :: L .deferred) Q = L Q :=
    fun Q hQ => Layout.set_of_ne _ _ hQ
  -- the deferred list is linked through `next` too, and no listed task is `t`
  have hnext : ∀ P, ∀ x ∈ L P, (k.links.setNext t k.deferredDeleteList).next x = k.links.next x :=
    fun P x hx => Function.update_of_ne (fun hxt : x = t => ht P (hxt ▸ hx)) _ _
  have hready : ∀ p, L.set .deferred (t :: L .deferred) (.ready p) = L (.ready p) :=
    fun p => hother _ (by simp)
  refine ⟨fun Q hQ => ?_, ?_, fun Q => ?_, fun p => ?_, fun p => ?_, fun p => ?_, h.bitmapHigh,
    fun Q => ?_, h.disjoint_set ht fun x hx => List.mem_cons.mp hx⟩
  · rw [hother Q hQ]
    exact (h.seg Q hQ).congr (hnext Q) fun x hx => rfl
  · rw [Layout.set_self, path_cons]
    refine ⟨?_, h.path.congr (hnext .deferred)⟩
    have hhead := h.head .deferred
    simp only [Kernel.listHead] at hhead
    rw [Links.setNext_next, Function.update_self, hhead, Option.or_none]
  · by_cases hQ : Q = .deferred
    · subst hQ
      rw [Layout.set_self]
      rfl
    · rw [hother Q hQ, ← h.head Q]
      cases Q with
      | deferred => exact absurd rfl hQ
      | wait w => cases w <;> rfl
      | _ => rfl
  · rw [hready]
    exact h.tail p
  · rw [hready]
    exact h.count p
  · rw [hready]
    exact h.bitmap p
  · rw [Layout.set_apply]
    split
    · exact List.nodup_cons.mpr ⟨ht _, h.nodup _⟩
    · exact h.nodup Q

end ListsOk

end MiniRTOS
