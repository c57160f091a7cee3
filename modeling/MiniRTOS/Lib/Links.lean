import Mathlib.Algebra.Ring.Nat
import Mathlib.Data.List.Nodup
import Mathlib.Logic.Relation
import Mathlib.Logic.Function.Basic

/-! # Doubly and singly linked lists over pointer fields

A heap of nodes is kept field by field: `Links α` holds the `next` and the `prev` field of every
node of type `α`, with `none` for the null pointer. A list of nodes is *represented* when the
fields agree with it:

* **`Links.Seg s p l q`** — the nodes of `l` are linked both ways, the first one points back to `p`
  and the last one forward to `q`.
* **`Links.unlink s a`** — take node `a` out of the list it is in, and clear its two fields.
* **`Links.splice s a p q`** — put node `a` between the nodes `p` and `q` (either may be null).
* **`Path nx l q`** — the singly linked reading: only the `next` fields count; **`follow`** computes
  it from its first node. -/

namespace PtrList

universe u

variable {α : Type u}

/-- The `next` and `prev` fields of every node. -/
structure Links (α : Type u) where
  /-- The forward pointer of each node. -/
  next : α → Option α
  /-- The backward pointer of each node. -/
  prev : α → Option α

/-! ## Singly linked paths -/

/-- **A singly linked path.** The nodes of `l` follow one another through `nx`, and the last one
points to `q`. -/
def Path (nx : α → Option α) : List α → Option α → Prop
  | [], _ => True
  | a :: l, q => nx a = l.head?.or q ∧ Path nx l q

/-- The path through no node. -/
@[simp] theorem path_nil (nx : α → Option α) (q : Option α) : Path nx [] q := trivial

/-- A path through a first node and the rest. -/
theorem path_cons (nx : α → Option α) (a : α) (l : List α) (q : Option α) :
    Path nx (a :: l) q ↔ nx a = l.head?.or q ∧ Path nx l q := Iff.rfl

/-- The head and the pointers determine a path that ends. -/
theorem Path.unique {nx : α → Option α} {l r : List α} (hl : Path nx l none) (hr : Path nx r none)
    (h : l.head? = r.head?) : l = r := by
  induction l generalizing r with
  | nil => exact (List.head?_eq_none_iff.mp h.symm).symm
  | cons a l ih =>
      cases r with
      | nil => cases h
      | cons b r =>
          obtain rfl : a = b := Option.some.inj h
          have hnext : l.head?.or none = r.head?.or none := hl.1.symm.trans hr.1
          rw [Option.or_none, Option.or_none] at hnext
          rw [ih hl.2 hr.2 hnext]

/-- The node before the end of a walk that started with `p` behind it. -/
theorem getLast?_cons_or (a : α) (l : List α) (p : Option α) :
    (a :: l).getLast?.or p = l.getLast?.or (some a) := by
  rw [List.getLast?_cons]
  cases l.getLast? <;> rfl

/-- A path splits at any point: the first half ends where the second one begins. -/
theorem path_append (nx : α → Option α) (l r : List α) (q : Option α) :
    Path nx (l ++ r) q ↔ Path nx l (r.head?.or q) ∧ Path nx r q := by
  induction l with
  | nil => simp
  | cons a l ih =>
      rw [List.cons_append, path_cons, path_cons, ih, List.head?_append, Option.or_assoc, and_assoc]

/-- A path only reads the fields of its own nodes. -/
theorem Path.congr {nx nx' : α → Option α} {l : List α} {q : Option α} (h : Path nx l q)
    (hnx : ∀ x ∈ l, nx' x = nx x) : Path nx' l q := by
  induction l with
  | nil => trivial
  | cons a l ih =>
      rw [path_cons] at h ⊢
      exact ⟨(hnx a (by simp)).trans h.1, ih h.2 fun x hx => hnx x (by simp [hx])⟩

/-- Walking a path: the first pointer of the second half is the field of the last node of the
first. -/
theorem Path.next_of_append {nx : α → Option α} {l r : List α} {a : α} {q : Option α}
    (h : Path nx (l ++ a :: r) q) : nx a = r.head?.or q := by
  rw [path_append, path_cons] at h
  exact h.2.1

/-- The nodes of a path that ends are those its first node leads to. -/
theorem Path.mem_iff_reaches {nx : α → Option α} {a t : α} {l : List α} (h : Path nx (a :: l) none) :
    t ∈ a :: l ↔ Relation.ReflTransGen (fun x y => nx x = some y) a t := by
  constructor
  · intro ht
    induction l generalizing a with
    | nil =>
        obtain rfl := List.mem_singleton.mp ht
        exact .refl
    | cons b l ih =>
        rcases List.mem_cons.mp ht with rfl | ht
        · exact .refl
        · exact .head h.1 (ih h.2 ht)
  · intro hr
    induction hr with
    | refl => simp
    | tail _ hnext ih =>
        obtain ⟨l₁, l₂, hl⟩ := List.append_of_mem ih
        rw [hl] at h ⊢
        rw [h.next_of_append, Option.or_none] at hnext
        simp [List.mem_of_mem_head? hnext]

/-- The nodes that the pointers lead through from a head on, at most `n` of them. -/
def follow (nx : α → Option α) : Nat → Option α → List α
  | 0, _ => []
  | _ + 1, none => []
  | n + 1, some a => a :: follow nx n (nx a)

/-- Following the pointers gives the path. -/
theorem Path.follow_eq {nx : α → Option α} {l : List α} {n : Nat} (h : Path nx l none)
    (hn : l.length ≤ n) : follow nx n l.head? = l := by
  induction l generalizing n with
  | nil => cases n <;> rfl
  | cons a l ih =>
      obtain ⟨n, rfl⟩ : ∃ k, n = k + 1 := ⟨n - 1, by simp at hn; omega⟩
      rw [List.head?_cons, follow, h.1, Option.or_none, ih h.2 (by simpa using hn)]

/-- **Redirecting the end of a path.** Changing the last node's pointer moves the whole path's
end. -/
theorem Path.redirect {nx nx' : α → Option α} {l : List α} {q q' : Option α} (h : Path nx l q)
    (hnx : ∀ x ∈ l, l.getLast? ≠ some x → nx' x = nx x)
    (hlast : ∀ x, l.getLast? = some x → nx' x = q') (hnd : l.Nodup) : Path nx' l q' := by
  induction l with
  | nil => trivial
  | cons a l ih =>
      rw [path_cons] at h ⊢
      obtain ⟨hal, hnd⟩ := List.nodup_cons.mp hnd
      cases l with
      | nil => exact ⟨by simpa using hlast a rfl, trivial⟩
      | cons b l =>
          refine ⟨?_, ih h.2 (fun x hx hne => hnx x (by simp [hx]) ?_) (fun x hx => hlast x ?_) hnd⟩
          · have hne : (a :: b :: l).getLast? ≠ some a := by
              rw [List.getLast?_cons_cons]
              intro hl
              exact hal (List.mem_of_getLast? hl)
            rw [hnx a (by simp) hne, h.1]
            simp
          · rwa [List.getLast?_cons_cons]
          · rwa [List.getLast?_cons_cons]

/-! ## Doubly linked segments -/

namespace Links

variable (s : Links α)

/-- **A doubly linked segment.** The nodes of `l` are linked both ways in this order; the first
one's `prev` is `p` and the last one's `next` is `q`. -/
def Seg (s : Links α) : Option α → List α → Option α → Prop
  | _, [], _ => True
  | p, a :: l, q => s.prev a = p ∧ s.next a = l.head?.or q ∧ Seg s (some a) l q

/-- The segment of no node. -/
@[simp] theorem seg_nil (p q : Option α) : s.Seg p [] q := trivial

/-- A segment of a first node and the rest. -/
theorem seg_cons (p : Option α) (a : α) (l : List α) (q : Option α) :
    s.Seg p (a :: l) q ↔ s.prev a = p ∧ s.next a = l.head?.or q ∧ s.Seg (some a) l q := Iff.rfl

/-- A segment splits at any point. -/
theorem seg_append (p : Option α) (l r : List α) (q : Option α) :
    s.Seg p (l ++ r) q ↔ s.Seg p l (r.head?.or q) ∧ s.Seg (l.getLast?.or p) r q := by
  induction l generalizing p with
  | nil => simp
  | cons a l ih =>
      have hlast : (a :: l).getLast?.or p = l.getLast?.or (some a) := by
        cases l <;> simp [List.getLast?_cons]
      rw [List.cons_append, seg_cons, seg_cons, ih, hlast, List.head?_append, Option.or_assoc,
        and_assoc, and_assoc]

/-- The forward reading of a segment is a path. -/
theorem Seg.path {s : Links α} {p q : Option α} {l : List α} (h : s.Seg p l q) :
    Path s.next l q := by
  induction l generalizing p with
  | nil => trivial
  | cons a l ih => exact ⟨h.2.1, ih h.2.2⟩

/-- A segment only reads the fields of its own nodes. -/
theorem Seg.congr {s s' : Links α} {p q : Option α} {l : List α} (h : s.Seg p l q)
    (hnx : ∀ x ∈ l, s'.next x = s.next x) (hpv : ∀ x ∈ l, s'.prev x = s.prev x) :
    s'.Seg p l q := by
  induction l generalizing p with
  | nil => trivial
  | cons a l ih =>
      rw [seg_cons] at h ⊢
      exact ⟨(hpv a (by simp)).trans h.1, (hnx a (by simp)).trans h.2.1,
        ih h.2.2 (fun x hx => hnx x (by simp [hx])) fun x hx => hpv x (by simp [hx])⟩

/-- **Redirecting the end of a segment**: only the last node's `next` changes. -/
theorem Seg.redirect_next {s s' : Links α} {p q q' : Option α} {l : List α} (h : s.Seg p l q)
    (hnx : ∀ x ∈ l, l.getLast? ≠ some x → s'.next x = s.next x)
    (hlast : ∀ x, l.getLast? = some x → s'.next x = q')
    (hpv : ∀ x ∈ l, s'.prev x = s.prev x) (hnd : l.Nodup) : s'.Seg p l q' := by
  induction l generalizing p with
  | nil => trivial
  | cons a l ih =>
      rw [seg_cons] at h ⊢
      obtain ⟨hal, hnd⟩ := List.nodup_cons.mp hnd
      have hpva := (hpv a (by simp)).trans h.1
      cases l with
      | nil => exact ⟨hpva, by simpa using hlast a rfl, trivial⟩
      | cons b l =>
          have hne : (a :: b :: l).getLast? ≠ some a := by
            rw [List.getLast?_cons_cons]
            intro hl
            exact hal (List.mem_of_getLast? hl)
          refine ⟨hpva, ?_, ih h.2.2 (fun x hx hx' => hnx x (by simp [hx]) ?_)
            (fun x hx => hlast x ?_) (fun x hx => hpv x (by simp [hx])) hnd⟩
          · rw [hnx a (by simp) hne, h.2.1]
            simp
          · rwa [List.getLast?_cons_cons]
          · rwa [List.getLast?_cons_cons]

/-- **Redirecting the start of a segment**: only the first node's `prev` changes. -/
theorem Seg.redirect_prev {s s' : Links α} {p p' q : Option α} {l : List α} (h : s.Seg p l q)
    (hpv : ∀ x ∈ l, l.head? ≠ some x → s'.prev x = s.prev x)
    (hhead : ∀ x, l.head? = some x → s'.prev x = p')
    (hnx : ∀ x ∈ l, s'.next x = s.next x) (hnd : l.Nodup) : s'.Seg p' l q := by
  cases l with
  | nil => trivial
  | cons a l =>
      rw [seg_cons] at h ⊢
      obtain ⟨hal, -⟩ := List.nodup_cons.mp hnd
      refine ⟨hhead a rfl, (hnx a (by simp)).trans h.2.1, h.2.2.congr (fun x hx => hnx x ?_)
        fun x hx => hpv x ?_ ?_⟩
      · simp [hx]
      · simp [hx]
      · rintro ⟨rfl⟩
        exact hal hx

/-- The two fields of a node in the middle of a null-terminated segment. -/
theorem Seg.at_mid {s : Links α} {l r : List α} {a : α} (h : s.Seg none (l ++ a :: r) none) :
    s.prev a = l.getLast? ∧ s.next a = r.head? := by
  rw [seg_append, seg_cons] at h
  simpa using And.intro h.2.1 h.2.2.1

/-- The links read backwards. -/
def flip (s : Links α) : Links α := ⟨s.prev, s.next⟩

/-- A segment read backwards. -/
theorem Seg.flip {s : Links α} {p q : Option α} {l : List α} (h : s.Seg p l q) :
    s.flip.Seg q l.reverse p := by
  induction l generalizing p with
  | nil => trivial
  | cons a l ih =>
      obtain ⟨hpv, hnx, hrest⟩ := h
      have hlast : l.reverse.getLast?.or q = l.head?.or q := by rw [List.getLast?_reverse]
      rw [List.reverse_cons, seg_append]
      exact ⟨ih hrest, hnx.trans hlast.symm, hpv, trivial⟩

/-- **A node is in one list only**: two null-terminated lists with a common node are the same. -/
theorem Seg.eq_of_mem {s : Links α} {l r : List α} {a : α} (hl : s.Seg none l none)
    (hr : s.Seg none r none) (hal : a ∈ l) (har : a ∈ r) : l = r := by
  obtain ⟨l₁, l₂, rfl⟩ := List.append_of_mem hal
  obtain ⟨r₁, r₂, rfl⟩ := List.append_of_mem har
  have htail : a :: l₂ = a :: r₂ :=
    ((path_append ..).mp hl.path).2.unique ((path_append ..).mp hr.path).2 rfl
  have hfront : a :: l₁.reverse = a :: r₁.reverse := by
    have hl' := hl.flip.path
    have hr' := hr.flip.path
    rw [List.reverse_append, List.reverse_cons, List.append_assoc, List.singleton_append] at hl' hr'
    exact ((path_append ..).mp hl').2.unique ((path_append ..).mp hr').2 rfl
  rw [htail, List.reverse_inj.mp (List.cons.inj hfront).2]

/-! ## The two list operations -/

variable [DecidableEq α]

/-- Write a node's `next` field. -/
def setNext (s : Links α) (a : α) (v : Option α) : Links α :=
  { s with next := Function.update s.next a v }

/-- Write a node's `prev` field. -/
def setPrev (s : Links α) (a : α) (v : Option α) : Links α :=
  { s with prev := Function.update s.prev a v }

/-- The forward links after a forward link has been written. -/
@[simp] theorem setNext_next (a : α) (v : Option α) :
    (s.setNext a v).next = Function.update s.next a v := rfl

/-- The backward links do not change with it. -/
@[simp] theorem setNext_prev (a : α) (v : Option α) : (s.setNext a v).prev = s.prev := rfl

/-- The forward links do not change with a backward link. -/
@[simp] theorem setPrev_next (a : α) (v : Option α) : (s.setPrev a v).next = s.next := rfl

/-- The backward links after a backward link has been written. -/
@[simp] theorem setPrev_prev (a : α) (v : Option α) :
    (s.setPrev a v).prev = Function.update s.prev a v := rfl

/-- Write the `next` field of a node given by a pointer that may be null. -/
def setNext? (s : Links α) : Option α → Option α → Links α
  | none, _ => s
  | some a, v => s.setNext a v

/-- Write the `prev` field of a node given by a pointer that may be null. -/
def setPrev? (s : Links α) : Option α → Option α → Links α
  | none, _ => s
  | some a, v => s.setPrev a v

/-- Writing a forward link through a pointer that may be null leaves the backward links alone. -/
@[simp] theorem setNext?_prev (p v : Option α) : (s.setNext? p v).prev = s.prev := by
  cases p <;> rfl

/-- Writing a backward link through such a pointer leaves the forward links alone. -/
@[simp] theorem setPrev?_next (p v : Option α) : (s.setPrev? p v).next = s.next := by
  cases p <;> rfl

/-- The forward links after a write through a pointer that may be null. -/
theorem setNext?_next (p v : Option α) (x : α) :
    (s.setNext? p v).next x = if p = some x then v else s.next x := by
  cases p with
  | none => simp [setNext?]
  | some a => simp [setNext?, Function.update_apply, eq_comm]

/-- The backward links after a write through a pointer that may be null. -/
theorem setPrev?_prev (p v : Option α) (x : α) :
    (s.setPrev? p v).prev x = if p = some x then v else s.prev x := by
  cases p with
  | none => simp [setPrev?]
  | some a => simp [setPrev?, Function.update_apply, eq_comm]

/-- **Take node `a` out of its list**: its neighbours are linked to each other, then both of its own
fields are cleared. -/
def unlink (s : Links α) (a : α) : Links α :=
  let s₁ := s.setNext? (s.prev a) (s.next a)
  let s₂ := s₁.setPrev? (s₁.next a) (s₁.prev a)
  (s₂.setNext a none).setPrev a none

/-- **Put node `a` between `p` and `q`**: the node's own fields first, then the neighbours'. -/
def splice (s : Links α) (a : α) (p q : Option α) : Links α :=
  let s₁ := (s.setNext a q).setPrev a p
  (s₁.setPrev? q (some a)).setNext? p (some a)

/-- The forward links without a node: it points nowhere, and its predecessor points past it. -/
theorem unlink_next (a x : α) :
    (s.unlink a).next x
      = if x = a then none else if s.prev a = some x then s.next a else s.next x := by
  simp only [unlink, setPrev_next, setNext_next, setPrev?_next, Function.update_apply]
  by_cases hx : x = a
  · simp [hx]
  · simp [hx, setNext?_next]

/-- The backward links without a node: it points nowhere, and its successor points back past it. -/
theorem unlink_prev (a x : α) :
    (s.unlink a).prev x
      = if x = a then none else if s.next a = some x then s.prev a else s.prev x := by
  have hna : (s.setNext? (s.prev a) (s.next a)).next a = s.next a := by
    rw [setNext?_next]
    split <;> rfl
  simp only [unlink, setPrev_prev, setNext_prev, Function.update_apply]
  by_cases hx : x = a
  · simp [hx]
  · simp [hx, setPrev?_prev, hna]

/-- The forward links with a node between its two neighbours. -/
theorem splice_next (a x : α) (p q : Option α) :
    (s.splice a p q).next x = if p = some x then some a else if x = a then q else s.next x := by
  simp [splice, setNext?_next, Function.update_apply]

/-- The backward links with a node between its two neighbours. -/
theorem splice_prev (a x : α) (p q : Option α) :
    (s.splice a p q).prev x = if q = some x then some a else if x = a then p else s.prev x := by
  simp [splice, setPrev?_prev, Function.update_apply]

/-- **Unlinking removes exactly one node**: the list around it closes up. -/
theorem Seg.unlink {s : Links α} {l r : List α} {a : α} (h : s.Seg none (l ++ a :: r) none)
    (hnd : (l ++ a :: r).Nodup) : (s.unlink a).Seg none (l ++ r) none := by
  obtain ⟨hpa, hna⟩ := h.at_mid
  rw [List.nodup_append, List.nodup_cons] at hnd
  obtain ⟨hl, ⟨har, hr⟩, hdisj⟩ := hnd
  have hal : ∀ x ∈ l, x ≠ a := fun x hx => hdisj x hx a (by simp)
  have har' : ∀ x ∈ r, x ≠ a := fun x hx hxa => har (hxa ▸ hx)
  rw [seg_append, seg_cons] at h
  rw [seg_append]
  constructor
  · refine h.1.redirect_next (fun x hx hne => ?_) (fun x hx => ?_) (fun x hx => ?_) hl
    · rw [unlink_next, if_neg (hal x hx), hpa, if_neg hne]
    · rw [unlink_next, if_neg (hal x (List.mem_of_getLast? hx)), hpa, if_pos hx, hna]
      simp
    · have hne : r.head? ≠ some x := fun hh =>
        hdisj x hx x (by simp [List.mem_of_head? hh]) rfl
      rw [unlink_prev, if_neg (hal x hx), hna, if_neg hne]
  · refine h.2.2.2.redirect_prev (fun x hx hne => ?_) (fun x hx => ?_) (fun x hx => ?_) hr
    · rw [unlink_prev, if_neg (har' x hx), hna, if_neg hne]
    · rw [unlink_prev, if_neg (har' x (List.mem_of_head? hx)), hna, if_pos hx, hpa]
      simp
    · have hne : l.getLast? ≠ some x := fun hh =>
        hdisj x (List.mem_of_getLast? hh) x (by simp [hx]) rfl
      rw [unlink_next, if_neg (har' x hx), hpa, if_neg hne]

/-- Unlinking a node writes no node outside its list. -/
theorem Seg.unlink_fields {s : Links α} {l r : List α} {a x : α}
    (h : s.Seg none (l ++ a :: r) none) (hx : x ∉ l ++ a :: r) :
    (s.unlink a).next x = s.next x ∧ (s.unlink a).prev x = s.prev x := by
  obtain ⟨hpa, hna⟩ := h.at_mid
  simp only [List.mem_append, List.mem_cons, not_or] at hx
  constructor
  · rw [unlink_next, if_neg hx.2.1, if_neg]
    rw [hpa]
    exact fun hh => hx.1 (List.mem_of_getLast? hh)
  · rw [unlink_prev, if_neg hx.2.1, if_neg]
    rw [hna]
    exact fun hh => hx.2.2 (List.mem_of_head? hh)

/-- Unlinking a node does not touch a list disjoint from the node's own. -/
theorem Seg.unlink_frame {s : Links α} {l r m : List α} {a : α}
    (h : s.Seg none (l ++ a :: r) none) {p q : Option α} (hm : s.Seg p m q)
    (hdisj : ∀ x ∈ m, x ∉ l ++ a :: r) : (s.unlink a).Seg p m q :=
  hm.congr (fun x hx => (h.unlink_fields (hdisj x hx)).1)
    fun x hx => (h.unlink_fields (hdisj x hx)).2

/-- **Splicing inserts exactly one node** between the two halves of a list. -/
theorem Seg.splice {s : Links α} {l r : List α} {a : α} (h : s.Seg none (l ++ r) none)
    (hnd : (l ++ r).Nodup) (ha : a ∉ l ++ r) :
    (s.splice a l.getLast? r.head?).Seg none (l ++ a :: r) none := by
  rw [List.nodup_append] at hnd
  obtain ⟨hl, hr, hdisj⟩ := hnd
  simp only [List.mem_append, not_or] at ha
  have hal : ∀ x ∈ l, x ≠ a := fun x hx hxa => ha.1 (hxa ▸ hx)
  have har : ∀ x ∈ r, x ≠ a := fun x hx hxa => ha.2 (hxa ▸ hx)
  rw [seg_append] at h
  rw [seg_append, seg_cons]
  refine ⟨?_, ?_, ?_, ?_⟩
  · refine h.1.redirect_next (fun x hx hne => ?_) (fun x hx => ?_) (fun x hx => ?_) hl
    · rw [splice_next, if_neg hne, if_neg (hal x hx)]
    · rw [splice_next, if_pos hx]
      simp
    · have hne : r.head? ≠ some x := fun hh => hdisj x hx x (List.mem_of_head? hh) rfl
      rw [splice_prev, if_neg hne, if_neg (hal x hx)]
  · have hne : r.head? ≠ some a := fun hh => ha.2 (List.mem_of_head? hh)
    rw [splice_prev, if_neg hne, if_pos rfl]
    simp
  · have hne : l.getLast? ≠ some a := fun hh => ha.1 (List.mem_of_getLast? hh)
    rw [splice_next, if_neg hne, if_pos rfl]
    simp
  · refine h.2.redirect_prev (fun x hx hne => ?_) (fun x hx => ?_) (fun x hx => ?_) hr
    · rw [splice_prev, if_neg hne, if_neg (har x hx)]
    · rw [splice_prev, if_pos hx]
    · have hne : l.getLast? ≠ some x := fun hh => hdisj x (List.mem_of_getLast? hh) x hx rfl
      rw [splice_next, if_neg hne, if_neg (har x hx)]

/-- Splicing a node writes the node and its two new neighbours only. -/
theorem splice_fields {s : Links α} {l r : List α} {a x : α} (hxa : x ≠ a) (hx : x ∉ l ++ r) :
    (s.splice a l.getLast? r.head?).next x = s.next x ∧
      (s.splice a l.getLast? r.head?).prev x = s.prev x := by
  simp only [List.mem_append, not_or] at hx
  constructor
  · rw [splice_next, if_neg, if_neg hxa]
    exact fun hh => hx.1 (List.mem_of_getLast? hh)
  · rw [splice_prev, if_neg, if_neg hxa]
    exact fun hh => hx.2 (List.mem_of_head? hh)

/-- Splicing a node does not touch a list that avoids it and its two new neighbours. -/
theorem Seg.splice_frame {s : Links α} {l r m : List α} {a : α} {p q : Option α}
    (hm : s.Seg p m q) (ham : a ∉ m) (hdisj : ∀ x ∈ m, x ∉ l ++ r) :
    (s.splice a l.getLast? r.head?).Seg p m q := by
  have hfields := fun x hx => splice_fields (s := s) (fun h : x = a => ham (h ▸ hx)) (hdisj x hx)
  exact hm.congr (fun x hx => (hfields x hx).1) fun x hx => (hfields x hx).2

/-- Unlinking a node does not touch a path disjoint from the node's own list. -/
theorem Seg.unlink_path {s : Links α} {l r m : List α} {a : α}
    (h : s.Seg none (l ++ a :: r) none) {q : Option α} (hm : Path s.next m q)
    (hdisj : ∀ x ∈ m, x ∉ l ++ a :: r) : Path (s.unlink a).next m q :=
  hm.congr fun x hx => (h.unlink_fields (hdisj x hx)).1

/-- Splicing a node does not touch a path that avoids it and its new predecessor. -/
theorem splice_path {s : Links α} {l r m : List α} {a : α} {q : Option α}
    (hm : Path s.next m q) (ham : a ∉ m) (hdisj : ∀ x ∈ m, x ∉ l ++ r) :
    Path (s.splice a l.getLast? r.head?).next m q :=
  hm.congr fun x hx => (splice_fields (fun h : x = a => ham (h ▸ hx)) (hdisj x hx)).1

end Links

/-! ## The ends of a list around one node -/

/-- The head of a list after one node is taken out, from the node's own pointers. -/
theorem head?_of_mid (l r : List α) (a : α) :
    (l ++ r).head? = if l.getLast?.isSome then (l ++ a :: r).head? else r.head? := by
  cases l with
  | nil => simp
  | cons b l => simp [List.getLast?_cons]

/-- The last node of a list after one node is taken out, from the node's own pointers. -/
theorem getLast?_of_mid (l r : List α) (a : α) :
    (l ++ r).getLast? = if r.head?.isSome then (l ++ a :: r).getLast? else l.getLast? := by
  cases r with
  | nil => simp
  | cons b r => simp [List.getLast?_append, List.getLast?_cons]

/-- A node of a list without repetitions splits it in two halves; erasing the node joins them. -/
theorem exists_mid_of_mem [DecidableEq α] {l : List α} {a : α} (h : a ∈ l) (hnd : l.Nodup) :
    ∃ l₁ l₂, l = l₁ ++ a :: l₂ ∧ l.erase a = l₁ ++ l₂ := by
  obtain ⟨l₁, l₂, rfl⟩ := List.append_of_mem h
  refine ⟨l₁, l₂, rfl, ?_⟩
  have ha : a ∉ l₁ := fun ha => (List.nodup_append.mp hnd).2.2 a ha a (by simp) rfl
  rw [List.erase_append_right _ ha, List.erase_cons_head]

end PtrList
