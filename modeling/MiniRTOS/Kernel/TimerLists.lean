import MiniRTOS.Kernel.Timer

/-! # The two timer lists

The active list and the expired list share the `next` field of the timers. As long as no timer is in
both, the list functions of `timer.c` do what they are for. -/

namespace MiniRTOS

open PtrList Runs

variable {s s' : Timers} {t x : TimerId} {A B E : List TimerId} {fuel : Nat}

/-! ## Lists in memory -/

/-- The `next` field of every timer. -/
def Timers.nexts (s : Timers) : TimerId → Option TimerId := fun t => (s.timer t).next

/-- The ticks stored with every timer. -/
def Timers.rem (s : Timers) : TimerId → BitVec 32 := fun t => (s.timer t).remaining

/-- **The null-terminated list at a pointer.** -/
structure IsList (nx : TimerId → Option TimerId) (p : Option TimerId) (l : List TimerId) : Prop where
  /-- The pointer points to the first node. -/
  head : p = l.head?
  /-- The nodes are linked. -/
  path : Path nx l none

section Fields

variable (s : Timers) (t : TimerId)

/-- The links of all timers, as one function. -/
theorem Timers.next_eq : (s.timer t).next = s.nexts t := rfl

/-- The stored differences of all timers, as one function. -/
theorem Timers.remaining_eq : (s.timer t).remaining = s.rem t := rfl

/-- The links after one has been written. -/
@[simp] theorem nexts_setNext (v : Option TimerId) :
    (s.setNext t v).nexts = Function.update s.nexts t v := by
  funext x
  simp only [Timers.nexts, Timers.setNext, Timers.set, Function.update_apply]
  split <;> rfl

/-- Writing a link leaves the differences alone. -/
@[simp] theorem rem_setNext (v : Option TimerId) : (s.setNext t v).rem = s.rem := by
  funext x
  simp only [Timers.rem, Timers.setNext, Timers.set, Function.update_apply]
  split
  · next hx => rw [hx]
  · rfl

/-- Writing a difference leaves the links alone. -/
@[simp] theorem nexts_setRemaining (v : BitVec 32) : (s.setRemaining t v).nexts = s.nexts := by
  funext x
  simp only [Timers.nexts, Timers.setRemaining, Timers.set, Function.update_apply]
  split
  · next hx => rw [hx]
  · rfl

/-- The differences after one has been written. -/
@[simp] theorem rem_setRemaining (v : BitVec 32) :
    (s.setRemaining t v).rem = Function.update s.rem t v := by
  funext x
  simp only [Timers.rem, Timers.setRemaining, Timers.set, Function.update_apply]
  split <;> rfl

/-- The `active` flag is no link. -/
@[simp] theorem nexts_setActive (v : Bool) : (s.setActive t v).nexts = s.nexts := by
  funext x
  simp only [Timers.nexts, Timers.setActive, Timers.set, Function.update_apply]
  split
  · next hx => rw [hx]
  · rfl

/-- Nor is it a difference. -/
@[simp] theorem rem_setActive (v : Bool) : (s.setActive t v).rem = s.rem := by
  funext x
  simp only [Timers.rem, Timers.setActive, Timers.set, Function.update_apply]
  split
  · next hx => rw [hx]
  · rfl

/-- The `active` flag leaves the kind of a timer alone. -/
theorem type_setActive (v : Bool) (x : TimerId) :
    ((s.setActive t v).timer x).type = (s.timer x).type := by
  simp only [Timers.setActive, Timers.set, Function.update_apply]
  split
  · next hx => rw [hx]
  · rfl

/-- It leaves the period alone. -/
theorem period_setActive (v : Bool) (x : TimerId) :
    ((s.setActive t v).timer x).period = (s.timer x).period := by
  simp only [Timers.setActive, Timers.set, Function.update_apply]
  split
  · next hx => rw [hx]
  · rfl

/-- The flags after one has been written. -/
theorem active_setActive (v : Bool) (x : TimerId) :
    ((s.setActive t v).timer x).active = if x = t then v else (s.timer x).active := by
  simp only [Timers.setActive, Timers.set, Function.update_apply]
  split <;> rfl

/-- A period is no link. -/
@[simp] theorem nexts_setPeriod (v : BitVec 32) : (s.setPeriod t v).nexts = s.nexts := by
  funext x
  simp only [Timers.nexts, Timers.setPeriod, Timers.set, Function.update_apply]
  split
  · next hx => rw [hx]
  · rfl

/-- Nor is it a difference. -/
@[simp] theorem rem_setPeriod (v : BitVec 32) : (s.setPeriod t v).rem = s.rem := by
  funext x
  simp only [Timers.rem, Timers.setPeriod, Timers.set, Function.update_apply]
  split
  · next hx => rw [hx]
  · rfl

/-- A period leaves the flags alone. -/
theorem active_setPeriod (v : BitVec 32) (x : TimerId) :
    ((s.setPeriod t v).timer x).active = (s.timer x).active := by
  simp only [Timers.setPeriod, Timers.set, Function.update_apply]
  split
  · next hx => rw [hx]
  · rfl

/-- The links do not depend on the head of a list. -/
@[simp] theorem nexts_setList (v : Option TimerId) :
    ({ s with activeTimerList := v } : Timers).nexts = s.nexts := rfl

/-- Nor do the differences. -/
@[simp] theorem rem_setList (v : Option TimerId) :
    ({ s with activeTimerList := v } : Timers).rem = s.rem := rfl

end Fields

/-- There is at most one list at a pointer. -/
theorem IsList.unique {nx : TimerId → Option TimerId} {p : Option TimerId} (hA : IsList nx p A)
    (hB : IsList nx p B) : A = B :=
  Path.unique hA.path hB.path (hA.head.symm.trans hB.head)

/-- Read the list at a pointer, when it ends within `n` nodes. -/
def readList (nx : TimerId → Option TimerId) : Nat → Option TimerId → Option (List TimerId)
  | _, none => some []
  | 0, some _ => none
  | n + 1, some t => (readList nx n (nx t)).map (t :: ·)

/-- What is read is the list at the pointer. -/
theorem isList_of_readList {nx : TimerId → Option TimerId} {n : Nat} {p : Option TimerId}
    (h : readList nx n p = some A) : IsList nx p A := by
  induction n generalizing p A with
  | zero =>
      cases p with
      | none =>
          obtain rfl := Option.some.inj h
          exact ⟨rfl, trivial⟩
      | some t => cases h
  | succ n ih =>
      cases p with
      | none =>
          obtain rfl := Option.some.inj h
          exact ⟨rfl, trivial⟩
      | some t =>
          obtain ⟨l, hl, rfl⟩ := Option.map_eq_some_iff.mp h
          have hlist := ih hl
          exact ⟨rfl, by rw [Option.or_none]; exact hlist.head, hlist.path⟩

/-- A property of the list that is read is one of every list at the pointer. -/
theorem forall_isList_of_readList {nx : TimerId → Option TimerId} {n : Nat} {p : Option TimerId}
    {P : List TimerId → Prop} [DecidablePred P]
    (h : (readList nx n p).any (fun l => decide (P l)) = true) : ∀ l, IsList nx p l → P l := by
  intro l hl
  obtain ⟨l', hread, hP⟩ := (Option.any_eq_true _ _).mp h
  rw [hl.unique (isList_of_readList hread)]
  exact of_decide_eq_true hP

/-- What the list functions leave alone in every control block. -/
structure SameSettings (s s' : Timers) : Prop where
  /-- The callbacks. -/
  callback : ∀ x, (s'.timer x).callback = (s.timer x).callback
  /-- The periods. -/
  period : ∀ x, (s'.timer x).period = (s.timer x).period
  /-- The types. -/
  type : ∀ x, (s'.timer x).type = (s.timer x).type
  /-- The active flags. -/
  active : ∀ x, (s'.timer x).active = (s.timer x).active
  /-- The expired list. -/
  expiredList : s'.expiredList = s.expiredList
  /-- The kernel. -/
  kernel : s'.kernel = s.kernel

/-- The settings are the same before anything happens. -/
theorem SameSettings.refl (s : Timers) : SameSettings s s :=
  ⟨fun _ => rfl, fun _ => rfl, fun _ => rfl, fun _ => rfl, rfl, rfl⟩

/-- What keeps the settings twice keeps them. -/
theorem SameSettings.trans {s₁ s₂ s₃ : Timers} (h₁ : SameSettings s₁ s₂) (h₂ : SameSettings s₂ s₃) :
    SameSettings s₁ s₃ where
  callback x := (h₂.callback x).trans (h₁.callback x)
  period x := (h₂.period x).trans (h₁.period x)
  type x := (h₂.type x).trans (h₁.type x)
  active x := (h₂.active x).trans (h₁.active x)
  expiredList := h₂.expiredList.trans h₁.expiredList
  kernel := h₂.kernel.trans h₁.kernel

/-- Writing a control block with the same settings. -/
theorem SameSettings.set (s : Timers) (t : TimerId) {v : Timer}
    (hc : v.callback = (s.timer t).callback) (hp : v.period = (s.timer t).period)
    (ht : v.type = (s.timer t).type) (ha : v.active = (s.timer t).active) :
    SameSettings s (s.set t v) := by
  refine ⟨fun x => ?_, fun x => ?_, fun x => ?_, fun x => ?_, rfl, rfl⟩
  all_goals
    simp only [Timers.set, Function.update_apply]
    split
    · next hx => rw [hx]; assumption
    · rfl

/-- Writing a link keeps the settings. -/
theorem SameSettings.setNext (s : Timers) (t : TimerId) (v : Option TimerId) :
    SameSettings s (s.setNext t v) := .set s t rfl rfl rfl rfl

/-- Writing a difference keeps them. -/
theorem SameSettings.setRemaining (s : Timers) (t : TimerId) (v : BitVec 32) :
    SameSettings s (s.setRemaining t v) := .set s t rfl rfl rfl rfl

/-- Writing the head of the list keeps them. -/
theorem SameSettings.setActiveList (s : Timers) (v : Option TimerId) :
    SameSettings s { s with activeTimerList := v } :=
  ⟨fun _ => rfl, fun _ => rfl, fun _ => rfl, fun _ => rfl, rfl, rfl⟩

/-! ## Inserting -/

/-- Where the loop of `prv_timer_insert_sorted` stops. -/
theorem insertWalk_spec {tm : TimerId → Timer} {r : BitVec 32} {prev p i : Option TimerId}
    (hpath : Path (fun x => (tm x).next) A none) (h : insertWalk tm r fuel prev A.head? = some (p, i)) :
    ∃ pre post, A = pre ++ post ∧ p = pre.getLast?.or prev ∧ i = post.head? ∧
      (∀ x ∈ pre, ¬r < (tm x).remaining) ∧ ∀ x ∈ post.head?, r < (tm x).remaining := by
  -- The walk splits the list: what it has passed is not above `r`, and what it stops at is.
  induction fuel generalizing A prev with
  | zero =>
      cases A with
      | nil =>
          obtain ⟨rfl, rfl⟩ := Prod.mk.inj (Option.some.inj h)
          exact ⟨[], [], rfl, rfl, rfl, by simp, by simp⟩
      | cons a A => cases h
  | succ fuel ih =>
      cases A with
      | nil =>
          obtain ⟨rfl, rfl⟩ := Prod.mk.inj (Option.some.inj h)
          exact ⟨[], [], rfl, rfl, rfl, by simp, by simp⟩
      | cons a A =>
          rw [List.head?_cons, insertWalk] at h
          split at h
          · next hlt =>
              obtain ⟨rfl, rfl⟩ := Prod.mk.inj (Option.some.inj h)
              exact ⟨[], a :: A, rfl, rfl, rfl, by simp, by simpa using hlt⟩
          · next hge =>
              have hnext : (tm a).next = A.head? := by simpa using hpath.1
              rw [hnext] at h
              obtain ⟨pre, post, rfl, hp, hi, hpre, hpost⟩ := ih hpath.2 h
              refine ⟨a :: pre, post, rfl, ?_, hi, ?_, hpost⟩
              · rw [hp, List.getLast?_cons]
                cases pre.getLast? <;> rfl
              · rintro x hx
                rcases List.mem_cons.mp hx with rfl | hx
                · exact hge
                · exact hpre x hx

/-- The loop ends when the list does. -/
theorem insertWalk_isSome {tm : TimerId → Timer} {r : BitVec 32} {prev : Option TimerId}
    (hpath : Path (fun x => (tm x).next) A none) (hfuel : A.length ≤ fuel) :
    ∃ q, insertWalk tm r fuel prev A.head? = some q := by
  induction A generalizing fuel prev with
  | nil =>
      cases fuel <;> exact ⟨_, rfl⟩
  | cons a A ih =>
      obtain ⟨fuel, rfl⟩ : ∃ n, fuel = n + 1 := ⟨fuel - 1, by simp at hfuel; omega⟩
      rw [List.head?_cons, insertWalk]
      split
      · exact ⟨_, rfl⟩
      · have hnext : (tm a).next = A.head? := by simpa using hpath.1
        rw [hnext]
        exact ih hpath.2 (by simpa using hfuel)

/-- The ticks stored with a timer that is linked behind `prev`. -/
def Timers.remBehind (s : Timers) (t : TimerId) : Option TimerId → BitVec 32
  | some p => s.rem t - s.rem p
  | none => s.rem t

/-- **What `prv_timer_insert_sorted` does** to the list `pre ++ post`, with `t` not in it. -/
structure Inserted (s s' : Timers) (t : TimerId) (pre post : List TimerId) : Prop where
  /-- The timer is in the list. -/
  list : IsList s'.nexts s'.activeTimerList (pre ++ t :: post)
  /-- Nobody outside is relinked. -/
  nexts : ∀ x, x ≠ t → x ∉ pre → s'.nexts x = s.nexts x
  /-- No timer before it has more ticks stored. -/
  before : ∀ x ∈ pre, ¬s.rem t < s.rem x
  /-- The timer after it has. -/
  after : ∀ x ∈ post.head?, s.rem t < s.rem x
  /-- The ticks stored with the timer before it are subtracted. -/
  self : s'.rem t = s.remBehind t pre.getLast?
  /-- The timer after it makes up for it. -/
  next : ∀ i ∈ post.head?, s'.rem i = s.rem i - s'.rem t
  /-- The other timers keep their ticks. -/
  others : ∀ x, x ≠ t → post.head? ≠ some x → s'.rem x = s.rem x
  /-- The rest stays. -/
  settings : SameSettings s s'

section Link

variable {prev iter : Option TimerId}

/-- The links with timer `t` between its two neighbours. -/
theorem nexts_linkTimer (x : TimerId) :
    (linkTimer s t prev iter).nexts x
      = if prev = some x then some t else if x = t then iter else s.nexts x := by
  cases prev with
  | none => cases iter <;> simp [linkTimer, Function.update_apply]
  | some p => cases iter <;> simp [linkTimer, Function.update_apply, eq_comm]

/-- The differences with timer `t` in place: its successor has that much less. -/
theorem rem_linkTimer (hi : iter ≠ some t) (x : TimerId) :
    (linkTimer s t prev iter).rem x
      = if iter = some x then s.rem x - s.remBehind t prev
        else if x = t then s.remBehind t prev else s.rem x := by
  cases iter with
  | none =>
      cases prev <;>
        simp [linkTimer, Timers.remaining_eq, Timers.remBehind, Function.update_apply]
      intro hx
      rw [hx]
  | some i =>
      have hit : i ≠ t := fun h => hi (by rw [h])
      cases prev with
      | none =>
          simp only [linkTimer, Timers.remaining_eq, Timers.remBehind, rem_setList, rem_setNext,
            rem_setRemaining, Function.update_apply, Option.some.injEq]
          by_cases hxi : x = i
          · simp [hxi]
          · simp only [hxi, Ne.symm hxi, if_false]
            split
            · next hxt => rw [hxt]
            · rfl
      | some p =>
          simp only [linkTimer, Timers.remaining_eq, Timers.remBehind, rem_setNext, rem_setRemaining,
            Function.update_apply, Option.some.injEq]
          by_cases hxi : x = i
          · simp [hxi, hit]
          · simp only [hxi, Ne.symm hxi, if_false]

/-- The head of the list is the new timer if nobody is ahead of it. -/
theorem activeTimerList_linkTimer :
    (linkTimer s t prev iter).activeTimerList
      = if prev.isSome then s.activeTimerList else some t := by
  cases prev <;> cases iter <;> rfl

/-- Linking a timer keeps the settings. -/
theorem settings_linkTimer : SameSettings s (linkTimer s t prev iter) := by
  have h₁ : ∀ s₁ : Timers, SameSettings s₁ (match iter with
      | some i => s₁.setRemaining i ((s₁.timer i).remaining - (s₁.timer t).remaining)
      | none => s₁) := by
    intro s₁
    cases iter
    · exact .refl s₁
    · exact .setRemaining ..
  cases prev with
  | none => exact ((h₁ s).trans (.setNext ..)).trans (.setActiveList ..)
  | some p =>
      exact (((SameSettings.setRemaining ..).trans (h₁ _)).trans (.setNext ..)).trans (.setNext ..)

end Link

/-- A node spliced into a path. -/
theorem path_insert {nx nx' : TimerId → Option TimerId} {pre post : List TimerId}
    (h : Path nx (pre ++ post) none) (hnd : (pre ++ post).Nodup) (ht : t ∉ pre ++ post)
    (hself : nx' t = post.head?) (hlast : ∀ p ∈ pre.getLast?, nx' p = some t)
    (hrest : ∀ x, x ≠ t → pre.getLast? ≠ some x → nx' x = nx x) : Path nx' (pre ++ t :: post) none := by
  rw [path_append] at h ⊢
  simp only [List.mem_append, not_or] at ht
  obtain ⟨hndpre, -, hdisj⟩ := List.nodup_append.mp hnd
  refine ⟨h.1.redirect (fun x hx hne => hrest x ?_ hne) hlast hndpre, ?_, h.2.congr fun x hx => ?_⟩
  · rintro rfl
    exact ht.1 hx
  · simpa using hself
  · refine hrest x ?_ fun hl => ?_
    · rintro rfl
      exact ht.2 hx
    · exact hdisj x (List.mem_of_getLast? hl) x hx rfl

/-- The insertion starts by clearing a link that is not on the way. -/
theorem isList_setNext_none (hA : IsList s.nexts s.activeTimerList A) (ht : t ∉ A) :
    IsList (s.setNext t none).nexts (s.setNext t none).activeTimerList A := by
  refine ⟨hA.head, hA.path.congr fun x hx => ?_⟩
  rw [nexts_setNext, Function.update_of_ne]
  rintro rfl
  exact ht hx

/-- **`prv_timer_insert_sorted`**: the timer stands somewhere in the list, and the others keep their
order. -/
theorem prvTimerInsertSorted_spec (hA : IsList s.nexts s.activeTimerList A) (hnd : A.Nodup)
    (ht : t ∉ A) (h : prvTimerInsertSorted fuel s t = some s') :
    ∃ pre post, A = pre ++ post ∧ Inserted s s' t pre post := by
  obtain ⟨⟨p, i⟩, hwalk, h⟩ := Option.bind_eq_some_iff.mp h
  obtain ⟨hhead, hpath⟩ := isList_setNext_none hA ht
  rw [hhead] at hwalk
  obtain ⟨pre, post, rfl, rfl, rfl, hpre, hpost⟩ := insertWalk_spec hpath hwalk
  simp only [Timers.remaining_eq, rem_setNext] at hpre hpost
  rw [Option.or_none] at h
  obtain rfl := Option.some.inj h
  have hti : post.head? ≠ some t := fun h => ht (by simp [List.mem_of_mem_head? h])
  have htp : pre.getLast? ≠ some t := fun h => ht (by simp [List.mem_of_getLast? h])
  have hnexts : ∀ x, x ≠ t → pre.getLast? ≠ some x →
      (linkTimer (s.setNext t none) t pre.getLast? post.head?).nexts x = s.nexts x := by
    intro x hx hp
    rw [nexts_linkTimer, if_neg hp, if_neg hx, nexts_setNext, Function.update_of_ne hx]
  -- clearing `t.next` at the start changes no difference
  have hbehind : (s.setNext t none).remBehind t pre.getLast? = s.remBehind t pre.getLast? := by
    cases pre.getLast? <;> simp [Timers.remBehind]
  have hself : (linkTimer (s.setNext t none) t pre.getLast? post.head?).rem t
      = s.remBehind t pre.getLast? := by
    rw [rem_linkTimer hti, if_neg hti, if_pos rfl, hbehind]
  refine ⟨pre, post, rfl, ⟨?_, path_insert hA.path hnd ht ?_ (fun p hp => ?_) hnexts⟩,
    fun x hx hp => hnexts x hx fun h => hp (List.mem_of_getLast? h), hpre, hpost, hself, fun i hi => ?_,
    fun x hx hi => ?_, (SameSettings.setNext ..).trans settings_linkTimer⟩
  · rw [activeTimerList_linkTimer]
    cases pre with
    | nil => rfl
    | cons a pre => simp [List.getLast?_cons, hhead]
  · rw [nexts_linkTimer, if_neg htp, if_pos rfl]
  · rw [nexts_linkTimer, if_pos (Option.mem_def.mp hp)]
  · rw [hself, rem_linkTimer hti, if_pos (Option.mem_def.mp hi), hbehind, rem_setNext]
  · rw [rem_linkTimer hti, if_neg hi, if_neg hx, rem_setNext]

/-- The insertion ends when the list does. -/
theorem prvTimerInsertSorted_isSome (hA : IsList s.nexts s.activeTimerList A) (ht : t ∉ A)
    (hfuel : A.length ≤ fuel) : ∃ s', prvTimerInsertSorted fuel s t = some s' := by
  obtain ⟨hhead, hpath⟩ := isList_setNext_none hA ht
  obtain ⟨q, hq⟩ := insertWalk_isSome (r := ((s.setNext t none).timer t).remaining) hpath hfuel
  rw [← hhead] at hq
  exact ⟨linkTimer (s.setNext t none) t q.1 q.2, Option.bind_eq_some_iff.mpr ⟨q, hq, rfl⟩⟩

/-! ## Removing -/

/-- Where the loop of `prv_timer_remove_from_active` stops. -/
theorem removeWalk_mem {tm : TimerId → Timer} {prev : Option TimerId} {pre post : List TimerId}
    {r : Option (Option TimerId)} (hpath : Path (fun x => (tm x).next) (pre ++ t :: post) none)
    (ht : t ∉ pre) (h : removeWalk tm t fuel prev (pre ++ t :: post).head? = some r) :
    r = some (pre.getLast?.or prev) := by
  induction pre generalizing fuel prev with
  | nil =>
      cases fuel with
      | zero => cases h
      | succ fuel =>
          rw [List.nil_append, List.head?_cons, removeWalk, if_pos rfl] at h
          exact (Option.some.inj h).symm
  | cons a pre ih =>
      simp only [List.mem_cons, not_or] at ht
      cases fuel with
      | zero => cases h
      | succ fuel =>
          have hnext : (tm a).next = (pre ++ t :: post).head? := by simpa using hpath.1
          rw [List.cons_append, List.head?_cons, removeWalk, if_neg (Ne.symm ht.1), hnext] at h
          rw [ih hpath.2 ht.2 h, List.getLast?_cons]
          cases pre.getLast? <;> rfl

/-- **What `prv_timer_remove_from_active` does** to the list `pre ++ t :: post`. -/
structure Removed (s s' : Timers) (t : TimerId) (pre post : List TimerId) : Prop where
  /-- The timer is out of the list. -/
  list : IsList s'.nexts s'.activeTimerList (pre ++ post)
  /-- Nobody outside is relinked. -/
  nexts : ∀ x, x ∉ pre → s'.nexts x = s.nexts x
  /-- The timer after it inherits its ticks. -/
  next : ∀ i ∈ post.head?, s'.rem i = s.rem i + s.rem t
  /-- The other timers keep theirs. -/
  others : ∀ x, post.head? ≠ some x → s'.rem x = s.rem x
  /-- The rest stays. -/
  settings : SameSettings s s'

/-- A node taken out of a path. -/
theorem path_remove {nx nx' : TimerId → Option TimerId} {pre post : List TimerId}
    (h : Path nx (pre ++ t :: post) none) (hnd : (pre ++ t :: post).Nodup)
    (hlast : ∀ p ∈ pre.getLast?, nx' p = post.head?)
    (hrest : ∀ x, pre.getLast? ≠ some x → nx' x = nx x) : Path nx' (pre ++ post) none := by
  rw [path_append] at h ⊢
  obtain ⟨hndpre, -, hdisj⟩ := List.nodup_append.mp hnd
  refine ⟨h.1.redirect (fun x hx hne => hrest x hne) (fun x hx => ?_) hndpre, h.2.2.congr fun x hx => ?_⟩
  · rw [hlast x hx, Option.or_none]
  · exact hrest x fun hl => hdisj x (List.mem_of_getLast? hl) x (by simp [hx]) rfl

section Unlink

variable {prev : Option TimerId}

/-- Redirecting the timer before. -/
theorem unlinkTimer_eq (s : Timers) (t : TimerId) (hp : prev ≠ some t) :
    ∃ s₁ : Timers, (∀ x, s₁.nexts x = if prev = some x then s.nexts t else s.nexts x) ∧
      s₁.rem = s.rem ∧ SameSettings s s₁ ∧
      s₁.activeTimerList = (if prev.isSome then s.activeTimerList else s.nexts t) ∧
      unlinkTimer s t prev =
        match s.nexts t with
        | some n => s₁.setRemaining n (s.rem n + s.rem t)
        | none => s₁ := by
  cases prev with
  | none =>
      exact ⟨{ s with activeTimerList := s.nexts t }, fun _ => rfl, rfl, .setActiveList .., rfl, rfl⟩
  | some p =>
      have hpt : p ≠ t := fun h => hp (by rw [h])
      refine ⟨s.setNext p (s.nexts t), fun x => ?_, rem_setNext .., .setNext .., rfl, ?_⟩
      · simp [Function.update_apply, eq_comm]
      · cases hn : s.nexts t with
        | none => simp [unlinkTimer, Timers.next_eq, hn, Ne.symm hpt]
        | some n => simp [unlinkTimer, Timers.next_eq, Timers.remaining_eq, hn, Ne.symm hpt]

/-- The links without timer `t`: its predecessor points past it. -/
theorem nexts_unlinkTimer (hp : prev ≠ some t) (x : TimerId) :
    (unlinkTimer s t prev).nexts x = if prev = some x then s.nexts t else s.nexts x := by
  obtain ⟨s₁, hnexts, -, -, -, heq⟩ := unlinkTimer_eq s t hp
  rw [heq]
  split
  · rw [nexts_setRemaining, hnexts]
  · rw [hnexts]

/-- The differences without timer `t`: its successor gets what it had left. -/
theorem rem_unlinkTimer (hp : prev ≠ some t) (x : TimerId) :
    (unlinkTimer s t prev).rem x = if s.nexts t = some x then s.rem x + s.rem t else s.rem x := by
  obtain ⟨s₁, -, hrem, -, -, heq⟩ := unlinkTimer_eq s t hp
  rw [heq]
  split
  · next n hn =>
      rw [hn, rem_setRemaining, hrem, Function.update_apply]
      by_cases hx : x = n
      · simp [hx]
      · simp [hx, Ne.symm hx]
  · next hn => rw [hn, hrem, if_neg (by simp)]

/-- The head of the list without timer `t`. -/
theorem activeTimerList_unlinkTimer (hp : prev ≠ some t) :
    (unlinkTimer s t prev).activeTimerList
      = if prev.isSome then s.activeTimerList else s.nexts t := by
  obtain ⟨s₁, -, -, -, hlist, heq⟩ := unlinkTimer_eq s t hp
  rw [heq]
  split <;> exact hlist

/-- Unlinking a timer keeps the settings. -/
theorem settings_unlinkTimer (hp : prev ≠ some t) : SameSettings s (unlinkTimer s t prev) := by
  obtain ⟨s₁, -, -, hset, -, heq⟩ := unlinkTimer_eq s t hp
  rw [heq]
  split
  · exact hset.trans (.setRemaining ..)
  · exact hset

end Unlink

/-- **`prv_timer_remove_from_active`**: the timer is gone, and the others keep their order. -/
theorem prvTimerRemoveFromActive_spec {pre post : List TimerId}
    (hA : IsList s.nexts s.activeTimerList (pre ++ t :: post)) (hnd : (pre ++ t :: post).Nodup)
    (h : prvTimerRemoveFromActive fuel s t = some s') : Removed s s' t pre post := by
  obtain ⟨hndpre, hndpost, hdisj⟩ := List.nodup_append.mp hnd
  have htpre : t ∉ pre := fun h => hdisj t h t (by simp) rfl
  have htpost : t ∉ post := (List.nodup_cons.mp hndpost).1
  obtain ⟨r, hwalk, rfl⟩ := Option.map_eq_some_iff.mp h
  rw [hA.head] at hwalk
  obtain rfl := removeWalk_mem hA.path htpre hwalk
  have hnext : s.nexts t = post.head? := by simpa using hA.path.next_of_append
  have htp : pre.getLast? ≠ some t := fun h => htpre (List.mem_of_getLast? h)
  rw [Option.or_none]
  have hnexts : ∀ x, pre.getLast? ≠ some x → (unlinkTimer s t pre.getLast?).nexts x = s.nexts x := by
    intro x hx
    rw [nexts_unlinkTimer htp, if_neg hx]
  refine ⟨⟨?_, path_remove hA.path hnd (fun p hp => ?_) hnexts⟩,
    fun x hx => hnexts x fun h => hx (List.mem_of_getLast? h), fun i hi => ?_, fun x hx => ?_,
    settings_unlinkTimer htp⟩
  · show (unlinkTimer s t pre.getLast?).activeTimerList = _
    rw [activeTimerList_unlinkTimer htp]
    cases pre with
    | nil => exact hnext
    | cons a pre => simp [List.getLast?_cons, hA.head]
  · rw [nexts_unlinkTimer htp, if_pos (Option.mem_def.mp hp), hnext]
  · exact (rem_unlinkTimer htp i).trans (if_pos (hnext.trans hi))
  · refine (rem_unlinkTimer htp x).trans (if_neg ?_)
    rw [hnext]
    exact hx

/-! ## The invariant -/

/-- **Two disjoint lists**: both are null-terminated and repeat no timer, and no timer is in both. -/
structure Linked (s : Timers) (A E : List TimerId) : Prop where
  /-- The active list. -/
  active : IsList s.nexts s.activeTimerList A
  /-- The expired list. -/
  expired : IsList s.nexts s.expiredList E
  /-- No timer twice. -/
  nodup : (A ++ E).Nodup

/-- **The timer lists**: the active list holds exactly the timers whose flag is set. -/
structure TimerLists (s : Timers) (A E : List TimerId) : Prop extends Linked s A E where
  /-- The flags. -/
  flags : ∀ t, (s.timer t).active = true ↔ t ∈ A

/-- Only links and list heads matter. -/
theorem Linked.congr (h : Linked s A E) (hn : ∀ x, x ∈ A ++ E → s'.nexts x = s.nexts x)
    (ha : s'.activeTimerList = s.activeTimerList) (he : s'.expiredList = s.expiredList) :
    Linked s' A E :=
  ⟨⟨ha.trans h.active.head, h.active.path.congr fun x hx => hn x (by simp [hx])⟩,
    ⟨he.trans h.expired.head, h.expired.path.congr fun x hx => hn x (by simp [hx])⟩, h.nodup⟩

/-- The lists do not depend on the differences. -/
theorem Linked.setRemaining (h : Linked s A E) (v : BitVec 32) : Linked (s.setRemaining t v) A E :=
  h.congr (fun x _ => by rw [nexts_setRemaining]) rfl rfl

/-- A timer that is in no list. -/
theorem Linked.insert (h : Linked s A E) (hA : t ∉ A) (hE : t ∉ E)
    (hs : prvTimerInsertSorted fuel s t = some s') :
    ∃ pre post, A = pre ++ post ∧ Inserted s s' t pre post ∧ Linked s' (pre ++ t :: post) E := by
  obtain ⟨hndA, -, hdisj⟩ := List.nodup_append.mp h.nodup
  obtain ⟨pre, post, rfl, hins⟩ := prvTimerInsertSorted_spec h.active hndA hA hs
  refine ⟨pre, post, rfl, hins, hins.list, ⟨?_, h.expired.path.congr fun x hx => ?_⟩, ?_⟩
  · exact hins.settings.expiredList.trans h.expired.head
  · refine hins.nexts x ?_ fun hp => hdisj x (by simp [hp]) x hx rfl
    rintro rfl
    exact hE hx
  · have hperm : (pre ++ t :: post ++ E).Perm (t :: (pre ++ post ++ E)) := by
      rw [List.append_assoc, List.append_assoc, List.cons_append]
      exact List.perm_middle
    refine hperm.nodup_iff.mpr (List.nodup_cons.mpr ⟨?_, h.nodup⟩)
    simp only [List.mem_append, not_or] at hA ⊢
    exact ⟨hA, hE⟩

/-- A timer of the active list. -/
theorem Linked.remove (h : Linked s A E) (ht : t ∈ A)
    (hs : prvTimerRemoveFromActive fuel s t = some s') :
    ∃ pre post, A = pre ++ t :: post ∧ Removed s s' t pre post ∧ Linked s' (pre ++ post) E := by
  obtain ⟨pre, post, rfl⟩ := List.append_of_mem ht
  obtain ⟨hndA, -, hdisj⟩ := List.nodup_append.mp h.nodup
  have hrem := prvTimerRemoveFromActive_spec h.active hndA hs
  refine ⟨pre, post, rfl, hrem, hrem.list, ⟨?_, h.expired.path.congr fun x hx => ?_⟩, ?_⟩
  · exact hrem.settings.expiredList.trans h.expired.head
  · exact hrem.nexts x fun hp => hdisj x (by simp [hp]) x hx rfl
  · refine h.nodup.sublist ?_
    exact (List.Sublist.append_left (List.sublist_cons_self ..) _).append_right _

/-! ## Calls -/

/-- The lists do not depend on the kernel. -/
theorem TimerLists.setKernel (h : TimerLists s A E) (k : Kernel) : TimerLists { s with kernel := k } A E :=
  ⟨⟨h.active, h.expired, h.nodup⟩, h.flags⟩

/-- The lists after a write that touches no link and no flag. -/
theorem TimerLists.write (h : TimerLists s A E) (hn : s'.nexts = s.nexts)
    (hf : ∀ x, (s'.timer x).active = (s.timer x).active)
    (ha : s'.activeTimerList = s.activeTimerList) (he : s'.expiredList = s.expiredList) :
    TimerLists s' A E :=
  ⟨h.toLinked.congr (fun x _ => by rw [hn]) ha he, fun x => by rw [hf, h.flags]⟩

/-- What a call does in its critical section. -/
def TimerOp.body (fuel : Nat) : TimerOp → Option (Timers → Option Timers)
  | .delete t | .stop t | .stopFromIsr t => some (stopTimer fuel · t)
  | .start t | .startFromIsr t => some (startTimer fuel · t)
  | .reset t | .resetFromIsr t => some (resetTimer fuel · t)
  | .changePeriod t p | .changePeriodFromIsr t p =>
      some fun s => if p = 0 then some s else changePeriodTimer fuel s t p
  | .create .. | .tick | .grab | .callNext | .other _ => none

/-- **Task and interrupt calls** do the same to the timers: they differ in how they mask interrupts. -/
theorem timerStep_body {s s' : TimerSys} {op : TimerOp} {body : Timers → Option Timers}
    (hop : op.body fuel = some body) (hs : timerStep fuel s op = some s') :
    ∃ k k' tm, body { s.timers with kernel := k } = some tm ∧
      s' = s.withTimers { tm with kernel := k' } := by
  have hcrit : ∀ {f : Timers → Option Timers} {tm : Timers}, s.timers.inCritical f = some tm →
      ∃ k k' tm₁, f { s.timers with kernel := k } = some tm₁ ∧ tm = { tm₁ with kernel := k' } := by
    intro f tm h
    obtain ⟨tm₁, htm, rfl⟩ := Option.map_eq_some_iff.mp h
    exact ⟨_, _, tm₁, htm, rfl⟩
  have hport : ∀ {f : Timers → Option Timers} {tm : Timers}, s.timers.inPortCritical f = some tm →
      ∃ k k' tm₁, f { s.timers with kernel := k } = some tm₁ ∧ tm = { tm₁ with kernel := k' } := by
    intro f tm h
    obtain ⟨tm₁, htm, rfl⟩ := Option.map_eq_some_iff.mp h
    exact ⟨_, _, tm₁, htm, rfl⟩
  -- the calls without a status
  have hplain : ∀ {c : Option Timers} {f : Timers → Option Timers},
      c.map s.withTimers = some s' → (c = s.timers.inCritical f ∨ c = s.timers.inPortCritical f) →
      ∃ k k' tm, f { s.timers with kernel := k } = some tm ∧
        s' = s.withTimers { tm with kernel := k' } := by
    intro c f hc hcf
    obtain ⟨tm, htm, rfl⟩ := Option.map_eq_some_iff.mp hc
    obtain ⟨k, k', tm₁, hf, rfl⟩ : ∃ k k' tm₁, f { s.timers with kernel := k } = some tm₁ ∧
        tm = { tm₁ with kernel := k' } := by
      rcases hcf with rfl | rfl
      · exact hcrit htm
      · exact hport htm
    exact ⟨k, k', tm₁, hf, rfl⟩
  -- a zero period is refused before the critical section
  have hperiod : ∀ {t : TimerId} {p : BitVec 32} {c : Option Timers},
      ((if p = 0 then some (Status.errParam, s.timers) else c.map fun tm => (Status.ok, tm)).map
        fun r => s.withTimers r.2) = some s' →
      (c = s.timers.inCritical (changePeriodTimer fuel · t p) ∨
        c = s.timers.inPortCritical (changePeriodTimer fuel · t p)) →
      ∃ k k' tm, (if p = 0 then some { s.timers with kernel := k }
          else changePeriodTimer fuel { s.timers with kernel := k } t p) = some tm ∧
        s' = s.withTimers { tm with kernel := k' } := by
    intro t p c hc hcf
    by_cases hp : p = 0
    · rw [if_pos hp] at hc
      obtain rfl := Option.some.inj hc
      exact ⟨s.timers.kernel, s.timers.kernel, s.timers, if_pos hp, rfl⟩
    · rw [if_neg hp, Option.map_map] at hc
      simp only [if_neg hp]
      exact hplain hc hcf
  cases op with
  | delete t => exact Option.some.inj hop ▸ hplain hs (Or.inl rfl)
  | start t => exact Option.some.inj hop ▸ hplain hs (Or.inl rfl)
  | stop t => exact Option.some.inj hop ▸ hplain hs (Or.inl rfl)
  | reset t => exact Option.some.inj hop ▸ hplain hs (Or.inl rfl)
  | changePeriod t p => exact Option.some.inj hop ▸ hperiod hs (Or.inl rfl)
  | startFromIsr t => exact Option.some.inj hop ▸ hplain hs (Or.inr rfl)
  | stopFromIsr t => exact Option.some.inj hop ▸ hplain hs (Or.inr rfl)
  | resetFromIsr t => exact Option.some.inj hop ▸ hplain hs (Or.inr rfl)
  | changePeriodFromIsr t p => exact Option.some.inj hop ▸ hperiod hs (Or.inr rfl)
  | _ => cases hop

/-- An active timer taken out of its list. -/
theorem TimerLists.takeOut {s₁ : Timers} (h : TimerLists s A E) (ht : (s.timer t).active = true)
    (hs : prvTimerRemoveFromActive fuel s t = some s₁) :
    ∃ B, Linked s₁ B E ∧ SameSettings s s₁ ∧ t ∉ B ∧ t ∉ E ∧ ∀ x, x ∈ A ↔ x = t ∨ x ∈ B := by
  have hmem := (h.flags t).mp ht
  obtain ⟨hndA, -, hdisj⟩ := List.nodup_append.mp h.nodup
  obtain ⟨pre, post, rfl, hrem, hlink⟩ := h.toLinked.remove hmem hs
  obtain ⟨-, hndpost, hd⟩ := List.nodup_append.mp hndA
  refine ⟨pre ++ post, hlink, hrem.settings, ?_, fun hE => hdisj t hmem t hE rfl, fun x => ?_⟩
  · simp only [List.mem_append, not_or]
    exact ⟨fun hp => hd t hp t (by simp) rfl, (List.nodup_cons.mp hndpost).1⟩
  · simp only [List.mem_append, List.mem_cons]
    tauto

/-- **A timer that is in no list** is marked active and inserted. -/
theorem Linked.arm (h : Linked s B E) (hB : t ∉ B) (hE : t ∉ E)
    (hf : ∀ x, (s.timer x).active = true ↔ x = t ∨ x ∈ B)
    (hs : prvTimerInsertSorted fuel s t = some s') : ∃ A', TimerLists s' A' E := by
  obtain ⟨pre, post, rfl, hins, hlink⟩ := h.insert hB hE hs
  refine ⟨_, hlink, fun x => ?_⟩
  rw [hins.settings.active, hf]
  simp only [List.mem_append, List.mem_cons]
  tauto

/-- Stopping a timer keeps the lists intact. -/
theorem TimerLists.stopTimer (h : TimerLists s A E) (hs : stopTimer fuel s t = some s') :
    ∃ A', TimerLists s' A' E := by
  unfold MiniRTOS.stopTimer at hs
  split at hs
  · next hact =>
      obtain ⟨s₁, hrem, hs⟩ := Option.bind_eq_some_iff.mp hs
      obtain rfl := Option.some.inj hs
      obtain ⟨B, hlink, hset, htB, htE, hmem⟩ := h.takeOut hact hrem
      refine ⟨B, hlink.congr (fun x _ => by rw [nexts_setActive]) rfl rfl, fun x => ?_⟩
      rw [active_setActive, hset.active]
      by_cases hx : x = t
      · simp [hx, htB]
      · simp [hx, h.flags, hmem]
  · obtain rfl := Option.some.inj hs
    exact ⟨A, h⟩

/-- So does starting one that is not on its way to its callback. -/
theorem TimerLists.startTimer (h : TimerLists s A E) (htE : t ∉ E)
    (hs : startTimer fuel s t = some s') : ∃ A', TimerLists s' A' E := by
  obtain ⟨s₁, hout, hs⟩ := Option.bind_eq_some_iff.mp hs
  have hB : ∃ B, Linked s₁ B E ∧ SameSettings s s₁ ∧ t ∉ B ∧
      ∀ x, x ≠ t → (x ∈ A ↔ x ∈ B) := by
    split at hout
    · next hact =>
        obtain ⟨B, hlink, hset, htB, -, hmem⟩ := h.takeOut hact hout
        exact ⟨B, hlink, hset, htB, fun x hx => by simp [hmem, hx]⟩
    · next hact =>
        obtain rfl := Option.some.inj hout
        exact ⟨A, h.toLinked, .refl s, fun ht => hact ((h.flags t).mpr ht), fun _ _ => Iff.rfl⟩
  obtain ⟨B, hlink, hset, htB, hmem⟩ := hB
  have hl : Linked ((s₁.setRemaining t (s₁.timer t).period).setActive t true) B E :=
    hlink.congr (fun x _ => by rw [nexts_setActive, nexts_setRemaining]) rfl rfl
  refine hl.arm htB htE (fun x => ?_) hs
  rw [active_setActive, (SameSettings.setRemaining ..).active, hset.active]
  by_cases hx : x = t
  · simp [hx]
  · simp [hx, h.flags, hmem x hx]

/-- So does resetting one. -/
theorem TimerLists.resetTimer (h : TimerLists s A E) (hs : resetTimer fuel s t = some s') :
    ∃ A', TimerLists s' A' E := by
  unfold MiniRTOS.resetTimer at hs
  split at hs
  · next hact =>
      obtain ⟨s₁, hrem, hs⟩ := Option.bind_eq_some_iff.mp hs
      obtain ⟨B, hlink, hset, htB, htE, hmem⟩ := h.takeOut hact hrem
      refine (hlink.setRemaining _).arm htB htE (fun x => ?_) hs
      rw [(SameSettings.setRemaining ..).active, hset.active, h.flags, hmem]
  · obtain rfl := Option.some.inj hs
    exact ⟨A, h⟩

/-- So does a new period. -/
theorem TimerLists.changePeriodTimer {p : BitVec 32} (h : TimerLists s A E)
    (hs : changePeriodTimer fuel s t p = some s') : ∃ A', TimerLists s' A' E := by
  have h₁ : TimerLists (s.setPeriod t p) A E :=
    h.write (nexts_setPeriod s t p) (active_setPeriod s t p) rfl rfl
  unfold MiniRTOS.changePeriodTimer at hs
  dsimp only at hs
  split at hs
  · next hact =>
      obtain ⟨s₁, hrem, hs⟩ := Option.bind_eq_some_iff.mp hs
      obtain ⟨B, hlink, hset, htB, htE, hmem⟩ := h₁.takeOut hact hrem
      refine (hlink.setRemaining _).arm htB htE (fun x => ?_) hs
      rw [(SameSettings.setRemaining ..).active, hset.active, h₁.flags, hmem]
  · obtain rfl := Option.some.inj hs
    exact ⟨A, h₁⟩

/-! ## The tick -/

/-- Counting down leaves the links alone. -/
@[simp] theorem nexts_countDown (s : Timers) : (countDown s).nexts = s.nexts := by
  unfold countDown
  split
  · rfl
  · rw [nexts_setRemaining]

/-- It leaves the settings alone. -/
theorem settings_countDown (s : Timers) : SameSettings s (countDown s) := by
  unfold countDown
  split
  · exact .refl s
  · exact .setRemaining ..

/-- It leaves the head of the list alone. -/
theorem activeTimerList_countDown (s : Timers) :
    (countDown s).activeTimerList = s.activeTimerList := by
  unfold countDown
  split <;> rfl

/-- The timers of the active list that a tick expires. -/
def Timers.expiring (s : Timers) (A : List TimerId) : List TimerId :=
  A.takeWhile fun t => decide ((countDown s).rem t = 0)

/-- An expired timer points to those that expired before it. -/
@[simp] theorem nexts_pushExpired (s : Timers) (t : TimerId) :
    (pushExpired s t).nexts = Function.update s.nexts t s.expiredList := nexts_setNext ..

/-- Its difference stays. -/
@[simp] theorem rem_pushExpired (s : Timers) (t : TimerId) : (pushExpired s t).rem = s.rem :=
  rem_setNext ..

/-- So do the settings of all timers. -/
theorem timer_pushExpired (s : Timers) (t x : TimerId) :
    ((pushExpired s t).timer x).active = (s.timer x).active ∧
      ((pushExpired s t).timer x).type = (s.timer x).type ∧
      ((pushExpired s t).timer x).period = (s.timer x).period :=
  have h := SameSettings.setNext s t s.expiredList
  ⟨h.active x, h.type x, h.period x⟩

/-- What the loop of `os_timer_tick` does to a one-shot timer. -/
def expireOneShot (s : Timers) (t : TimerId) : Timers :=
  pushExpired (({ s with activeTimerList := s.nexts t } : Timers).setActive t false) t

/-- Expiring a one-shot timer needs no walk. -/
theorem expireTimer_oneShot (hty : (s.timer t).type = .oneShot) :
    expireTimer fuel s t = some (expireOneShot s t) := by
  have hauto : ¬(s.timer t).type = .autoReload := by simp [hty]
  unfold expireTimer
  exact congrArg (Option.map _) (if_neg hauto)

/-- The links after a one-shot timer has expired. -/
@[simp] theorem nexts_expireOneShot (s : Timers) (t : TimerId) :
    (expireOneShot s t).nexts = Function.update s.nexts t s.expiredList := by
  rw [expireOneShot, nexts_pushExpired, nexts_setActive]
  rfl

/-- Its difference stays. -/
@[simp] theorem rem_expireOneShot (s : Timers) (t : TimerId) : (expireOneShot s t).rem = s.rem := by
  rw [expireOneShot, rem_pushExpired, rem_setActive, rem_setList]

/-- The kinds of the timers stay. -/
theorem type_expireOneShot (s : Timers) (t x : TimerId) :
    ((expireOneShot s t).timer x).type = (s.timer x).type := by
  rw [expireOneShot, (timer_pushExpired ..).2.1, type_setActive]

/-- Their periods stay. -/
theorem period_expireOneShot (s : Timers) (t x : TimerId) :
    ((expireOneShot s t).timer x).period = (s.timer x).period := by
  rw [expireOneShot, (timer_pushExpired ..).2.2, period_setActive]

/-- The expired timer is not active any more. -/
theorem active_expireOneShot (s : Timers) (t x : TimerId) :
    ((expireOneShot s t).timer x).active = if x = t then false else (s.timer x).active := by
  rw [expireOneShot, (timer_pushExpired ..).1, active_setActive]

/-- The loop of `os_timer_tick` on a list: it stops, or expires the head and goes on. -/
theorem expireLoop_cases {walk : Nat} {ts : List TimerId} (hA : IsList s.nexts s.activeTimerList A)
    (hs : expireLoop walk fuel s = some (ts, s')) :
    ((∀ t ∈ A.head?, s.rem t ≠ 0) ∧ ts = [] ∧ s' = s) ∨
      ∃ t B n s₁ us, A = t :: B ∧ s.rem t = 0 ∧ fuel = n + 1 ∧ expireTimer walk s t = some s₁ ∧
        expireLoop walk n s₁ = some (us, s') ∧ ts = t :: us := by
  unfold expireLoop at hs
  cases A with
  | nil =>
      have hnone : s.activeTimerList = none := hA.head
      simp only [hnone] at hs
      obtain ⟨rfl, rfl⟩ := Prod.mk.inj (Option.some.inj hs)
      exact Or.inl ⟨by simp, rfl, rfl⟩
  | cons t B =>
      have hsome : s.activeTimerList = some t := hA.head
      simp only [hsome] at hs
      split at hs
      · next hne =>
          obtain ⟨rfl, rfl⟩ := Prod.mk.inj (Option.some.inj hs)
          exact Or.inl ⟨fun x hx => Option.some.inj hx ▸ hne, rfl, rfl⟩
      · next hz =>
          have hz : s.rem t = 0 := not_not.mp hz
          cases fuel with
          | zero => cases hs
          | succ n =>
              obtain ⟨s₁, hexp, hs⟩ := Option.bind_eq_some_iff.mp hs
              obtain ⟨⟨us, s₂⟩, hloop, hs⟩ := Option.bind_eq_some_iff.mp hs
              obtain ⟨rfl, rfl⟩ := Prod.mk.inj (Option.some.inj hs)
              exact Or.inr ⟨t, B, n, s₁, us, rfl, hz, rfl, hexp, hloop, rfl⟩

/-- One iteration of the loop of `os_timer_tick`. -/
theorem expireLoop_cons {walk n : Nat} (hA : IsList s.nexts s.activeTimerList (t :: A))
    (hz : s.rem t = 0) : expireLoop walk (n + 1) s =
      (expireTimer walk s t).bind fun s₁ => (expireLoop walk n s₁).bind fun r => some (t :: r.1, r.2) := by
  have hsome : s.activeTimerList = some t := hA.head
  have hz : ¬(s.timer t).remaining ≠ 0 := not_not.mpr hz
  rw [expireLoop]
  simp only [hsome, if_neg hz]
  rfl

/-- The loop stops in front of a timer with ticks left. -/
theorem expireLoop_stop {walk : Nat} (hA : IsList s.nexts s.activeTimerList A)
    (hz : ∀ t ∈ A.head?, s.rem t ≠ 0) : expireLoop walk fuel s = some ([], s) := by
  unfold expireLoop
  cases A with
  | nil =>
      have hnone : s.activeTimerList = none := hA.head
      simp only [hnone]
  | cons a A =>
      have hsome : s.activeTimerList = some a := hA.head
      simp only [hsome]
      exact if_pos (hz a rfl)

/-- **The loop of `os_timer_tick` over one-shot timers**: the timers in front whose ticks are used up
go, one by one. A property of the state and its active list that survives one of them survives the
loop. -/
theorem expireLoop_oneShot {walk : Nat} {ts : List TimerId} {P : Timers → List TimerId → Prop}
    (hlist : ∀ s A, P s A → IsList s.nexts s.activeTimerList A)
    (hstep : ∀ s t A, P s (t :: A) → P (expireOneShot s t) A) (h : P s A)
    (hty : ∀ t ∈ A.takeWhile fun t => decide (s.rem t = 0), (s.timer t).type = .oneShot)
    (hs : expireLoop walk fuel s = some (ts, s')) :
    ts = (A.takeWhile fun t => decide (s.rem t = 0)) ∧
      P s' (A.dropWhile fun t => decide (s.rem t = 0)) := by
  -- one iteration takes one timer off the front, so the induction is on the list
  induction A generalizing fuel s ts with
  | nil =>
      rcases expireLoop_cases (hlist s _ h) hs with ⟨-, rfl, rfl⟩ | ⟨t, B, n, s₁, us, hB, -⟩
      · exact ⟨rfl, h⟩
      · cases hB
  | cons a A ih =>
      rcases expireLoop_cases (hlist s _ h) hs with
        ⟨hne, rfl, rfl⟩ | ⟨t, B, n, s₁, us, hB, hz, -, hexp, hloop, rfl⟩
      · have hne : ¬s'.rem a = 0 := hne a rfl
        simp only [List.takeWhile_cons, List.dropWhile_cons, hne, decide_false]
        exact ⟨rfl, h⟩
      · obtain ⟨rfl, rfl⟩ := List.cons.inj hB
        simp only [List.takeWhile_cons, List.dropWhile_cons, hz, decide_true, if_true] at hty ⊢
        have hs₁ : expireOneShot s a = s₁ :=
          Option.some.inj ((expireTimer_oneShot (hty a (by simp))).symm.trans hexp)
        subst hs₁
        have hty₁ : ∀ x ∈ A.takeWhile fun x => decide ((expireOneShot s a).rem x = 0),
            ((expireOneShot s a).timer x).type = .oneShot := by
          intro x hx
          rw [rem_expireOneShot] at hx
          exact (type_expireOneShot ..).trans (hty x (List.mem_cons_of_mem _ hx))
        obtain ⟨hus, h'⟩ := ih (hstep s a A h) hty₁ hloop
        rw [rem_expireOneShot] at hus h'
        exact ⟨by rw [hus], h'⟩

/-- The loop ends when every timer it expires is one-shot: each iteration takes one off the list. -/
theorem expireLoop_oneShot_isSome (walk : Nat) {P : Timers → List TimerId → Prop}
    (hlist : ∀ s A, P s A → IsList s.nexts s.activeTimerList A)
    (hstep : ∀ s t A, P s (t :: A) → P (expireOneShot s t) A) (h : P s A)
    (hty : ∀ t ∈ A.takeWhile fun t => decide (s.rem t = 0), (s.timer t).type = .oneShot)
    (hfuel : A.length ≤ fuel) : ∃ r, expireLoop walk fuel s = some r := by
  induction A generalizing fuel s with
  | nil => exact ⟨([], s), expireLoop_stop (hlist s _ h) (by simp)⟩
  | cons a A ih =>
      by_cases hz : s.rem a = 0
      · obtain ⟨n, rfl⟩ : ∃ n, fuel = n + 1 := ⟨fuel - 1, by simp at hfuel; omega⟩
        simp only [List.takeWhile_cons, hz, decide_true, if_true] at hty
        have hty₁ : ∀ x ∈ A.takeWhile fun x => decide ((expireOneShot s a).rem x = 0),
            ((expireOneShot s a).timer x).type = .oneShot := by
          intro x hx
          rw [rem_expireOneShot] at hx
          exact (type_expireOneShot ..).trans (hty x (List.mem_cons_of_mem _ hx))
        obtain ⟨r, hr⟩ := ih (hstep s a A h) hty₁ (Nat.le_of_succ_le_succ hfuel)
        refine ⟨(a :: r.1, r.2), ?_⟩
        rw [expireLoop_cons (hlist s _ h) hz, expireTimer_oneShot (hty a (by simp)), Option.bind_some, hr]
        rfl
      · refine ⟨([], s), expireLoop_stop (hlist s _ h) fun x hx => ?_⟩
        exact Option.some.inj hx ▸ hz

/-- **A one-shot timer that expires** goes from one list to the other. -/
theorem TimerLists.expireOneShot (h : TimerLists s (t :: A) E) :
    TimerLists (expireOneShot s t) A (t :: E) := by
  have hperm : (A ++ t :: E).Perm (t :: A ++ E) := List.perm_middle
  have hnd : (t :: (A ++ E)).Nodup := h.nodup
  have ht := (List.nodup_cons.mp hnd).1
  simp only [List.mem_append, not_or] at ht
  have hnexts : ∀ x, x ≠ t → (MiniRTOS.expireOneShot s t).nexts x = s.nexts x := by
    intro x hx
    rw [nexts_expireOneShot, Function.update_of_ne hx]
  refine ⟨⟨⟨?_, ?_⟩, ⟨rfl, ?_, ?_⟩, hperm.nodup_iff.mpr h.nodup⟩, fun x => ?_⟩
  · show s.nexts t = A.head?
    simpa using h.active.path.1
  · refine h.active.path.2.congr fun x hx => hnexts x ?_
    rintro rfl
    exact ht.1 hx
  · rw [nexts_expireOneShot, Function.update_self, Option.or_none]
    exact h.expired.head
  · refine h.expired.path.congr fun x hx => hnexts x ?_
    rintro rfl
    exact ht.2 hx
  · rw [active_expireOneShot]
    by_cases hx : x = t
    · simp [hx, ht.1]
    · simpa [hx] using h.flags x

/-- `os_timer_tick` without an active timer, and with one. -/
theorem osTimerTick_cases {ts : List TimerId} (hs : osTimerTick fuel s = some (ts, s')) :
    (s.activeTimerList = none ∧ ts = [] ∧ s' = s) ∨
      ∃ s₁ k, s.activeTimerList ≠ none ∧ expireLoop fuel fuel (countDown s) = some (ts, s₁) ∧
        s' = { s₁ with kernel := k } := by
  unfold osTimerTick at hs
  split at hs
  · next hnone =>
      obtain ⟨rfl, rfl⟩ := Prod.mk.inj (Option.some.inj hs)
      exact Or.inl ⟨hnone, rfl, rfl⟩
  · next hsome =>
      obtain ⟨⟨us, s₁⟩, hloop, hs⟩ := Option.bind_eq_some_iff.mp hs
      dsimp only at hs
      split at hs
      · next hnil =>
          obtain ⟨rfl, rfl⟩ := Prod.mk.inj (Option.some.inj hs)
          exact Or.inr ⟨s₁, s₁.kernel, hsome, hnil ▸ hloop, rfl⟩
      · obtain ⟨r, -, hs⟩ := Option.bind_eq_some_iff.mp hs
        obtain ⟨rfl, rfl⟩ := Prod.mk.inj (Option.some.inj hs)
        exact Or.inr ⟨s₁, r.1, hsome, hloop, rfl⟩

/-- **The tick** when it expires one-shot timers only. -/
theorem TimerLists.osTimerTick {ts : List TimerId} (h : TimerLists s A E)
    (hty : ∀ t ∈ s.expiring A, (s.timer t).type = .oneShot)
    (hs : osTimerTick fuel s = some (ts, s')) : ∃ A' E', TimerLists s' A' E' := by
  rcases osTimerTick_cases hs with ⟨-, -, rfl⟩ | ⟨s₁, k, -, hloop, rfl⟩
  · exact ⟨A, E, h⟩
  · have hset := settings_countDown s
    have h₀ : TimerLists (countDown s) A E :=
      h.write (nexts_countDown s) hset.active (activeTimerList_countDown s) hset.expiredList
    obtain ⟨-, E', h₁⟩ := expireLoop_oneShot (P := fun s A => ∃ E, TimerLists s A E)
      (fun _ _ ⟨_, h⟩ => h.active) (fun _ _ _ ⟨_, h⟩ => ⟨_, h.expireOneShot⟩) ⟨E, h₀⟩
      (fun t ht => (hset.type t).trans (hty t ht)) hloop
    exact ⟨_, E', h₁.setKernel k⟩

/-! ## Cutting the expired list -/

/-- **`timer->next = NULL`** for a timer that is not in front of another active one: the active list
stays, and the expired list ends at that timer. -/
theorem TimerLists.cut (h : TimerLists s A E) (hn : ∀ x, s'.nexts x = if x = t then none else s.nexts x)
    (hf : ∀ x, (s'.timer x).active = (s.timer x).active)
    (ha : s'.activeTimerList = s.activeTimerList) (he : s'.expiredList = s.expiredList)
    (hlast : t ∈ A → s.nexts t = none) : ∃ E', TimerLists s' A E' := by
  obtain ⟨hndA, hndE, hdisj⟩ := List.nodup_append.mp h.nodup
  have hactive : IsList s'.nexts s'.activeTimerList A := by
    refine ⟨ha.trans h.active.head, h.active.path.congr fun x hx => ?_⟩
    rw [hn]
    split
    · next hxt => rw [hxt, hlast (hxt ▸ hx)]
    · rfl
  have hflags : ∀ x, (s'.timer x).active = true ↔ x ∈ A := fun x => by rw [hf, h.flags]
  by_cases htE : t ∈ E
  · -- the expired list now ends at `t`: what was behind it is lost
    obtain ⟨l, r, rfl⟩ := List.append_of_mem htE
    have htl : t ∉ l := by
      have hd := (List.nodup_append.mp hndE).2.2
      exact fun htl => hd t htl t (by simp) rfl
    refine ⟨l ++ [t], ⟨hactive, ⟨?_, ?_⟩, ?_⟩, hflags⟩
    · rw [he, h.expired.head]
      cases l <;> rfl
    · have hp := (path_append ..).mp h.expired.path
      refine (path_append ..).mpr ⟨hp.1.congr fun x hx => ?_, ?_⟩
      · rw [hn, if_neg]
        rintro rfl
        exact htl hx
      · exact ⟨by rw [hn, if_pos rfl]; rfl, trivial⟩
    · refine h.nodup.sublist ?_
      refine List.Sublist.append_left (List.Sublist.append_left ?_ _) _
      exact List.singleton_sublist.mpr (by simp)
  · refine ⟨E, ⟨hactive, ⟨he.trans h.expired.head, h.expired.path.congr fun x hx => ?_⟩, h.nodup⟩, hflags⟩
    rw [hn, if_neg]
    rintro rfl
    exact htE hx

/-! ## Whole runs -/

/-- **Steps that keep the lists apart**: no auto-reload timer expires, a timer is not started while it
is queued as expired, the service task takes no timer off its list that is active and in front of
another one, and no active timer is created again. -/
def KeepsLists (s : TimerSys) : TimerOp → Prop
  | .create t p _ cb => cb ≠ none → p ≠ 0 → (s.timers.timer t).active = false
  | .start t | .startFromIsr t => ∀ E, IsList s.timers.nexts s.timers.expiredList E → t ∉ E
  | .tick => ∀ A, IsList s.timers.nexts s.timers.activeTimerList A →
      ∀ t ∈ s.timers.expiring A, (s.timers.timer t).type = .oneShot
  | .callNext => ∀ t ∈ s.list, (s.timers.timer t).active = true → (s.timers.timer t).next = none
  | _ => True

/-- **One step.** -/
theorem TimerLists.step {s s' : TimerSys} {op : TimerOp} (h : TimerLists s.timers A E)
    (hop : KeepsLists s op) (hs : timerStep fuel s op = some s') :
    ∃ A' E', TimerLists s'.timers A' E' := by
  have hcall : ∀ {body : Timers → Option Timers}, op.body fuel = some body →
      (∀ s₁ s₂, TimerLists s₁ A E → body s₁ = some s₂ → ∃ A', TimerLists s₂ A' E) →
      ∃ A' E', TimerLists s'.timers A' E' := by
    intro body hbody hkeep
    obtain ⟨k, k', tm, htm, rfl⟩ := timerStep_body hbody hs
    obtain ⟨A', h'⟩ := hkeep _ tm (h.setKernel k) htm
    exact ⟨A', E, h'.setKernel k'⟩
  have hperiod : ∀ {t : TimerId} {p : BitVec 32} {s₁ s₂ : Timers}, TimerLists s₁ A E →
      (if p = 0 then some s₁ else MiniRTOS.changePeriodTimer fuel s₁ t p) = some s₂ →
      ∃ A', TimerLists s₂ A' E := by
    intro t p s₁ s₂ h hb
    split at hb
    · exact ⟨A, Option.some.inj hb ▸ h⟩
    · exact h.changePeriodTimer hb
  cases op with
  | create t p ty cb =>
      obtain rfl := Option.some.inj hs
      show ∃ A' E', TimerLists (osTimerCreate s.timers t p ty cb).2 A' E'
      unfold osTimerCreate
      split
      · exact ⟨A, E, h⟩
      · next hvalid =>
          simp only [not_or] at hvalid
          have hinactive := hop hvalid.1 hvalid.2
          have htA : t ∉ A := fun ht => by
            rw [← h.flags t, hinactive] at ht
            cases ht
          refine ⟨A, h.cut (t := t) (fun x => ?_) (fun x => ?_) rfl rfl fun ht => absurd ht htA⟩
          · simp only [Timers.nexts, Timers.set, Function.update_apply]
            split <;> rfl
          · simp only [Timers.set, Function.update_apply]
            split
            · next hx => rw [hx, hinactive]
            · rfl
  | delete t => exact hcall rfl fun _ _ h hb => h.stopTimer hb
  | start t => exact hcall rfl fun _ _ h' hb => h'.startTimer (hop E h.expired) hb
  | stop t => exact hcall rfl fun _ _ h hb => h.stopTimer hb
  | reset t => exact hcall rfl fun _ _ h hb => h.resetTimer hb
  | changePeriod t p => exact hcall rfl fun _ _ h hb => hperiod h hb
  | startFromIsr t => exact hcall rfl fun _ _ h' hb => h'.startTimer (hop E h.expired) hb
  | stopFromIsr t => exact hcall rfl fun _ _ h hb => h.stopTimer hb
  | resetFromIsr t => exact hcall rfl fun _ _ h hb => h.resetTimer hb
  | changePeriodFromIsr t p => exact hcall rfl fun _ _ h hb => hperiod h hb
  | tick =>
      obtain ⟨⟨ts, tm⟩, htm, rfl⟩ := Option.map_eq_some_iff.mp hs
      exact h.osTimerTick (hop A h.active) htm
  | grab =>
      rw [timerStep] at hs
      split at hs
      · obtain rfl := Option.some.inj hs
        refine ⟨A, [], ⟨h.active, ⟨rfl, trivial⟩, ?_⟩, h.flags⟩
        rw [List.append_nil]
        exact (List.nodup_append.mp h.nodup).1
      · cases hs
  -- the service task clears `next` of the timer it calls; an active one must be the last of its
  -- list
  | callNext =>
      obtain ⟨t, ht, hs⟩ := Option.bind_eq_some_iff.mp hs
      obtain rfl := Option.some.inj hs
      refine ⟨A, h.cut (t := t) (fun x => ?_) (SameSettings.setNext ..).active rfl rfl fun htA => ?_⟩
      · rw [nexts_setNext, Function.update_apply]
      · exact hop t ht ((h.flags t).mpr htA)
  | other k =>
      obtain rfl := Option.some.inj hs
      exact ⟨A, E, h.setKernel k⟩

/-- `KeepsLists` can be checked on lists of at most `n` timers. -/
def keepsLists (n : Nat) (s : TimerSys) : TimerOp → Bool
  | .create t _ _ _ => !(s.timers.timer t).active
  | .start t | .startFromIsr t =>
      (readList s.timers.nexts n s.timers.expiredList).any fun E => decide (t ∉ E)
  | .tick => (readList s.timers.nexts n s.timers.activeTimerList).any fun A =>
      decide (∀ t ∈ s.timers.expiring A, (s.timers.timer t).type = .oneShot)
  | .callNext => decide (∀ t ∈ s.list,
      (s.timers.timer t).active = true → (s.timers.timer t).next = none)
  | _ => true

/-- The decision procedure is right. -/
theorem keepsLists_sound {n : Nat} {s : TimerSys} {op : TimerOp} (h : keepsLists n s op = true) :
    KeepsLists s op := by
  cases op with
  | create t p ty cb =>
      intro _ _
      simpa [keepsLists] using h
  | start t => exact forall_isList_of_readList (P := fun E => t ∉ E) h
  | startFromIsr t => exact forall_isList_of_readList (P := fun E => t ∉ E) h
  | tick =>
      exact forall_isList_of_readList
        (P := fun A => ∀ t ∈ s.timers.expiring A, (s.timers.timer t).type = .oneShot) h
  | callNext =>
      show ∀ t ∈ s.list, (s.timers.timer t).active = true → (s.timers.timer t).next = none
      exact of_decide_eq_true h
  | _ => trivial

/-- The lists after `os_timer_init`. -/
theorem TimerSys.Init.timerLists {s : TimerSys} (h : s.Init) : TimerLists s.timers [] [] := by
  refine ⟨⟨⟨h.lists.1, trivial⟩, ⟨h.lists.2.1, trivial⟩, List.nodup_nil⟩, fun t => ?_⟩
  simp [h.inactive t]

/-- **Timer list integrity.** In every state that a run reaches whose steps keep the lists apart, there
are an active list and an expired list, both acyclic and with no timer in common, and the active list
holds exactly the timers whose active flag is set, each once. -/
theorem timerLists_intact {s₀ s : TimerSys} {ops : List TimerOp} (h₀ : s₀.Init)
    (hr : Run KeepsLists (timerStep fuel) s₀ ops s) :
    ∃ A E, IsList s.timers.nexts s.timers.activeTimerList A ∧
      IsList s.timers.nexts s.timers.expiredList E ∧ (A ++ E).Nodup ∧
      ∀ t, (s.timers.timer t).active = true ↔ t ∈ A := by
  have hinv : ∃ A E, TimerLists s.timers A E := by
    refine hr.invariant (fun s => ∃ A E, TimerLists s.timers A E) ?_ ⟨[], [], h₀.timerLists⟩
    rintro s op s' ⟨A, E, h⟩ hop hs
    exact h.step hop hs
  obtain ⟨A, E, h⟩ := hinv
  exact ⟨A, E, h.active, h.expired, h.nodup, h.flags⟩

/-- Three one-shot timers; the second and the third expire together, and the second is started again
from its callback. -/
def oneShotTrace : List TimerOp :=
  [.create 0x10 9 .oneShot (some 1), .create 0x20 2 .oneShot (some 1), .create 0x30 2 .oneShot (some 1),
    .start 0x10, .start 0x20, .start 0x30, .tick, .tick, .grab, .callNext, .callNext, .start 0x20,
    .stop 0x10]

/-- Zeroed timers are a start. -/
theorem TimerSys.zero_init : TimerSys.zero.Init := ⟨⟨rfl, rfl, rfl⟩, fun _ => rfl, rfl, rfl⟩

/-- Two timers have expired together, and both callbacks have been called. -/
theorem timerLists_intact_oneShotTrace :
    ∃ s, Run KeepsLists (timerStep 8) .zero oneShotTrace s ∧ s.called = [0x30, 0x20] ∧
      ∃ A E, IsList s.timers.nexts s.timers.activeTimerList A ∧
        IsList s.timers.nexts s.timers.expiredList E ∧ (A ++ E).Nodup ∧
        ∀ t, (s.timers.timer t).active = true ↔ t ∈ A := by
  obtain ⟨s, hr, hcalled⟩ := exists_run_of_exec (fun s op => keepsLists 8 s op = true) (timerStep 8)
    .zero oneShotTrace (fun s => s.called = [0x30, 0x20]) (by decide +kernel)
  have hr' : Run KeepsLists (timerStep 8) .zero oneShotTrace s := hr.mono fun _ _ => keepsLists_sound
  exact ⟨s, hr', hcalled, timerLists_intact TimerSys.zero_init hr'⟩

/-- **Counterexample.** One auto-reload timer of period 1: after the first tick it is at the head of
both lists. -/
theorem autoReload_in_both_lists :
    ∃ s, Run (fun _ _ => True) (timerStep 8) .zero
        [.create 0x10 1 .autoReload (some 1), .start 0x10, .tick] s ∧
      ¬∃ A E, IsList s.timers.nexts s.timers.activeTimerList A ∧
        IsList s.timers.nexts s.timers.expiredList E ∧ (A ++ E).Nodup ∧
        ∀ t, (s.timers.timer t).active = true ↔ t ∈ A := by
  obtain ⟨s, hr, hactive, hexpired⟩ := exists_run_of_exec (fun _ _ => True) (timerStep 8) .zero
    [.create 0x10 1 .autoReload (some 1), .start 0x10, .tick]
    (fun s => s.timers.activeTimerList = some 0x10 ∧ s.timers.expiredList = some 0x10)
    (by decide +kernel)
  refine ⟨s, hr, ?_⟩
  rintro ⟨A, E, hA, hE, hnd, -⟩
  have hmemA : 0x10 ∈ A := List.mem_of_mem_head? (hA.head.symm.trans hactive)
  have hmemE : 0x10 ∈ E := List.mem_of_mem_head? (hE.head.symm.trans hexpired)
  exact (List.nodup_append.mp hnd).2.2 _ hmemA _ hmemE rfl

end MiniRTOS
