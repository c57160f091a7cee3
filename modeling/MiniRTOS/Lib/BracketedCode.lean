import Mathlib.Data.Nat.Basic

/-! # Code that takes and gives back a lock in pairs

Structured code, reduced to what decides whether its sections are balanced: where it enters and exits a
section, what it calls, and how control flows. Every test can go either way and every loop can take any
number of turns, so the runs of the code include every path that the program can take.

* **`Runs`** — the runs of a piece of code, whole and unfinished ones, with the sections they enter and
  exit.
* **`closes`** — a check of the code: the number of open sections is the same on all paths to a place,
  and none is left open by a return.
* **`Runs.level_eq`** — the runs of checked code never exit a section that they did not enter, and
  return with all sections closed. -/

namespace BracketedCode

/-- What code does to the lock. A `pulse` takes and gives it back at once. -/
inductive Event
  /-- A section is entered. -/
  | enter
  /-- A section is exited. -/
  | exit
  /-- A section of its own, entered and exited. -/
  | pulse
  deriving DecidableEq, Repr

/-! ## Nesting -/

/-- The sections open after a list of events, when `d` are open before it; `none` when it exits a section
that is not open. -/
def level : ℕ → List Event → Option ℕ
  | d, [] => some d
  | d, .enter :: t => level (d + 1) t
  | 0, .exit :: _ => none
  | d + 1, .exit :: t => level d t
  | d, .pulse :: t => level d t

/-- The largest number of sections open at a time. -/
def deepest : ℕ → List Event → ℕ
  | d, [] => d
  | d, .enter :: t => deepest (d + 1) t
  | d, .exit :: t => max d (deepest (d - 1) t)
  | d, .pulse :: t => deepest d t

/-- Nothing changes the depth if nothing happens. -/
@[simp] theorem level_nil (d : ℕ) : level d [] = some d := by
  rw [level]

/-- An enter opens a section. -/
@[simp] theorem level_enter (d : ℕ) (t : List Event) :
    level d (.enter :: t) = level (d + 1) t := by
  rw [level]

/-- An exit without an open section fails. -/
@[simp] theorem level_exit_zero (t : List Event) : level 0 (.exit :: t) = none := by
  rw [level]

/-- An exit closes a section. -/
@[simp] theorem level_exit_succ (d : ℕ) (t : List Event) :
    level (d + 1) (.exit :: t) = level d t := by
  rw [level]

/-- A pulse opens none. -/
@[simp] theorem level_pulse (d : ℕ) (t : List Event) : level d (.pulse :: t) = level d t := by
  rw [level]

/-- The depth after two lists of events in a row. -/
theorem level_append (d : ℕ) (t u : List Event) :
    level d (t ++ u) = (level d t).bind fun e => level e u := by
  induction t generalizing d with
  | nil => rfl
  | cons e t ih =>
      cases e with
      | enter => rw [List.cons_append, level_enter, level_enter, ih]
      | pulse => rw [List.cons_append, level_pulse, level_pulse, ih]
      | exit =>
          cases d with
          | zero => rfl
          | succ d => rw [List.cons_append, level_exit_succ, level_exit_succ, ih]

/-- Code that is run with sections open leaves them open. -/
theorem level_add {d e : ℕ} {t : List Event} (n : ℕ) (h : level d t = some e) :
    level (d + n) t = some (e + n) := by
  induction t generalizing d with
  | nil =>
      obtain rfl : d = e := Option.some.inj h
      rfl
  | cons x t ih =>
      cases x with
      | enter =>
          rw [level_enter] at h ⊢
          rw [Nat.add_right_comm]
          exact ih h
      | pulse =>
          rw [level_pulse] at h ⊢
          exact ih h
      | exit =>
          cases d with
          | zero => cases h
          | succ d =>
              rw [level_exit_succ] at h
              rw [Nat.add_right_comm, level_exit_succ]
              exact ih h

/-- Balanced code leaves the sections around it open. -/
theorem level_of_zero {e : ℕ} {t : List Event} (d : ℕ) (h : level 0 t = some e) :
    level d t = some (e + d) := by
  have hd := level_add d h
  rwa [Nat.zero_add] at hd

/-- Some of the events of code that exits only open sections. -/
theorem exists_level_of_prefix {d e : ℕ} {p t : List Event} (hp : p <+: t)
    (h : level d t = some e) : ∃ e', level d p = some e' := by
  obtain ⟨u, rfl⟩ := hp
  rw [level_append] at h
  obtain ⟨e', h', -⟩ := Option.bind_eq_some_iff.mp h
  exact ⟨e', h'⟩

/-- The deepest point is no less than the start. -/
theorem le_deepest (d : ℕ) (t : List Event) : d ≤ deepest d t := by
  induction t generalizing d with
  | nil => exact le_rfl
  | cons x t ih =>
      cases x with
      | enter => exact Nat.le_of_succ_le (ih (d + 1))
      | exit => exact le_max_left _ _
      | pulse => exact ih d

/-! ## Code -/

/-- **Code** that calls functions from `F`. -/
inductive Code (F : Type*)
  /-- Statements without an effect on the lock. -/
  | skip
  /-- Enter a section. -/
  | enter
  /-- Exit a section. -/
  | exit
  /-- Do both at once. -/
  | pulse
  /-- Call a function. -/
  | call (f : F)
  /-- Code of a caller, by way of a function pointer. -/
  | callback
  /-- One piece of code after the other. -/
  | seq (c₁ c₂ : Code F)
  /-- One of the two. -/
  | choice (c₁ c₂ : Code F)
  /-- The code again and again, until it breaks out or is done. -/
  | loop (c : Code F)
  /-- `break`. -/
  | brk
  /-- `return`. -/
  | ret
  /-- An endless loop without events. -/
  | halt

/-- Statements in a row. -/
def Code.block {F : Type*} : List (Code F) → Code F
  | [] => .skip
  | c :: cs => .seq c (Code.block cs)

/-- A test without an alternative. -/
def Code.test {F : Type*} (c : Code F) : Code F := .choice c .skip

/-- How a run ends. An unfinished run can be continued, unless the code has halted. -/
inductive Outcome
  /-- Control gets to the end. -/
  | normal
  /-- A `break` was met. -/
  | broke
  /-- A `return` was met. -/
  | returned
  /-- The code is still running. -/
  | unfinished
  deriving DecidableEq, Repr

variable {F : Type*} {body : F → Code F}

/-- **The runs of code**, each with its events. Callbacks enter and exit sections in pairs. -/
inductive Runs (body : F → Code F) : Code F → List Event → Outcome → Prop
  /-- Code can stop running at any point. -/
  | pause (c) : Runs body c [] .unfinished
  /-- Nothing is done. -/
  | skip : Runs body .skip [] .normal
  /-- A section is entered. -/
  | enter : Runs body .enter [.enter] .normal
  /-- A section is exited. -/
  | exit : Runs body .exit [.exit] .normal
  /-- A pulse. -/
  | pulse : Runs body .pulse [.pulse] .normal
  /-- A `break`. -/
  | brk : Runs body .brk [] .broke
  /-- A `return`. -/
  | ret : Runs body .ret [] .returned
  /-- A call returns. -/
  | call {f t o} (h : Runs body (body f) t o) (ho : o = .normal ∨ o = .returned) :
      Runs body (.call f) t .normal
  /-- A call is still running. -/
  | callUnfinished {f t} (h : Runs body (body f) t .unfinished) : Runs body (.call f) t .unfinished
  /-- A callback has exited what it entered. -/
  | callback {t} (h : level 0 t = some 0) : Runs body .callback t .normal
  /-- A callback is still running. -/
  | callbackUnfinished {t d} (h : level 0 t = some d) : Runs body .callback t .unfinished
  /-- Both parts run. -/
  | seq {c₁ c₂ t₁ t₂ o} (h₁ : Runs body c₁ t₁ .normal) (h₂ : Runs body c₂ t₂ o) :
      Runs body (.seq c₁ c₂) (t₁ ++ t₂) o
  /-- The first part does not get to its end. -/
  | seqEnds {c₁ c₂ t o} (h : Runs body c₁ t o) (ho : o ≠ .normal) : Runs body (.seq c₁ c₂) t o
  /-- The first one runs. -/
  | left {c₁ c₂ t o} (h : Runs body c₁ t o) : Runs body (.choice c₁ c₂) t o
  /-- The second one runs. -/
  | right {c₁ c₂ t o} (h : Runs body c₂ t o) : Runs body (.choice c₁ c₂) t o
  /-- The loop is done. -/
  | loopDone {c} : Runs body (.loop c) [] .normal
  /-- The loop goes round once more. -/
  | loopAgain {c t₁ t₂ o} (h₁ : Runs body c t₁ .normal) (h₂ : Runs body (.loop c) t₂ o) :
      Runs body (.loop c) (t₁ ++ t₂) o
  /-- The loop is left by a `break`. -/
  | loopBreaks {c t} (h : Runs body c t .broke) : Runs body (.loop c) t .normal
  /-- The loop is left by a `return`, or is still running. -/
  | loopEnds {c t o} (h : Runs body c t o) (ho : o = .returned ∨ o = .unfinished) :
      Runs body (.loop c) t o

/-! ## The check -/

/-- Two paths meet: `none` is a path that does not get there. -/
def meet : Option ℕ → Option ℕ → Option (Option ℕ)
  | none, r => some r
  | r, none => some r
  | some d, some e => if d = e then some (some d) else none

/-- **The check.** With `d` sections open before the code, the number that is open behind it, if control
gets there: `none` when paths disagree or a section is left open. A `break` has to leave `b` open. -/
def closes (b : ℕ) : Code F → ℕ → Option (Option ℕ)
  | .skip, d => some (some d)
  | .enter, d => some (some (d + 1))
  | .exit, 0 => none
  | .exit, d + 1 => some (some d)
  | .pulse, d => some (some d)
  | .call _, d => some (some d)
  | .callback, d => some (some d)
  | .seq c₁ c₂, d => (closes b c₁ d).bind fun r =>
      match r with
      | none => some none
      | some e => closes b c₂ e
  | .choice c₁ c₂, d => (closes b c₁ d).bind fun r₁ => (closes b c₂ d).bind fun r₂ => meet r₁ r₂
  | .loop c, d => (closes d c d).bind fun r =>
      match r with
      | none => some (some d)
      | some e => if e = d then some (some d) else none
  | .brk, d => if d = b then some none else none
  | .ret, d => if d = 0 then some none else none
  | .halt, _ => some none

/-- A function is balanced: a return and the end of its body leave nothing open. -/
def Closed (c : Code F) : Prop := closes 0 c 0 = some none ∨ closes 0 c 0 = some (some 0)

/-- Whether code is closed can be decided. -/
instance (c : Code F) : Decidable (Closed c) := inferInstanceAs (Decidable (_ ∨ _))

variable {b d : ℕ} {c c₁ c₂ : Code F} {r r₁ r₂ : Option ℕ}

/-- Where two paths meet, the depth is that of the first one. -/
theorem meet_left {e : ℕ} (h : meet r₁ r₂ = some r) (he : r₁ = some e) : r = some e := by
  subst he
  cases r₂ with
  | none => exact (Option.some.inj h).symm
  | some e' =>
      rw [meet] at h
      split at h
      · exact (Option.some.inj h).symm
      · cases h

/-- And that of the second one. -/
theorem meet_right {e : ℕ} (h : meet r₁ r₂ = some r) (he : r₂ = some e) : r = some e := by
  subst he
  cases r₁ with
  | none => exact (Option.some.inj h).symm
  | some e' =>
      rw [meet] at h
      split at h
      · next hee =>
          subst hee
          exact (Option.some.inj h).symm
      · cases h

/-- A sequence closes if its parts do, one after the other. -/
theorem closes_seq (h : closes b (.seq c₁ c₂) d = some r) :
    (closes b c₁ d = some none ∧ r = none) ∨
      ∃ e, closes b c₁ d = some (some e) ∧ closes b c₂ e = some r := by
  rw [closes] at h
  obtain ⟨r₁, h₁, h⟩ := Option.bind_eq_some_iff.mp h
  cases r₁ with
  | none => exact .inl ⟨h₁, (Option.some.inj h).symm⟩
  | some e => exact .inr ⟨e, h₁, h⟩

/-- A choice closes if both sides do, with the same depth. -/
theorem closes_choice (h : closes b (.choice c₁ c₂) d = some r) :
    ∃ r₁ r₂, closes b c₁ d = some r₁ ∧ closes b c₂ d = some r₂ ∧ meet r₁ r₂ = some r := by
  rw [closes] at h
  obtain ⟨r₁, h₁, h⟩ := Option.bind_eq_some_iff.mp h
  obtain ⟨r₂, h₂, h⟩ := Option.bind_eq_some_iff.mp h
  exact ⟨r₁, r₂, h₁, h₂, h⟩

/-- The body of a checked loop leads back to its start. -/
theorem closes_loop (h : closes b (.loop c) d = some r) :
    r = some d ∧ ∃ r', closes d c d = some r' ∧ ∀ e, r' = some e → e = d := by
  rw [closes] at h
  obtain ⟨r', h', h⟩ := Option.bind_eq_some_iff.mp h
  cases r' with
  | none => exact ⟨(Option.some.inj h).symm, none, h', fun e he => nomatch he⟩
  | some e =>
      split at h
      · next x y hx => cases hx
      · next x e' hx =>
          obtain rfl := Option.some.inj hx
          split at h
          · next hed =>
              subst hed
              exact ⟨(Option.some.inj h).symm, some e, h', fun e' he => (Option.some.inj he).symm⟩
          · cases h

/-! ## Soundness -/

/-- What the check says of a run that ends with `e` sections open. -/
def Ends (b : ℕ) (r : Option ℕ) : Outcome → ℕ → Prop
  | .normal, e => r = some e
  | .broke, e => e = b
  | .returned, e => e = 0
  | .unfinished, _ => True

/-- A run that ends does so as the check says it may. -/
theorem Ends.mono {r' : Option ℕ} {b' e : ℕ} {o : Outcome} (h : Ends b r o e)
    (hn : o = .normal → r = some e → r' = some e) (hb : o = .broke → e = b → e = b') :
    Ends b' r' o e := by
  cases o with
  | normal => exact hn rfl h
  | broke => exact hb rfl h
  | returned => exact h
  | unfinished => trivial

/-- **The check is sound**: a run of checked code exits only sections that are open, and ends with as
many open as the check says. -/
theorem Runs.level_eq {t : List Event} {o : Outcome} (hbody : ∀ f, Closed (body f))
    (h : Runs body c t o) (hc : closes b c d = some r) :
    ∃ e, level d t = some e ∧ Ends b r o e := by
  induction h generalizing b d r with
  | pause c => exact ⟨d, rfl, trivial⟩
  | skip => exact ⟨d, rfl, (Option.some.inj hc).symm⟩
  | enter => exact ⟨d + 1, by simp, (Option.some.inj hc).symm⟩
  | exit =>
      cases d with
      | zero => cases hc
      | succ d => exact ⟨d, by simp, (Option.some.inj hc).symm⟩
  | pulse => exact ⟨d, by simp, (Option.some.inj hc).symm⟩
  | brk =>
      rw [closes] at hc
      split at hc
      · next hd => exact ⟨d, rfl, hd⟩
      · cases hc
  | ret =>
      rw [closes] at hc
      split at hc
      · next hd => exact ⟨d, rfl, hd⟩
      · cases hc
  | @call f t o _ ho ih =>
      -- a function that returns leaves nothing open, whatever is open around its call
      have h0 : level 0 t = some 0 := by
        obtain hf | hf := hbody f
        · obtain ⟨e, he, hends⟩ := ih hf
          obtain rfl | rfl := ho
          · cases hends
          · obtain rfl : e = 0 := hends
            exact he
        · obtain ⟨e, he, hends⟩ := ih hf
          obtain rfl | rfl := ho
          · obtain rfl : 0 = e := Option.some.inj hends
            exact he
          · obtain rfl : e = 0 := hends
            exact he
      have hd := level_of_zero d h0
      rw [Nat.zero_add] at hd
      exact ⟨d, hd, (Option.some.inj hc).symm⟩
  | @callUnfinished f t _ ih =>
      obtain hf | hf := hbody f
      · obtain ⟨e, he, -⟩ := ih hf
        exact ⟨e + d, level_of_zero d he, trivial⟩
      · obtain ⟨e, he, -⟩ := ih hf
        exact ⟨e + d, level_of_zero d he, trivial⟩
  | callback h =>
      have hd := level_of_zero d h
      rw [Nat.zero_add] at hd
      exact ⟨d, hd, (Option.some.inj hc).symm⟩
  | @callbackUnfinished t e h => exact ⟨e + d, level_of_zero d h, trivial⟩
  | seq _ _ ih₁ ih₂ =>
      obtain ⟨h₁, rfl⟩ | ⟨e, h₁, h₂⟩ := closes_seq hc
      · obtain ⟨e, -, hends⟩ := ih₁ h₁
        cases hends
      · obtain ⟨e₁, he₁, hends⟩ := ih₁ h₁
        obtain rfl : e = e₁ := Option.some.inj hends
        obtain ⟨e₂, he₂, hends⟩ := ih₂ h₂
        exact ⟨e₂, by rw [level_append, he₁, Option.bind_some, he₂], hends⟩
  | seqEnds _ ho ih =>
      obtain ⟨h₁, rfl⟩ | ⟨e, h₁, -⟩ := closes_seq hc
      · exact ih h₁
      · obtain ⟨e₁, he₁, hends⟩ := ih h₁
        exact ⟨e₁, he₁, hends.mono (fun h => absurd h ho) fun _ h => h⟩
  | left _ ih =>
      obtain ⟨r₁, r₂, h₁, h₂, hm⟩ := closes_choice hc
      obtain ⟨e, he, hends⟩ := ih h₁
      exact ⟨e, he, hends.mono (fun _ h => meet_left hm h) fun _ h => h⟩
  | right _ ih =>
      obtain ⟨r₁, r₂, h₁, h₂, hm⟩ := closes_choice hc
      obtain ⟨e, he, hends⟩ := ih h₂
      exact ⟨e, he, hends.mono (fun _ h => meet_right hm h) fun _ h => h⟩
  | loopDone =>
      obtain ⟨rfl, -⟩ := closes_loop hc
      exact ⟨d, rfl, rfl⟩
  | loopAgain _ _ ih₁ ih₂ =>
      obtain ⟨-, r', hbody', hr'⟩ := closes_loop hc
      obtain ⟨e, he, hends⟩ := ih₁ hbody'
      obtain rfl := hr' e hends
      obtain ⟨e₂, he₂, hends⟩ := ih₂ hc
      exact ⟨e₂, by rw [level_append, he, Option.bind_some, he₂], hends⟩
  | loopBreaks _ ih =>
      obtain ⟨rfl, r', hbody', -⟩ := closes_loop hc
      obtain ⟨e, he, hends⟩ := ih hbody'
      obtain rfl : e = d := hends
      exact ⟨e, he, rfl⟩
  | loopEnds _ ho ih =>
      obtain ⟨rfl, r', hbody', -⟩ := closes_loop hc
      obtain ⟨e, he, hends⟩ := ih hbody'
      refine ⟨e, he, hends.mono (fun h => ?_) fun h => ?_⟩
      · obtain rfl | rfl := ho <;> cases h
      · obtain rfl | rfl := ho <;> cases h

/-- **Calls of checked functions are balanced**: they exit only sections that they entered, and when they
return they have left nothing open. -/
theorem Runs.call_balanced {f : F} {t : List Event} {o : Outcome} (hbody : ∀ f, Closed (body f))
    (h : Runs body (.call f) t o) : ∃ e, level 0 t = some e ∧ (o = .normal → e = 0) := by
  obtain ⟨e, he, hends⟩ := h.level_eq (b := 0) (d := 0) hbody rfl
  refine ⟨e, he, fun ho => ?_⟩
  subst ho
  exact (Option.some.inj hends).symm

/-! ## One run -/

/-- The run that takes the branches of a list, the last ones (`else`) when it is used up. Loops and
callbacks do nothing. -/
def follow (body : F → Code F) : ℕ → List Bool → Code F → Option (List Event × Outcome × List Bool)
  | 0, _, _ => none
  | _ + 1, bs, .skip => some ([], .normal, bs)
  | _ + 1, bs, .enter => some ([.enter], .normal, bs)
  | _ + 1, bs, .exit => some ([.exit], .normal, bs)
  | _ + 1, bs, .pulse => some ([.pulse], .normal, bs)
  | _ + 1, bs, .brk => some ([], .broke, bs)
  | _ + 1, bs, .ret => some ([], .returned, bs)
  | _ + 1, _, .halt => none
  | _ + 1, bs, .callback => some ([], .normal, bs)
  | _ + 1, bs, .loop _ => some ([], .normal, bs)
  | n + 1, bs, .call f =>
      match follow body n bs (body f) with
      | some (t, .normal, bs') => some (t, .normal, bs')
      | some (t, .returned, bs') => some (t, .normal, bs')
      | _ => none
  | n + 1, bs, .seq c₁ c₂ =>
      match follow body n bs c₁ with
      | some (t₁, .normal, bs₁) =>
          (follow body n bs₁ c₂).map fun r => (t₁ ++ r.1, r.2)
      | r => r
  | n + 1, true :: bs, .choice c₁ _ => follow body n bs c₁
  | n + 1, bs, .choice _ c₂ => follow body n bs.tail c₂

/-- What `follow` finds is a run. -/
theorem runs_of_follow {n : ℕ} {bs bs' : List Bool} {t : List Event} {o : Outcome}
    (h : follow body n bs c = some (t, o, bs')) : Runs body c t o := by
  induction n generalizing bs bs' c t o with
  | zero => cases h
  | succ n ih =>
      cases c with
      | skip => cases h; exact .skip
      | enter => cases h; exact .enter
      | exit => cases h; exact .exit
      | pulse => cases h; exact .pulse
      | brk => cases h; exact .brk
      | ret => cases h; exact .ret
      | halt => cases h
      | callback => cases h; exact .callback rfl
      | loop c => cases h; exact .loopDone
      | call f =>
          rw [follow] at h
          split at h
          · next hf => cases h; exact .call (ih hf) (.inl rfl)
          · next hf => cases h; exact .call (ih hf) (.inr rfl)
          · cases h
      | seq c₁ c₂ =>
          rw [follow] at h
          split at h
          · next hf =>
              obtain ⟨⟨t₂, o₂, bs₂⟩, h₂, heq⟩ := Option.map_eq_some_iff.mp h
              cases heq
              exact .seq (ih hf) (ih h₂)
          · next hne =>
              refine .seqEnds (ih h) fun ho => ?_
              subst ho
              exact hne _ _ h
      | choice c₁ c₂ =>
          cases bs with
          | nil => exact .right (ih h)
          | cons b bs =>
              cases b with
              | true => exact .left (ih h)
              | false => exact .right (ih h)

end BracketedCode
