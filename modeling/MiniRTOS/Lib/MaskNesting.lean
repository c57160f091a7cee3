import Mathlib.Logic.Function.Basic
import Mathlib.Logic.Relation
import MiniRTOS.Lib.BracketedCode

/-! # Nested sections over one interrupt mask

Sections are counted by a counter of bounded size. Entering one closes the mask; the mask found by the
outermost one is saved and put back when the counter returns to zero. While the mask is not closed,
others can run in between, and they do whatever they like to counter and mask.

* **`Sound`** — inside a section the mask is closed, whoever entered it.
* **`Exec.masked`** — a piece of code keeps the mask closed as long as it has a section open.
* **`Exec.restored_iff`** — code with balanced sections leaves counter and mask as they were exactly if
  the counter does not overflow on the way, or was zero under a closed mask. -/

namespace MaskNesting

open BracketedCode Relation

/-- The bounds of the counter and the closed mask. -/
structure Lock (M : Type*) where
  /-- The counter counts modulo this number. -/
  size : ℕ
  /-- Masks are saved for the first few levels only. -/
  slots : ℕ
  /-- The closed mask. -/
  closed : M
  /-- The outermost mask is saved. -/
  slots_pos : 0 < slots
  /-- The counter counts. -/
  size_pos : 0 < size

/-- The counter, the saved masks and the mask. -/
structure Sections (M : Type*) where
  /-- The counter. -/
  nesting : ℕ
  /-- The saved masks. -/
  saved : ℕ → M
  /-- The mask. -/
  mask : M

variable {M : Type*} {P : Lock M}

/-- One event. A pulse closes the mask and puts it back at once. -/
def Lock.step (P : Lock M) (s : Sections M) : Event → Sections M
  | .enter =>
      { nesting := (s.nesting + 1) % P.size
        saved := if s.nesting < P.slots then Function.update s.saved s.nesting s.mask else s.saved
        mask := P.closed }
  | .exit =>
      if 0 < s.nesting then
        { s with
          nesting := s.nesting - 1
          mask := if s.nesting - 1 = 0 then s.saved 0 else s.mask }
      else s
  | .pulse => s

/-- What anybody can do: an event, or another mask outside of all sections. -/
inductive Lock.Move (P : Lock M) : Sections M → Sections M → Prop
  /-- An event. -/
  | event (s : Sections M) (e : Event) : P.Move s (P.step s e)
  /-- A new mask, outside of all sections. -/
  | remask (s : Sections M) (m : M) (h : s.nesting = 0) : P.Move s { s with mask := m }

/-- An enter counts up. -/
@[simp] theorem Lock.nesting_enter (s : Sections M) :
    (P.step s .enter).nesting = (s.nesting + 1) % P.size := rfl

/-- At nesting zero an exit does nothing. -/
theorem Lock.step_exit_of_zero {s : Sections M} (h : s.nesting = 0) : P.step s .exit = s :=
  if_neg (by rw [h]; exact Nat.lt_irrefl 0)

/-- The states that can be reached from one without sections. -/
def Lock.Reachable (P : Lock M) (s : Sections M) : Prop :=
  ∃ s₀ : Sections M, s₀.nesting = 0 ∧ ReflTransGen P.Move s₀ s

/-- **Code runs its events**, and others run in between while the mask is not closed. They give the
processor back under the mask that they found. -/
inductive Exec (P : Lock M) : Sections M → List Event → Sections M → Prop
  /-- The code has no more events. -/
  | nil (s : Sections M) : Exec P s [] s
  /-- The next event of the code. -/
  | own {s s' : Sections M} {e : Event} {t : List Event} (h : Exec P (P.step s e) t s') :
      Exec P s (e :: t) s'
  /-- Others run while the mask is not closed, and leave it as it was. -/
  | others {s s₁ s' : Sections M} {t : List Event} (hopen : s.mask ≠ P.closed)
      (hmoves : ReflTransGen P.Move s s₁) (hmask : s₁.mask = s.mask) (h : Exec P s₁ t s') :
      Exec P s t s'

/-- The events of a list, with nobody in between. -/
def Lock.run (P : Lock M) (t : List Event) (s : Sections M) : Sections M := t.foldl P.step s

/-- Nothing happens without events. -/
@[simp] theorem Lock.run_nil (s : Sections M) : P.run [] s = s := rfl

/-- The first event happens first. -/
@[simp] theorem Lock.run_cons (e : Event) (t : List Event) (s : Sections M) :
    P.run (e :: t) s = P.run t (P.step s e) := rfl

/-- Two lists of events happen one after the other. -/
theorem Lock.run_append (t u : List Event) (s : Sections M) :
    P.run (t ++ u) s = P.run u (P.run t s) := List.foldl_append

/-- With nobody in between, the events run. -/
theorem exec_run (t : List Event) (s : Sections M) : Exec P s t (P.run t s) := by
  induction t generalizing s with
  | nil => exact .nil s
  | cons e t ih => exact .own (ih (P.step s e))

/-! ## What every event keeps -/

/-- **The mask is closed inside sections.** -/
structure Sound (P : Lock M) (s : Sections M) : Prop where
  /-- The counter is in range. -/
  lt : s.nesting < P.size
  /-- Inside a section the mask is closed. -/
  closed : 0 < s.nesting → s.mask = P.closed

/-- An event keeps the mask closed inside sections. -/
theorem Sound.step {s : Sections M} (h : Sound P s) (e : Event) : Sound P (P.step s e) := by
  cases e with
  | enter => exact ⟨Nat.mod_lt _ P.size_pos, fun _ => rfl⟩
  | pulse => exact h
  | exit =>
      rw [Lock.step]
      split
      · next hpos =>
          refine ⟨lt_of_le_of_lt (Nat.sub_le _ _) h.lt, fun hlt => ?_⟩
          change 0 < s.nesting - 1 at hlt
          simp only [Nat.ne_of_gt hlt, if_false]
          exact h.closed hpos
      · exact h

/-- So do any number of moves. -/
theorem Sound.moves {s s' : Sections M} (h : Sound P s) (hm : ReflTransGen P.Move s s') :
    Sound P s' := by
  induction hm with
  | refl => exact h
  | tail _ hstep ih =>
      cases hstep with
      | event e => exact ih.step e
      | remask m h0 => exact ⟨ih.lt, fun hlt => absurd h0 (Nat.ne_of_gt hlt)⟩

/-- So it is in every reachable state. -/
theorem Lock.Reachable.sound {s : Sections M} (h : P.Reachable s) : Sound P s := by
  obtain ⟨s₀, h0, hm⟩ := h
  have hs₀ : Sound P s₀ := ⟨h0 ▸ P.size_pos, fun hlt => absurd h0 (Nat.ne_of_gt hlt)⟩
  exact hs₀.moves hm

/-- What is reached from a reachable state is reachable. -/
theorem reachable_run {s : Sections M} (t : List Event) (h : P.Reachable s) :
    P.Reachable (P.run t s) := by
  induction t generalizing s with
  | nil => exact h
  | cons e t ih =>
      obtain ⟨s₀, h0, hm⟩ := h
      exact ih ⟨s₀, h0, hm.tail (.event s e)⟩

/-- Others find no section open and leave none. -/
theorem Sound.nesting_eq_zero {s : Sections M} (h : Sound P s) (hopen : s.mask ≠ P.closed) :
    s.nesting = 0 := by
  by_contra hne
  exact hopen (h.closed (Nat.pos_of_ne_zero hne))

/-! ## A run without an overflow -/

/-- **With `d` sections open** since the state `s₀`, and no overflow so far. -/
structure Tracks (P : Lock M) (s₀ : Sections M) (d : ℕ) (s : Sections M) : Prop where
  /-- The state is sound. -/
  sound : Sound P s
  /-- The sections have been counted. -/
  nesting : s.nesting = s₀.nesting + d
  /-- Outside of them the mask is as it was. -/
  outside : d = 0 → s.mask = s₀.mask
  /-- The first of them has saved the mask. -/
  first : 0 < d → s₀.nesting = 0 → s.saved 0 = s₀.mask

variable {s s₀ s' : Sections M} {d e : ℕ} {t : List Event}

/-- No section is open at the start. -/
theorem Tracks.refl (h : Sound P s₀) : Tracks P s₀ 0 s₀ :=
  ⟨h, rfl, fun _ => rfl, fun h => absurd h (Nat.lt_irrefl 0)⟩

/-- With a section open, the mask is closed. -/
theorem Tracks.masked (h : Tracks P s₀ d s) (hd : 0 < d) : s.mask = P.closed :=
  h.sound.closed (by rw [h.nesting]; exact Nat.add_pos_right _ hd)

/-- An enter that does not overflow opens a section. -/
theorem Tracks.enter (h : Tracks P s₀ d s) (hlt : s₀.nesting + (d + 1) < P.size) :
    Tracks P s₀ (d + 1) (P.step s .enter) := by
  have hn : (s.nesting + 1) % P.size = s₀.nesting + (d + 1) := by
    rw [h.nesting, Nat.add_assoc, Nat.mod_eq_of_lt hlt]
  refine ⟨h.sound.step .enter, hn, fun h => absurd h (Nat.succ_ne_zero d), fun _ h0 => ?_⟩
  change (if s.nesting < P.slots then Function.update s.saved s.nesting s.mask else s.saved) 0 = _
  by_cases hd : d = 0
  · -- the outermost section of the code is the outermost one of all
    have hz : s.nesting = 0 := by rw [h.nesting, h0, hd]
    rw [hz, if_pos P.slots_pos, Function.update_self, h.outside hd]
  · have hne : 0 ≠ s.nesting := by
      rw [h.nesting, h0, Nat.zero_add]
      exact Ne.symm hd
    have hfirst := h.first (Nat.pos_of_ne_zero hd) h0
    split
    · rw [Function.update_of_ne hne, hfirst]
    · exact hfirst

/-- An exit closes one, and the last one puts the mask back. -/
theorem Tracks.exit (hs₀ : Sound P s₀) (h : Tracks P s₀ (d + 1) s) :
    Tracks P s₀ d (P.step s .exit) := by
  have hn := h.nesting
  have hpos : 0 < s.nesting := by omega
  have hstep : P.step s .exit
      = { s with
          nesting := s.nesting - 1
          mask := if s.nesting - 1 = 0 then s.saved 0 else s.mask } := if_pos hpos
  refine ⟨h.sound.step .exit, ?_, fun hd => ?_, fun hd h0 => ?_⟩
  · rw [hstep]
    change s.nesting - 1 = _
    omega
  · rw [hstep]
    change (if s.nesting - 1 = 0 then s.saved 0 else s.mask) = _
    by_cases h0 : s₀.nesting = 0
    · rw [if_pos (by omega), h.first (Nat.succ_pos d) h0]
    · rw [if_neg (by omega), h.masked (Nat.succ_pos d), hs₀.closed (Nat.pos_of_ne_zero h0)]
  · rw [hstep]
    exact h.first (Nat.succ_pos d) h0

/-- Others find the mask open, so no section is open. -/
theorem Tracks.others {s₁ : Sections M} (h : Tracks P s₀ d s) (hopen : s.mask ≠ P.closed)
    (hmoves : ReflTransGen P.Move s s₁) (hmask : s₁.mask = s.mask) : Tracks P s₀ d s₁ := by
  have hd : d = 0 := by
    by_contra hne
    exact hopen (h.masked (Nat.pos_of_ne_zero hne))
  have hs₁ := h.sound.moves hmoves
  have hz := h.sound.nesting_eq_zero hopen
  have hz₁ := hs₁.nesting_eq_zero (hmask ▸ hopen)
  refine ⟨hs₁, ?_, fun hd => hmask.trans (h.outside hd), fun hpos => absurd hd (Nat.ne_of_gt hpos)⟩
  rw [hz₁, ← h.nesting, hz]

/-- The run of a piece of code that does not overflow the counter. -/
theorem Exec.tracks (hs₀ : Sound P s₀) (hexec : Exec P s t s') (h : Tracks P s₀ d s)
    (hlevel : level d t = some e) (hlt : s₀.nesting + deepest d t < P.size) : Tracks P s₀ e s' := by
  induction hexec generalizing d with
  | nil s =>
      obtain rfl := Option.some.inj hlevel
      exact h
  | others hopen hmoves hmask _ ih => exact ih (h.others hopen hmoves hmask) hlevel hlt
  | @own s s' x t _ ih =>
      cases x with
      | enter =>
          rw [level_enter] at hlevel
          have hle := le_deepest (d + 1) t
          change s₀.nesting + deepest (d + 1) t < P.size at hlt
          exact ih (h.enter (lt_of_le_of_lt (Nat.add_le_add_left hle _) hlt)) hlevel hlt
      | pulse =>
          rw [level_pulse] at hlevel
          exact ih ⟨h.sound, h.nesting, h.outside, h.first⟩ hlevel hlt
      | exit =>
          cases d with
          | zero => cases hlevel
          | succ d =>
              rw [level_exit_succ] at hlevel
              have hle : deepest d t ≤ deepest (d + 1) (.exit :: t) := le_max_right _ _
              exact ih (h.exit hs₀) hlevel (lt_of_le_of_lt (Nat.add_le_add_left hle _) hlt)

/-! ## A run with an overflow -/

/-- **After an overflow**: the counter is behind the sections that are open, and no exit opens the mask
any more. -/
structure Overflowed (P : Lock M) (d : ℕ) (s : Sections M) : Prop where
  /-- The counter is no more than the sections. -/
  nesting : s.nesting ≤ d
  /-- The mask is closed. -/
  mask : s.mask = P.closed
  /-- So is the mask that is saved. -/
  first : 0 < s.nesting → s.saved 0 = P.closed

/-- An enter too many overflows the counter. -/
theorem Tracks.overflow (h : Tracks P s₀ d s) (hle : P.size ≤ s₀.nesting + (d + 1)) :
    Overflowed P (d + 1) (P.step s .enter) := by
  have hz : (s.nesting + 1) % P.size = 0 := by
    have hlt := h.sound.lt
    have hn := h.nesting
    obtain hsize : s.nesting + 1 = P.size := by omega
    rw [hsize, Nat.mod_self]
  exact ⟨le_of_eq_of_le hz (Nat.zero_le _), rfl, fun hlt => absurd hz (Nat.ne_of_gt hlt)⟩

/-- After an overflow, an enter opens a section. -/
theorem Overflowed.enter (h : Overflowed P d s) : Overflowed P (d + 1) (P.step s .enter) := by
  refine ⟨Nat.le_trans (Nat.mod_le _ _) (Nat.succ_le_succ h.nesting), rfl, fun _ => ?_⟩
  change (if s.nesting < P.slots then Function.update s.saved s.nesting s.mask else s.saved) 0 = _
  by_cases hz : s.nesting = 0
  · rw [hz, if_pos P.slots_pos, Function.update_self, h.mask]
  · have hfirst := h.first (Nat.pos_of_ne_zero hz)
    split
    · rw [Function.update_of_ne (Ne.symm hz), hfirst]
    · exact hfirst

/-- And an exit closes one. -/
theorem Overflowed.exit (h : Overflowed P (d + 1) s) : Overflowed P d (P.step s .exit) := by
  rw [Lock.step]
  split
  · next hpos =>
      refine ⟨?_, ?_, fun _ => h.first hpos⟩
      · exact Nat.sub_le_of_le_add h.nesting
      · change (if s.nesting - 1 = 0 then s.saved 0 else s.mask) = P.closed
        split
        · exact h.first hpos
        · exact h.mask
  · next hpos => exact ⟨by omega, h.mask, h.first⟩

/-- After an overflow, the mask stays closed along the rest of the code. -/
theorem Exec.overflowed (hexec : Exec P s t s') (h : Overflowed P d s)
    (hlevel : level d t = some e) : Overflowed P e s' := by
  induction hexec generalizing d with
  | nil s =>
      obtain rfl := Option.some.inj hlevel
      exact h
  | others hopen _ _ _ _ => exact absurd h.mask hopen
  | @own s s' x t _ ih =>
      cases x with
      | enter => exact ih h.enter (by rwa [level_enter] at hlevel)
      | pulse => exact ih ⟨h.nesting, h.mask, h.first⟩ (by rwa [level_pulse] at hlevel)
      | exit =>
          cases d with
          | zero => cases hlevel
          | succ d => exact ih h.exit (by rwa [level_exit_succ] at hlevel)

/-- The run of a piece of code that overflows the counter. -/
theorem Exec.overflows (hs₀ : Sound P s₀) (hexec : Exec P s t s') (h : Tracks P s₀ d s)
    (hlevel : level d t = some e) (hle : P.size ≤ s₀.nesting + deepest d t) :
    Overflowed P e s' := by
  have hlt := h.nesting ▸ h.sound.lt
  induction hexec generalizing d with
  | nil s => exact absurd hle (Nat.not_le_of_lt hlt)
  | others hopen hmoves hmask _ ih =>
      exact ih (h.others hopen hmoves hmask) hlevel hle hlt
  | @own s s' x t hrest ih =>
      cases x with
      | enter =>
          rw [level_enter] at hlevel
          by_cases hnext : s₀.nesting + (d + 1) < P.size
          · exact ih (h.enter hnext) hlevel hle hnext
          · exact hrest.overflowed (h.overflow (Nat.le_of_not_lt hnext)) hlevel
      | pulse =>
          rw [level_pulse] at hlevel
          exact ih ⟨h.sound, h.nesting, h.outside, h.first⟩ hlevel hle hlt
      | exit =>
          cases d with
          | zero => cases hlevel
          | succ d =>
              rw [level_exit_succ] at hlevel
              have hmax : deepest (d + 1) (.exit :: t) = max (d + 1) (deepest d t) := rfl
              rw [hmax] at hle
              have hlt' : s₀.nesting + d < P.size := by omega
              exact ih (h.exit hs₀) hlevel (by omega) hlt'

/-! ## Both -/

/-- **The mask stays closed**: whenever code has run some of its events and has a section open. -/
def StaysMasked (P : Lock M) (s : Sections M) (t : List Event) : Prop :=
  ∀ (p : List Event) (s' : Sections M), p <+: t → Exec P s p s' →
    ∃ d, level 0 p = some d ∧ (0 < d → s'.mask = P.closed)

/-- **The mask stays closed inside**: from a state that anybody can have left behind, code that has a
section open runs under the closed mask. -/
theorem Exec.masked (hs : Sound P s) (hexec : Exec P s t s') (hlevel : level 0 t = some d)
    (hd : 0 < d) : s'.mask = P.closed := by
  by_cases hlt : s.nesting + deepest 0 t < P.size
  · exact (hexec.tracks hs (.refl hs) hlevel hlt).masked hd
  · exact (hexec.overflows hs (.refl hs) hlevel (Nat.le_of_not_lt hlt)).mask

/-- **Code keeps the mask closed** whenever it has a section open. -/
theorem staysMasked (hs : Sound P s) (hlevel : level 0 t = some d) : StaysMasked P s t := by
  intro p s' hp hexec
  obtain ⟨e, he⟩ := exists_level_of_prefix hp hlevel
  exact ⟨e, he, hexec.masked hs he⟩

/-- **Counter and mask are restored** by code that has closed all its sections, exactly if the counter
did not overflow on the way, or the code was run under a closed mask with the counter at zero. -/
theorem Exec.restored_iff (hs : Sound P s) (hexec : Exec P s t s') (hlevel : level 0 t = some 0) :
    (s'.nesting = s.nesting ∧ s'.mask = s.mask) ↔
      s.nesting + deepest 0 t < P.size ∨ s.nesting = 0 ∧ s.mask = P.closed := by
  by_cases hlt : s.nesting + deepest 0 t < P.size
  · have h := hexec.tracks hs (.refl hs) hlevel hlt
    exact ⟨fun _ => .inl hlt, fun _ => ⟨h.nesting, h.outside rfl⟩⟩
  · have h := hexec.overflows hs (.refl hs) hlevel (Nat.le_of_not_lt hlt)
    have hz : s'.nesting = 0 := Nat.le_zero.mp h.nesting
    constructor
    · rintro ⟨hn, hm⟩
      exact .inr ⟨hn ▸ hz, hm ▸ h.mask⟩
    · rintro (hlt' | ⟨hn, hm⟩)
      · exact absurd hlt' hlt
      · exact ⟨hz.trans hn.symm, h.mask.trans hm.symm⟩

end MaskNesting
