import MpcRegistry.Library.Transition

/-!
# Processes over one store

A program that any number of processes run against one store. Each step of a
process is a statement that takes effect at once; between its statements a
process keeps a point and holds exclusive locks, which it loses when it stops. A
step may look at which things the others have locked, and one that needs a
locked thing is not taken. The invariant rule asks of each step what it does to
the store, what the process then relies on, and that the others' points are left
what they rely on.
-/
namespace MpcRegistry.Library.Processes

/-- The program of the processes `W`: stores `σ`, points `φ`, the values `ι` a
step is given from outside and lockable things `κ`. `outside` is what changes
the store without them. -/
structure Program (W σ φ ι κ : Type) where
  idle : φ
  next : W → (κ → Bool) → σ → φ → ι → Option (σ × φ)
  holds : φ → List κ
  outside : σ → ι → Option σ
  holds_idle : holds idle = []

/-- The store and where each process stands. -/
structure State (W σ φ : Type) where
  store : σ
  point : W → φ

inductive Action (W ι : Type) where
  | step (process : W) (input : ι)
  | stop (process : W)
  | outside (input : ι)

namespace Program

variable {W σ φ ι κ : Type} (P : Program W σ φ ι κ)

/-- What the processes other than `w` have locked. -/
def LockedByOthers (s : State W σ φ) (w : W) (locked : κ → Bool) : Prop :=
  ∀ k, locked k = true ↔ ∃ v, v ≠ w ∧ k ∈ P.holds (s.point v)

variable [DecidableEq W]

inductive Step : State W σ φ → Action W ι → State W σ φ → Prop where
  | step {s : State W σ φ} {w : W} {input : ι} {locked : κ → Bool} {db : σ} {q : φ}
      (others : P.LockedByOthers s w locked)
      (ran : P.next w locked s.store (s.point w) input = some (db, q))
      (free : ∀ k ∈ P.holds q, locked k = false) :
      Step s (.step w input) { store := db, point := Function.update s.point w q }
  | stop {s : State W σ φ} (w : W) :
      Step s (.stop w) { s with point := Function.update s.point w P.idle }
  | outside {s : State W σ φ} {input : ι} {db : σ} (moved : P.outside s.store input = some db) :
      Step s (.outside input) { s with store := db }

/-- All processes start idle. -/
def system (start : σ → Prop) : System (State W σ φ) (Action W ι) where
  initial s := start s.store ∧ ∀ w, s.point w = P.idle
  step := P.Step

/-- What holds of the store, of it with each point, and between points. -/
structure Sound (Inv : σ → Prop) (Relies : W → σ → φ → Prop) (s : State W σ φ) : Prop where
  store : Inv s.store
  relies : ∀ w, Relies w s.store (s.point w)
  exclusive : ∀ v w, v ≠ w → ∀ k ∈ P.holds (s.point v), k ∉ P.holds (s.point w)

/-- What is to be shown of each kind of step, under a condition `ok` on steps. -/
structure Maintains (ok : State W σ φ → Action W ι → Prop) (Inv : σ → Prop)
    (Relies : W → σ → φ → Prop) : Prop where
  idle : ∀ w db, Inv db → Relies w db P.idle
  own : ∀ s w input locked db q, P.Sound Inv Relies s → ok s (.step w input) →
    P.next w locked s.store (s.point w) input = some (db, q) → Inv db ∧ Relies w db q
  stable : ∀ s w v input locked db q, P.Sound Inv Relies s → ok s (.step w input) → v ≠ w →
    P.next w locked s.store (s.point w) input = some (db, q) → Relies v db (s.point v)
  outside : ∀ (s : State W σ φ) input db, P.Sound Inv Relies s → ok s (.outside input) →
    P.outside s.store input = some db → Inv db ∧ ∀ w, Relies w db (s.point w)

variable {P} {ok : State W σ φ → Action W ι → Prop} {Inv : σ → Prop} {Relies : W → σ → φ → Prop}
  {s t : State W σ φ} {a : Action W ι} {start : σ → Prop}

theorem Maintains.step (rule : P.Maintains ok Inv Relies) (h : P.Sound Inv Relies s)
    (allowed : ok s a) (taken : P.Step s a t) : P.Sound Inv Relies t := by
  cases taken with
  | @step w input locked db q others ran free =>
    obtain ⟨hinv, hown⟩ := rule.own s w input locked db q h allowed ran
    have hfree : ∀ v, v ≠ w → ∀ k ∈ P.holds q, k ∉ P.holds (s.point v) := by
      intro v hv k hk hheld
      have hlocked : locked k = true := (others k).mpr ⟨v, hv, hheld⟩
      rw [free k hk] at hlocked
      cases hlocked
    refine ⟨hinv, fun v => ?_, fun u v huv k hu hv => ?_⟩
    · by_cases hv : v = w
      · subst hv
        simpa using hown
      · simpa [hv] using rule.stable s w v input locked db q h allowed hv ran
    · by_cases huw : u = w
      · subst huw
        simp only [Function.update_self, Function.update_of_ne huv.symm] at hu hv
        exact hfree v huv.symm k hu hv
      · by_cases hvw : v = w
        · subst hvw
          simp only [Function.update_self, Function.update_of_ne huw] at hu hv
          exact hfree u huw k hv hu
        · simp only [Function.update_of_ne huw, Function.update_of_ne hvw] at hu hv
          exact h.exclusive u v huv k hu hv
  | stop w =>
    refine ⟨h.store, fun v => ?_, fun u v huv k hu hv => ?_⟩
    · by_cases hv : v = w
      · subst hv
        simpa using rule.idle v _ h.store
      · simpa [hv] using h.relies v
    · by_cases huw : u = w
      · subst huw
        simp [P.holds_idle] at hu
      · by_cases hvw : v = w
        · subst hvw
          simp [P.holds_idle] at hv
        · simp only [Function.update_of_ne huw, Function.update_of_ne hvw] at hu hv
          exact h.exclusive u v huv k hu hv
  | outside moved =>
    obtain ⟨hinv, hrelies⟩ := rule.outside _ _ _ h allowed moved
    exact ⟨hinv, hrelies, h.exclusive⟩

theorem Maintains.initial (rule : P.Maintains ok Inv Relies) (base : ∀ db, start db → Inv db)
    (h : ((P.system start).restrict ok).initial s) : P.Sound Inv Relies s where
  store := base _ h.1
  relies w := by
    rw [h.2 w]
    exact rule.idle w _ (base _ h.1)
  exclusive v w _ k hk := by
    rw [h.2 v, P.holds_idle] at hk
    cases hk

/-- The invariant rule: over every run whose steps meet the condition. -/
theorem Maintains.reachable (rule : P.Maintains ok Inv Relies) (base : ∀ db, start db → Inv db)
    (reached : ((P.system start).restrict ok).Reachable s) : P.Sound Inv Relies s :=
  reached.invariant (fun _ => rule.initial base) fun _ _ _ hs taken =>
    rule.step hs taken.1 taken.2

omit [DecidableEq W] in
/-- Invariants in layers: the second may use the first at every step. -/
theorem Maintains.and {Inv' : σ → Prop} {Relies' : W → σ → φ → Prop}
    (first : P.Maintains ok Inv Relies)
    (second : P.Maintains (fun s a => ok s a ∧ P.Sound Inv Relies s) Inv' Relies') :
    P.Maintains ok (fun db => Inv db ∧ Inv' db)
      (fun w db p => Relies w db p ∧ Relies' w db p) := by
  have hfirst : ∀ s, P.Sound (fun db => Inv db ∧ Inv' db)
      (fun w db p => Relies w db p ∧ Relies' w db p) s → P.Sound Inv Relies s := fun s h =>
    ⟨h.store.1, fun w => (h.relies w).1, h.exclusive⟩
  have hsecond : ∀ s, P.Sound (fun db => Inv db ∧ Inv' db)
      (fun w db p => Relies w db p ∧ Relies' w db p) s → P.Sound Inv' Relies' s := fun s h =>
    ⟨h.store.2, fun w => (h.relies w).2, h.exclusive⟩
  constructor
  case idle => exact fun w db h => ⟨first.idle w db h.1, second.idle w db h.2⟩
  case own =>
    intro s w input locked db q h allowed ran
    obtain ⟨hinv, hrelies⟩ := first.own s w input locked db q (hfirst s h) allowed ran
    obtain ⟨hinv', hrelies'⟩ :=
      second.own s w input locked db q (hsecond s h) ⟨allowed, hfirst s h⟩ ran
    exact ⟨⟨hinv, hinv'⟩, hrelies, hrelies'⟩
  case stable =>
    exact fun s w v input locked db q h allowed hne ran =>
      ⟨first.stable s w v input locked db q (hfirst s h) allowed hne ran,
        second.stable s w v input locked db q (hsecond s h) ⟨allowed, hfirst s h⟩ hne ran⟩
  case outside =>
    intro s input db h allowed moved
    obtain ⟨hinv, hrelies⟩ := first.outside s input db (hfirst s h) allowed moved
    obtain ⟨hinv', hrelies'⟩ := second.outside s input db (hsecond s h) ⟨allowed, hfirst s h⟩ moved
    exact ⟨⟨hinv, hinv'⟩, fun w => ⟨hrelies w, hrelies' w⟩⟩

omit [DecidableEq W] in
theorem exists_lockedByOthers (P : Program W σ φ ι κ) (s : State W σ φ) (w : W) :
    ∃ locked, P.LockedByOthers s w locked := by
  classical
  exact ⟨fun k => decide (∃ v, v ≠ w ∧ k ∈ P.holds (s.point v)), fun k => decide_eq_true_iff⟩

/-- A statement that looks at no locks and leaves none can be run at any time. -/
theorem step_of_next {w : W} {input : ι} {db : σ} {q : φ}
    (ran : ∀ locked, P.next w locked s.store (s.point w) input = some (db, q))
    (free : P.holds q = []) :
    P.Step s (.step w input) { store := db, point := Function.update s.point w q } := by
  obtain ⟨locked, hothers⟩ := P.exists_lockedByOthers s w
  exact .step hothers (ran locked) (by simp [free])

/-! ## One process at work -/

section Alone

variable (P)

/-- What happens next while one process is at work and the others are idle. -/
inductive Move (ι : Type) where
  | step (input : ι)
  | stop
  | outside (input : ι)

/-- The moves one after the other, each checked before it is made. -/
def alone (allowed : φ → Move ι → Bool) (w : W) : σ → φ → List (Move ι) → Option (σ × φ)
  | db, p, [] => some (db, p)
  | db, p, move :: rest =>
    if allowed p move then
      match move with
      | .step input =>
        (P.next w (fun _ => false) db p input).bind fun after =>
          alone allowed w after.1 after.2 rest
      | .stop => alone allowed w db P.idle rest
      | .outside input => (P.outside db input).bind fun db => alone allowed w db p rest
    else none

/-- One process at a point, the others idle. -/
def only (db : σ) (w : W) (p : φ) : State W σ φ := ⟨db, Function.update (fun _ => P.idle) w p⟩

variable {P} {db db' : σ} {p q : φ} {w : W}

theorem only_point : (P.only db w p).point w = p := by
  simp [only]

theorem only_point_of_ne {v : W} (hv : v ≠ w) : (P.only db w p).point v = P.idle := by
  simp [only, hv]

theorem lockedByOthers_only : P.LockedByOthers (P.only db w p) w fun _ => false := by
  intro k
  constructor
  · intro h
    cases h
  · rintro ⟨v, hv, hk⟩
    rw [only_point_of_ne hv, P.holds_idle] at hk
    cases hk

theorem step_only {input : ι} (h : P.next w (fun _ => false) db p input = some (db', q)) :
    P.Step (P.only db w p) (.step w input) (P.only db' w q) := by
  have hran : P.next w (fun _ => false) (P.only db w p).store ((P.only db w p).point w) input =
      some (db', q) := by
    rw [only_point]
    exact h
  have hstep := Step.step lockedByOthers_only hran fun _ _ => rfl
  simp only [only, Function.update_idem] at hstep ⊢
  exact hstep

theorem stop_only : P.Step (P.only db w p) (.stop w) (P.only db w P.idle) := by
  have hstep := Step.stop (P := P) (ι := ι) (s := P.only db w p) w
  simpa only [only, Function.update_idem] using hstep

/-- The action a move of `w` is. -/
def Move.action (w : W) : Move ι → Action W ι
  | .step input => .step w input
  | .stop => .stop w
  | .outside input => .outside input

/-- The check is enough for a step while no other process is at work. -/
def Permits (allowed : φ → Move ι → Bool) (ok : State W σ φ → Action W ι → Prop) : Prop :=
  ∀ db w p move, allowed p move = true → ok (P.only db w p) (move.action w)

theorem permits_true (allowed : φ → Move ι → Bool) :
    P.Permits allowed fun (_ : State W σ φ) (_ : Action W ι) => True :=
  fun _ _ _ _ _ => trivial

/-- Moves that pass the check make a restricted run. -/
theorem run_alone {allowed : φ → Move ι → Bool} (start : σ → Prop) (hok : P.Permits allowed ok)
    {moves : List (Move ι)} (h : P.alone allowed w db p moves = some (db', q)) :
    ∃ labels, ((P.system start).restrict ok).Run (P.only db w p) labels (P.only db' w q) := by
  induction moves generalizing db p with
  | nil =>
    cases h
    exact ⟨[], .nil _⟩
  | cons move rest ih =>
    obtain ⟨hallowed, h⟩ := Option.ite_none_right_eq_some.mp h
    have first : ∀ {db₁ p₁}, P.Step (P.only db w p) (move.action w) (P.only db₁ w p₁) →
        ((P.system start).restrict ok).Run (P.only db w p) [move.action w] (P.only db₁ w p₁) :=
      fun taken => .single ⟨hok db w p move hallowed, taken⟩
    cases move with
    | step input =>
      obtain ⟨after, hnext, h⟩ := Option.bind_eq_some_iff.mp h
      obtain ⟨labels, run⟩ := ih h
      exact ⟨_, (first (step_only hnext)).append run⟩
    | stop =>
      obtain ⟨labels, run⟩ := ih h
      exact ⟨_, (first stop_only).append run⟩
    | outside input =>
      obtain ⟨db₁, hmoved, h⟩ := Option.bind_eq_some_iff.mp h
      obtain ⟨labels, run⟩ := ih h
      exact ⟨_, (first (Step.outside hmoved)).append run⟩

/-- Every process idle. -/
theorem only_idle : P.only db w P.idle = ⟨db, fun _ => P.idle⟩ := by
  rw [only, Function.update_eq_self]

theorem initial_only (hstart : start db) :
    (P.system start).initial (P.only db w P.idle) := by
  rw [only_idle]
  exact ⟨hstart, fun _ => rfl⟩

end Alone

end Program

end MpcRegistry.Library.Processes
