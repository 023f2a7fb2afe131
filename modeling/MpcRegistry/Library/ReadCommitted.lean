import MpcRegistry.Library.Transition

/-!
# Transactions at READ COMMITTED

Requests run their statements one by one against the committed state. What a
transaction has read, written and locked is its point; its writes reach the
committed state all at once when it commits, and a refusal or an abort drops
them. A statement that needs a lock another transaction holds does not run. The
invariant rule asks of each point what it relies on and of each commit that it
leaves alone what the points it is compatible with rely on.
-/
namespace MpcRegistry.Library.ReadCommitted

inductive LockMode where
  | share | exclusive
  deriving DecidableEq, Repr

/-- The transactions of a program: committed states `σ`, points `φ`, the values
`ι` a statement is given from outside, refusals `ε` and lockable things `κ`.
`outside` is what moves without them, such as a clock. -/
structure Protocol (σ φ ι ε κ : Type) where
  idle : φ
  statement : σ → φ → ι → Except ε φ
  effect : φ → Option (σ → σ)
  locks : φ → List (κ × LockMode)
  outside : σ → ι → Option σ
  locks_idle : locks idle = []

/-- The committed state and where the transaction of each worker stands. -/
structure State (W σ φ : Type) where
  committed : σ
  point : W → φ

inductive Action (W ι : Type) where
  | statement (worker : W) (input : ι)
  | commit (worker : W)
  | abort (worker : W)
  | outside (input : ι)

namespace Protocol

variable {W σ φ ι ε κ : Type} (P : Protocol σ φ ι ε κ)

/-- No lock of the one is in the way of a lock of the other. -/
def Compatible (p q : φ) : Prop :=
  ∀ key m n, (key, m) ∈ P.locks p → (key, n) ∈ P.locks q → m = .share ∧ n = .share

variable {P} in
theorem Compatible.symm {p q : φ} (h : P.Compatible p q) : P.Compatible q p :=
  fun key m n hm hn => (h key n m hn hm).symm

theorem compatible_idle (p : φ) : P.Compatible p P.idle := by
  intro key m n _ hn
  rw [P.locks_idle] at hn
  cases hn

variable {P} in
/-- Two transactions do not both hold one thing exclusively. -/
theorem Compatible.not_both {p q : φ} (h : P.Compatible p q) {key : κ} {n : LockMode}
    (hp : (key, .exclusive) ∈ P.locks p) : (key, n) ∉ P.locks q := by
  intro hq
  cases (h key .exclusive n hp hq).1

variable [DecidableEq W]

inductive Step : State W σ φ → Action W ι → State W σ φ → Prop where
  | statement {s : State W σ φ} {w : W} {input : ι} {q : φ}
      (ran : P.statement s.committed (s.point w) input = .ok q)
      (free : ∀ v, v ≠ w → P.Compatible q (s.point v)) :
      Step s (.statement w input) { s with point := Function.update s.point w q }
  | refused {s : State W σ φ} {w : W} {input : ι} {e : ε}
      (ran : P.statement s.committed (s.point w) input = .error e) :
      Step s (.statement w input) { s with point := Function.update s.point w P.idle }
  | commit {s : State W σ φ} {w : W} {f : σ → σ} (done : P.effect (s.point w) = some f) :
      Step s (.commit w)
        { committed := f s.committed, point := Function.update s.point w P.idle }
  | abort {s : State W σ φ} (w : W) :
      Step s (.abort w) { s with point := Function.update s.point w P.idle }
  | outside {s : State W σ φ} {input : ι} {db : σ}
      (moved : P.outside s.committed input = some db) :
      Step s (.outside input) { s with committed := db }

/-- All workers start idle. -/
def system (start : σ → Prop) : System (State W σ φ) (Action W ι) where
  initial s := start s.committed ∧ ∀ w, s.point w = P.idle
  step := P.Step

/-- What holds of the committed state, of it with each point, and between points. -/
structure Sound (Inv : σ → Prop) (Relies : σ → φ → Prop) (s : State W σ φ) : Prop where
  committed : Inv s.committed
  relies : ∀ w, Relies s.committed (s.point w)
  compatible : ∀ v w, v ≠ w → P.Compatible (s.point v) (s.point w)

/-- What is to be shown of each kind of step, under a condition `ok` on steps. -/
structure Maintains (ok : State W σ φ → Action W ι → Prop) (Inv : σ → Prop)
    (Relies : σ → φ → Prop) : Prop where
  idle : ∀ db, Inv db → Relies db P.idle
  statement : ∀ s w input q, P.Sound Inv Relies s → ok s (.statement w input) →
    P.statement s.committed (s.point w) input = .ok q → Relies s.committed q
  commit : ∀ s w f, P.Sound Inv Relies s → ok s (.commit w) →
    P.effect (s.point w) = some f → Inv (f s.committed)
  stable : ∀ s w v f, P.Sound Inv Relies s → ok s (.commit w) → v ≠ w →
    P.effect (s.point w) = some f → Relies (f s.committed) (s.point v)
  outside : ∀ (s : State W σ φ) input db, P.Sound Inv Relies s → P.outside s.committed input = some db →
    Inv db ∧ ∀ w, Relies db (s.point w)

variable {P} {ok : State W σ φ → Action W ι → Prop} {Inv : σ → Prop} {Relies : σ → φ → Prop}
  {s t : State W σ φ} {a : Action W ι} {labels : List (Action W ι)} {start : σ → Prop}

theorem Sound.update (h : P.Sound Inv Relies s) {w : W} {q : φ} (hq : Relies s.committed q)
    (free : ∀ v, v ≠ w → P.Compatible q (s.point v)) :
    P.Sound Inv Relies { s with point := Function.update s.point w q } where
  committed := h.committed
  relies v := by
    by_cases hv : v = w
    · subst hv
      simpa using hq
    · simpa [hv] using h.relies v
  compatible u v huv := by
    by_cases hu : u = w
    · subst hu
      simpa [huv.symm] using free v huv.symm
    · by_cases hv : v = w
      · subst hv
        simpa [hu] using (free u hu).symm
      · simpa [hu, hv] using h.compatible u v huv

theorem Maintains.step (rule : P.Maintains ok Inv Relies) (h : P.Sound Inv Relies s)
    (allowed : ok s a) (taken : P.Step s a t) : P.Sound Inv Relies t := by
  have leave : ∀ (db : σ) (point : W → φ) (w : W), P.Sound Inv Relies ⟨db, point⟩ →
      P.Sound Inv Relies ⟨db, Function.update point w P.idle⟩ := fun db point w hs =>
    Sound.update hs (rule.idle _ hs.committed) fun v _ => (P.compatible_idle _).symm
  cases taken with
  | statement ran free => exact h.update (rule.statement _ _ _ _ h allowed ran) free
  | refused ran => exact leave _ _ _ h
  | abort w => exact leave _ _ _ h
  | @commit w f done =>
    have hinv := rule.commit s w f h allowed done
    refine ⟨hinv, fun v => ?_, fun u v huv => ?_⟩
    · by_cases hv : v = w
      · subst hv
        simpa using rule.idle _ hinv
      · simpa [hv] using rule.stable s w v f h allowed hv done
    · have hpoints := h.update (w := w) (rule.idle _ h.committed)
        fun v _ => (P.compatible_idle _).symm
      exact hpoints.compatible u v huv
  | outside moved =>
    obtain ⟨hinv, hrelies⟩ := rule.outside _ _ _ h moved
    exact ⟨hinv, hrelies, h.compatible⟩

theorem Maintains.initial (rule : P.Maintains ok Inv Relies)
    (base : ∀ db, start db → Inv db) (h : ((P.system start).restrict ok).initial s) :
    P.Sound Inv Relies s where
  committed := base _ h.1
  relies w := by
    rw [h.2 w]
    exact rule.idle _ (base _ h.1)
  compatible v w _ := by
    rw [h.2 w]
    exact P.compatible_idle _

/-- The invariant rule: over every run whose steps meet the condition. -/
theorem Maintains.reachable (rule : P.Maintains ok Inv Relies)
    (base : ∀ db, start db → Inv db) (reached : ((P.system start).restrict ok).Reachable s) :
    P.Sound Inv Relies s :=
  reached.invariant (fun _ => rule.initial base) fun _ _ _ hs taken =>
    rule.step hs taken.1 taken.2

/-- The invariant rule for what also speaks of states the run has been in. -/
theorem Maintains.run_past {Inv : (State W σ φ → Prop) → σ → Prop}
    {Relies : (State W σ φ → Prop) → σ → φ → Prop}
    (rule : ∀ past, P.Maintains (fun s a => past s ∧ ok s a) (Inv past) (Relies past))
    (inv_mono : ∀ {past more : State W σ φ → Prop} db, (∀ u, past u → more u) →
      Inv past db → Inv more db)
    (relies_mono : ∀ {past more : State W σ φ → Prop} db p, (∀ u, past u → more u) →
      Relies past db p → Relies more db p)
    (base : ∀ past db, start db → Inv past db) (initial : (P.system start).initial s)
    (run : ((P.system start).restrict ok).Run s labels t) :
    P.Sound (Inv (((P.system start).restrict ok).Visits s labels t))
      (Relies (((P.system start).restrict ok).Visits s labels t)) t := by
  refine run.preserves_past (I := fun past u => P.Sound (Inv past) (Relies past) u)
    (fun u hmore h => ?_) ?_ fun past u a v hu h taken => ?_
  · exact ⟨inv_mono _ hmore h.committed, fun w => relies_mono _ _ hmore (h.relies w), h.compatible⟩
  · exact (rule _).initial (base _) initial
  · exact (rule past).step h ⟨hu, taken.1⟩ taken.2

omit [DecidableEq W] in
/-- Fewer steps keep what more steps keep. -/
theorem Maintains.weaken {ok' : State W σ φ → Action W ι → Prop} (rule : P.Maintains ok Inv Relies)
    (h : ∀ s a, ok' s a → ok s a) : P.Maintains ok' Inv Relies where
  idle := rule.idle
  statement s w input q sound allowed := rule.statement s w input q sound (h _ _ allowed)
  commit s w f sound allowed := rule.commit s w f sound (h _ _ allowed)
  stable s w v f sound allowed := rule.stable s w v f sound (h _ _ allowed)
  outside := rule.outside

omit [DecidableEq W] in
/-- Invariants in layers: the second may use the first at every step. -/
theorem Maintains.and {Inv' : σ → Prop} {Relies' : σ → φ → Prop}
    (first : P.Maintains ok Inv Relies)
    (second : P.Maintains (fun s a => ok s a ∧ P.Sound Inv Relies s) Inv' Relies') :
    P.Maintains ok (fun db => Inv db ∧ Inv' db) (fun db p => Relies db p ∧ Relies' db p) := by
  have hfirst : ∀ s : State W σ φ, P.Sound (fun db => Inv db ∧ Inv' db)
      (fun db p => Relies db p ∧ Relies' db p) s → P.Sound Inv Relies s := fun s h =>
    ⟨h.committed.1, fun w => (h.relies w).1, h.compatible⟩
  have hsecond : ∀ s : State W σ φ, P.Sound (fun db => Inv db ∧ Inv' db)
      (fun db p => Relies db p ∧ Relies' db p) s → P.Sound Inv' Relies' s := fun s h =>
    ⟨h.committed.2, fun w => (h.relies w).2, h.compatible⟩
  constructor
  case idle => exact fun db h => ⟨first.idle db h.1, second.idle db h.2⟩
  case statement =>
    exact fun s w input q h allowed ran =>
      ⟨first.statement s w input q (hfirst s h) allowed ran,
        second.statement s w input q (hsecond s h) ⟨allowed, hfirst s h⟩ ran⟩
  case commit =>
    exact fun s w f h allowed done =>
      ⟨first.commit s w f (hfirst s h) allowed done,
        second.commit s w f (hsecond s h) ⟨allowed, hfirst s h⟩ done⟩
  case stable =>
    exact fun s w v f h allowed hne done =>
      ⟨first.stable s w v f (hfirst s h) allowed hne done,
        second.stable s w v f (hsecond s h) ⟨allowed, hfirst s h⟩ hne done⟩
  case outside =>
    intro s input db h moved
    obtain ⟨hinv, hrelies⟩ := first.outside s input db (hfirst s h) moved
    obtain ⟨hinv', hrelies'⟩ := second.outside s input db (hsecond s h) moved
    exact ⟨⟨hinv, hinv'⟩, fun w => ⟨hrelies w, hrelies' w⟩⟩

/-- A preorder on committed states that every commit and every outside move
respects holds along a run. -/
theorem Maintains.relates (rule : P.Maintains ok Inv Relies) {R : σ → σ → Prop}
    (run : ((P.system start).restrict ok).Run s labels t) (h : P.Sound Inv Relies s)
    (refl : ∀ db, R db db) (trans : ∀ a b c, R a b → R b c → R a c)
    (commits : ∀ u w f, P.Sound Inv Relies u → ok u (.commit w) → P.effect (u.point w) = some f →
      R u.committed (f u.committed))
    (moves : ∀ (u : State W σ φ) input db, P.Sound Inv Relies u → P.outside u.committed input = some db →
      R u.committed db) : R s.committed t.committed := by
  refine run.relates (I := P.Sound Inv Relies) (R := fun u v => R u.committed v.committed) h
    (fun _ _ _ hs taken => rule.step hs taken.1 taken.2) (fun _ => refl _)
    (fun _ _ _ => trans _ _ _) fun u a v hu taken => ?_
  obtain ⟨allowed, taken⟩ := taken
  cases taken with
  | statement _ _ => exact refl _
  | refused _ => exact refl _
  | abort _ => exact refl _
  | commit done => exact commits _ _ _ hu allowed done
  | outside moved => exact moves _ _ _ hu moved

/-! ## Transactions that run alone -/

section Alone

variable (P)

/-- The statements of one transaction and its commit, with nothing in between. A
check of the committed state and the point is made before each. -/
def alone (allowed : σ → φ → Bool) (db : σ) : φ → List ι → Option σ
  | p, [] => if allowed db p then (P.effect p).map (· db) else none
  | p, given :: rest =>
    if allowed db p then
      match P.statement db p given with
      | .ok q => alone allowed db q rest
      | .error _ => none
    else none

/-- Transactions one after the other. -/
def inTurn (allowed : σ → φ → Bool) : σ → List (List ι) → Option σ
  | db, [] => some db
  | db, script :: rest => (P.alone allowed db P.idle script).bind fun db => inTurn allowed db rest

/-- The statements of one transaction so far, with nothing in between. -/
def underway (db : σ) : φ → List ι → Option φ
  | p, [] => some p
  | p, given :: rest =>
    match P.statement db p given with
    | .ok q => underway db q rest
    | .error _ => none

/-- One worker's transaction under way, the others idle. -/
def only (db : σ) (w : W) (p : φ) : State W σ φ := ⟨db, Function.update (fun _ => P.idle) w p⟩

/-- Every worker idle. -/
def atRest (db : σ) : State W σ φ := ⟨db, fun _ => P.idle⟩

variable {P} {allowed : σ → φ → Bool} {db db' : σ} {p q : φ} {w : W}

theorem only_point : (P.only db w p).point w = p := by
  simp [only]

theorem only_point_of_ne {v : W} (hv : v ≠ w) : (P.only db w p).point v = P.idle := by
  simp [only, hv]

theorem only_idle : P.only db w P.idle = P.atRest db := by
  rw [only, atRest, Function.update_eq_self]

theorem step_only {given : ι} (h : P.statement db p given = .ok q) :
    P.Step (P.only db w p) (.statement w given) (P.only db w q) := by
  have hran : P.statement (P.only db w p).committed ((P.only db w p).point w) given = .ok q := by
    rw [only_point]
    exact h
  have hstep := Step.statement hran fun v hv => by
    rw [only_point_of_ne hv]
    exact P.compatible_idle q
  rw [only, Function.update_idem] at hstep
  exact hstep

theorem commit_only {f : σ → σ} (h : P.effect p = some f) :
    P.Step (P.only db w p) (.commit w) (P.atRest (f db)) := by
  have hdone : P.effect ((P.only db w p).point w) = some f := by
    rw [only_point]
    exact h
  have hstep := Step.commit hdone
  rw [only, Function.update_idem, Function.update_eq_self] at hstep
  exact hstep

theorem run_underway (start : σ → Prop) {script : List ι} (h : P.underway db p script = some q) :
    ∃ labels, (P.system start).Run (P.only db w p) labels (P.only db w q) := by
  induction script generalizing p with
  | nil =>
    cases h
    exact ⟨[], .nil _⟩
  | cons given rest ih =>
    cases hnext : P.statement db p given with
    | error e => simp [underway, hnext] at h
    | ok r =>
      simp only [underway, hnext] at h
      obtain ⟨labels, run⟩ := ih h
      have first : (P.system start).Run (P.only db w p) [.statement w given] (P.only db w r) :=
        .single (step_only hnext)
      exact ⟨_, first.append run⟩

/-- The check is enough for a step while no other transaction is under way. -/
def Permits (allowed : σ → φ → Bool) (ok : State W σ φ → Action W ι → Prop) : Prop :=
  ∀ db w p, allowed db p = true →
    ok (P.only db w p) (.commit w) ∧ ∀ given, ok (P.only db w p) (.statement w given)

theorem permits_true (allowed : σ → φ → Bool) :
    P.Permits allowed fun (_ : State W σ φ) (_ : Action W ι) => True :=
  fun _ _ _ _ => ⟨trivial, fun _ => trivial⟩

theorem run_alone (start : σ → Prop) (hok : P.Permits allowed ok) {script : List ι}
    (h : P.alone allowed db p script = some db') :
    ∃ labels, ((P.system start).restrict ok).Run (P.only db w p) labels (P.atRest db') := by
  induction script generalizing p with
  | nil =>
    obtain ⟨hallowed, h⟩ := Option.ite_none_right_eq_some.mp h
    obtain ⟨f, hf, rfl⟩ := Option.map_eq_some_iff.mp h
    exact ⟨_, .single ⟨(hok db w p hallowed).1, commit_only hf⟩⟩
  | cons given rest ih =>
    obtain ⟨hallowed, h⟩ := Option.ite_none_right_eq_some.mp h
    cases hnext : P.statement db p given with
    | error e => simp [hnext] at h
    | ok q =>
      simp only [hnext] at h
      obtain ⟨labels, run⟩ := ih h
      have first : ((P.system start).restrict ok).Run (P.only db w p) [.statement w given]
          (P.only db w q) := .single ⟨(hok db w p hallowed).2 given, step_only hnext⟩
      exact ⟨_, first.append run⟩

/-- Transactions that each run alone, all by one worker. -/
theorem run_inTurn (start : σ → Prop) (hok : P.Permits allowed ok) (w : W) {scripts : List (List ι)}
    (h : P.inTurn allowed db scripts = some db') :
    ∃ labels, ((P.system start).restrict ok).Run (P.atRest db) labels (P.atRest db') := by
  induction scripts generalizing db with
  | nil =>
    cases h
    exact ⟨[], .nil _⟩
  | cons script rest ih =>
    obtain ⟨between, hscript, hrest⟩ := Option.bind_eq_some_iff.mp h
    obtain ⟨first, hfirst⟩ := run_alone (w := w) start hok hscript
    obtain ⟨last, hlast⟩ := ih hrest
    rw [only_idle] at hfirst
    exact ⟨_, hfirst.append hlast⟩

theorem reachable_inTurn (start : σ → Prop) (hok : P.Permits allowed ok) (w : W)
    (hstart : start db) {scripts : List (List ι)}
    (h : P.inTurn allowed db scripts = some db') :
    ((P.system start).restrict ok).Reachable (P.atRest db') := by
  obtain ⟨labels, run⟩ := run_inTurn start hok w h
  exact ⟨_, labels, ⟨hstart, fun _ => rfl⟩, run⟩

/-- A transaction under way after others that each have run alone. -/
theorem reachable_underway (start : σ → Prop) (w : W) (hstart : start db)
    {scripts : List (List ι)} {script : List ι}
    (h : P.inTurn (fun _ _ => true) db scripts = some db')
    (hscript : P.underway db' P.idle script = some p) :
    (P.system start).Reachable (P.only db' w p) := by
  have reached := (reachable_inTurn start (permits_true fun _ _ => true) w hstart h).of_restrict
  obtain ⟨labels, run⟩ := run_underway (w := w) start hscript
  rw [only_idle] at run
  exact reached.run run

end Alone

/-! ## Transactions in the order of a schedule -/

section Schedule

variable [DecidableEq κ] [Fintype W]

variable (P) in
instance (p q : φ) : Decidable (P.Compatible p q) :=
  decidable_of_iff (∀ l ∈ P.locks p, ∀ m ∈ P.locks q, l.1 = m.1 → l.2 = .share ∧ m.2 = .share) <| by
    constructor
    · intro h key m n hm hn
      exact h _ hm _ hn rfl
    · rintro h ⟨key, m⟩ hm ⟨_, n⟩ hn rfl
      exact h key m n hm hn

variable (P) in
/-- The step of a schedule, if it can be taken: a worker that would wait has none. -/
def take (s : State W σ φ) : Action W ι → Option (State W σ φ)
  | .statement w given =>
    match P.statement s.committed (s.point w) given with
    | .ok q =>
      if ∀ v, v ≠ w → P.Compatible q (s.point v) then
        some { s with point := Function.update s.point w q }
      else none
    | .error _ => some { s with point := Function.update s.point w P.idle }
  | .commit w => (P.effect (s.point w)).map fun f =>
    { committed := f s.committed, point := Function.update s.point w P.idle }
  | .abort w => some { s with point := Function.update s.point w P.idle }
  | .outside given => (P.outside s.committed given).map fun db => { s with committed := db }

variable (P) in
/-- The steps of a schedule, each of which is to pass a check. -/
def follow (allowed : State W σ φ → Action W ι → Bool) (s : State W σ φ) :
    List (Action W ι) → Option (State W σ φ)
  | [] => some s
  | a :: rest => if allowed s a then (P.take s a).bind fun t => follow allowed t rest else none

theorem step_take (h : P.take s a = some t) : P.Step s a t := by
  cases a with
  | statement w given =>
    simp only [take] at h
    split at h
    · next q ran =>
      obtain ⟨free, h⟩ := Option.ite_none_right_eq_some.mp h
      cases h
      exact .statement ran free
    · next ran =>
      cases h
      exact .refused ran
  | commit w =>
    obtain ⟨f, done, rfl⟩ := Option.map_eq_some_iff.mp h
    exact .commit done
  | abort w =>
    cases h
    exact .abort w
  | outside given =>
    obtain ⟨db, moved, rfl⟩ := Option.map_eq_some_iff.mp h
    exact .outside moved

theorem run_follow {allowed : State W σ φ → Action W ι → Bool} (start : σ → Prop)
    (hok : ∀ s a, allowed s a = true → ok s a) (h : P.follow allowed s labels = some t) :
    ((P.system start).restrict ok).Run s labels t := by
  induction labels generalizing s with
  | nil =>
    cases h
    exact .nil _
  | cons a rest ih =>
    obtain ⟨hallowed, h⟩ := Option.ite_none_right_eq_some.mp h
    obtain ⟨u, hstep, h⟩ := Option.bind_eq_some_iff.mp h
    have first : ((P.system start).restrict ok).Run s [a] u :=
      .single ⟨hok s a hallowed, step_take hstep⟩
    exact first.append (ih h)

theorem reachable_follow {db : σ} {allowed : State W σ φ → Action W ι → Bool} (start : σ → Prop)
    (hok : ∀ s a, allowed s a = true → ok s a) (hstart : start db)
    (h : P.follow allowed (P.atRest db) labels = some t) :
    ((P.system start).restrict ok).Reachable t :=
  ⟨_, labels, ⟨hstart, fun _ => rfl⟩, run_follow start hok h⟩

end Schedule

end Protocol

end MpcRegistry.Library.ReadCommitted
