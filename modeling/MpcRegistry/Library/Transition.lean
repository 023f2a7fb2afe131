import Mathlib

/-!
# Labelled transition systems and their runs

The invariant rules every stateful model of this development uses. A system is
an initial-state predicate and a labelled step relation; a run is a finite
list of labels with the states they connect. Deterministic programs enter by
`System.ofExec`, and a side condition on single steps by `System.restrict`.
-/
namespace MpcRegistry.Library

/-- States `σ`, labels `α`, a predicate for the start and one step. -/
structure System (σ α : Type*) where
  initial : σ → Prop
  step : σ → α → σ → Prop

namespace System

variable {σ α : Type*}

/-- A finite run, extended at its end. -/
inductive Run (S : System σ α) : σ → List α → σ → Prop where
  | nil (s : σ) : Run S s [] s
  | snoc {s t u : σ} {labels : List α} {a : α}
      (before : Run S s labels t) (last : S.step t a u) : Run S s (labels ++ [a]) u

/-- A state some run reaches from an initial one. -/
def Reachable (S : System σ α) (s : σ) : Prop :=
  ∃ s₀ labels, S.initial s₀ ∧ S.Run s₀ labels s

/-- The system of a deterministic, total step function. -/
def ofExec (initial : σ → Prop) (exec : σ → α → σ) : System σ α where
  initial := initial
  step s a t := exec s a = t

/-- The same system, with only the steps that meet a condition on the state
before them. -/
def restrict (S : System σ α) (ok : σ → α → Prop) : System σ α where
  initial := S.initial
  step s a t := ok s a ∧ S.step s a t

variable {S : System σ α} {s t u : σ} {labels : List α}

theorem Run.single {a : α} (h : S.step s a t) : S.Run s [a] t := by
  simpa using Run.snoc (Run.nil s) h

theorem Run.append {more : List α} (first : S.Run s labels t) (second : S.Run t more u) :
    S.Run s (labels ++ more) u := by
  induction second with
  | nil => simpa using first
  | snoc _ last ih =>
    rw [← List.append_assoc]
    exact Run.snoc ih last

/-- Invariant rule for one run: what every step preserves, the run preserves. -/
theorem Run.preserves {I : σ → Prop} (run : S.Run s labels t) (start : I s)
    (keeps : ∀ u a v, I u → S.step u a v → I v) : I t := by
  induction run with
  | nil => exact start
  | snoc _ last ih => exact keeps _ _ _ ih last

/-- The states a run went through, the first and the last of them included. -/
def Visits (S : System σ α) (s : σ) (labels : List α) (t u : σ) : Prop :=
  ∃ before after, labels = before ++ after ∧ S.Run s before u ∧ S.Run u after t

/-- The steps a run took. -/
def Takes (S : System σ α) (s : σ) (labels : List α) (t u : σ) (a : α) (v : σ) : Prop :=
  ∃ before after, labels = before ++ a :: after ∧ S.Run s before u ∧ S.step u a v ∧ S.Run v after t

/-- Invariant rule for what also speaks of states the run has been in. -/
theorem Run.preserves_past {I : (σ → Prop) → σ → Prop} (run : S.Run s labels t)
    (mono : ∀ {past more : σ → Prop} u, (∀ v, past v → more v) → I past u → I more u)
    (start : I (S.Visits s [] s) s)
    (keeps : ∀ past u a v, past u → I past u → S.step u a v → I past v) :
    I (S.Visits s labels t) t := by
  induction run with
  | nil => exact start
  | @snoc t u labels a before last ih =>
    have hpast : ∀ v, S.Visits s labels t v → S.Visits s (labels ++ [a]) u v := by
      intro v ⟨first, rest, hsplit, hfirst, hrest⟩
      exact ⟨first, rest ++ [a], by rw [hsplit, List.append_assoc], hfirst, hrest.snoc last⟩
    refine keeps _ t a u (hpast t ⟨labels, [], by simp, before, .nil t⟩) (mono t hpast ih) last

/-- A preorder that holds across every step holds across a run. The invariant
`I` is available at each step. -/
theorem Run.relates {I : σ → Prop} {R : σ → σ → Prop} (run : S.Run s labels t) (start : I s)
    (keeps : ∀ u a v, I u → S.step u a v → I v)
    (refl : ∀ u, R u u) (trans : ∀ u v w, R u v → R v w → R u w)
    (related : ∀ u a v, I u → S.step u a v → R u v) : R s t := by
  induction run with
  | nil => exact refl _
  | snoc before last ih =>
    exact trans _ _ _ ih (related _ _ _ (before.preserves start keeps) last)

/-- Invariant rule over all reachable states. -/
theorem Reachable.invariant {I : σ → Prop} (reached : S.Reachable s)
    (base : ∀ s₀, S.initial s₀ → I s₀)
    (keeps : ∀ u a v, I u → S.step u a v → I v) : I s := by
  obtain ⟨s₀, labels, start, run⟩ := reached
  exact run.preserves (base s₀ start) keeps

theorem Reachable.of_initial (h : S.initial s) : S.Reachable s := ⟨s, [], h, .nil s⟩

theorem Reachable.step {a : α} (reached : S.Reachable s) (h : S.step s a t) : S.Reachable t := by
  obtain ⟨s₀, labels, start, run⟩ := reached
  exact ⟨s₀, labels ++ [a], start, .snoc run h⟩

theorem Reachable.run (reached : S.Reachable s) (run : S.Run s labels t) : S.Reachable t := by
  obtain ⟨s₀, earlier, start, before⟩ := reached
  exact ⟨s₀, earlier ++ labels, start, before.append run⟩

/-- A run of the restricted system is a run of the system. -/
theorem Run.of_restrict {ok : σ → α → Prop} (run : (S.restrict ok).Run s labels t) :
    S.Run s labels t := by
  induction run with
  | nil => exact .nil _
  | snoc _ last ih => exact .snoc ih last.2

theorem Visits.of_restrict {ok : σ → α → Prop} (h : (S.restrict ok).Visits s labels t u) :
    S.Visits s labels t u := by
  obtain ⟨before, after, hsplit, hbefore, hafter⟩ := h
  exact ⟨before, after, hsplit, hbefore.of_restrict, hafter.of_restrict⟩

/-- A run whose labels always meet the condition is a run of the restricted system. -/
theorem Run.restrict {ok : σ → α → Prop} (run : S.Run s labels t)
    (meets : ∀ a ∈ labels, ∀ u, ok u a) : (S.restrict ok).Run s labels t := by
  induction run with
  | nil => exact .nil _
  | snoc _ last ih =>
    refine .snoc (ih fun a member => meets a (by simp [member])) ⟨meets _ (by simp) _, last⟩

theorem Reachable.restrict {ok : σ → α → Prop} (reached : S.Reachable s) (meets : ∀ a u, ok u a) :
    (S.restrict ok).Reachable s := by
  obtain ⟨s₀, labels, start, run⟩ := reached
  exact ⟨s₀, labels, start, run.restrict fun a _ u => meets a u⟩

theorem Reachable.of_restrict {ok : σ → α → Prop} (reached : (S.restrict ok).Reachable s) :
    S.Reachable s := by
  obtain ⟨s₀, labels, start, run⟩ := reached
  exact ⟨s₀, labels, start, run.of_restrict⟩

/-- The run of a deterministic system is the left fold of its step function. -/
theorem run_ofExec {initial : σ → Prop} {exec : σ → α → σ} (s : σ) (labels : List α) :
    (ofExec initial exec).Run s labels (labels.foldl exec s) := by
  induction labels using List.reverseRecOn with
  | nil => exact .nil s
  | append_singleton labels a ih =>
    rw [List.foldl_append]
    exact .snoc ih rfl

section Refusing

variable {ε : Type*}

/-- The system of a step function that may refuse; what it refuses is no step. -/
def ofExcept (initial : σ → Prop) (exec : σ → α → Except ε σ) : System σ α where
  initial := initial
  step s a t := exec s a = .ok t

/-- The labels taken in order, while none is refused and the condition holds before each. -/
def follow (ok : σ → α → Bool) (exec : σ → α → Except ε σ) : σ → List α → Option σ
  | s, [] => some s
  | s, a :: rest =>
    match ok s a, exec s a with
    | true, .ok t => follow ok exec t rest
    | _, _ => none

theorem run_follow {initial : σ → Prop} {ok : σ → α → Bool} {cond : σ → α → Prop}
    {exec : σ → α → Except ε σ} (meets : ∀ s a, ok s a = true → cond s a)
    (h : follow ok exec s labels = some t) :
    ((ofExcept initial exec).restrict cond).Run s labels t := by
  induction labels generalizing s with
  | nil =>
    cases h
    exact .nil _
  | cons a rest ih =>
    unfold follow at h
    split at h
    next u hok hexec =>
      have first : ((ofExcept initial exec).restrict cond).Run s [a] u :=
        Run.single ⟨meets s a hok, hexec⟩
      exact first.append (ih h)
    next => cases h

/-- A state with a property that is reached by labels taken in order. -/
theorem reachable_follow {initial : σ → Prop} {cond : σ → α → Prop} {exec : σ → α → Except ε σ}
    {p : σ → Bool} (ok : σ → α → Bool) (labels : List α) (start : initial s)
    (meets : ∀ s a, ok s a = true → cond s a) (h : (follow ok exec s labels).any p = true) :
    ∃ t, ((ofExcept initial exec).restrict cond).Reachable t ∧ p t = true := by
  obtain ⟨t, hfollow, hp⟩ := (Option.any_eq_true p _).mp h
  exact ⟨t, ⟨s, labels, start, run_follow meets hfollow⟩, hp⟩

/-- A step of a run, with a property of the states it connects. -/
theorem takes_follow {initial : σ → Prop} {exec : σ → α → Except ε σ} {p : σ → σ → Bool}
    (labels : List α) (a : α)
    (h : ((follow (fun _ _ => true) exec s labels).any fun u => (exec u a).toOption.any (p u)) = true) :
    ∃ u v, (ofExcept initial exec).Takes s (labels ++ [a]) v u a v ∧ p u v = true := by
  obtain ⟨u, hfollow, hstep⟩ := (Option.any_eq_true _ _).mp h
  obtain ⟨v, hv, hp⟩ := (Option.any_eq_true _ _).mp hstep
  have hexec : exec u a = .ok v := by
    cases hresult : exec u a with
    | error e =>
      rw [hresult] at hv
      cases hv
    | ok w =>
      rw [hresult] at hv
      exact congrArg Except.ok (Option.some.inj hv)
  have run : ((ofExcept initial exec).restrict fun _ _ => True).Run s labels u :=
    run_follow (fun _ _ _ => trivial) hfollow
  exact ⟨u, v, ⟨labels, [], rfl, run.of_restrict, hexec, .nil v⟩, hp⟩

end Refusing

end System

end MpcRegistry.Library
