import Mathlib

/-!
# Inversion of `Except` programs

A successful result of a guarded or sequenced program names what each part of
it returned. Programs that refuse with `if p then .error e else …` peel off one
guard at a time. `FailsIff` says in one statement when a program fails and what
holds of its result when it does not.
-/
namespace MpcRegistry.Library.Outcome

variable {ε α β : Type}

/-- Past a refusing guard: it did not fire, and the rest succeeded. -/
theorem guard_ok {p : Prop} [Decidable p] {e : ε} {rest : Except ε α} {a : α} :
    (if p then .error e else rest) = .ok a ↔ ¬ p ∧ rest = .ok a := by
  by_cases h : p <;> simp [h]

/-- Past a requirement: it held, and the rest succeeded. -/
theorem require_ok {p : Prop} [Decidable p] {e : ε} {rest : Except ε α} {a : α} :
    (if p then rest else .error e) = .ok a ↔ p ∧ rest = .ok a := by
  by_cases h : p <;> simp [h]

theorem bind_ok {step : Except ε α} {next : α → Except ε β} {b : β} :
    (step >>= next) = .ok b ↔ ∃ a, step = .ok a ∧ next a = .ok b := by
  cases step with
  | error e => simp [bind, Except.bind]
  | ok a => simp [bind, Except.bind]

theorem bind_error {step : Except ε α} {next : α → Except ε β} {e : ε} :
    (step >>= next) = .error e ↔ step = .error e ∨ ∃ a, step = .ok a ∧ next a = .error e := by
  cases step with
  | error e' => simp [bind, Except.bind]
  | ok a => simp [bind, Except.bind]

theorem map_ok {step : Except ε α} {f : α → β} {b : β} :
    step.map f = .ok b ↔ ∃ a, step = .ok a ∧ f a = b := by
  cases step with
  | error e => simp [Except.map]
  | ok a => simp [Except.map]

theorem mapM_ok {f : α → Except ε β} {xs : List α} {ys : List β} (h : xs.mapM f = .ok ys) :
    List.Forall₂ (fun x y => f x = .ok y) xs ys := by
  induction xs generalizing ys with
  | nil =>
    cases h
    exact .nil
  | cons x xs ih =>
    rw [List.mapM_cons] at h
    obtain ⟨y, hy, h⟩ := bind_ok.mp h
    obtain ⟨tail, htail, h⟩ := bind_ok.mp h
    cases h
    exact .cons hy (ih htail)

/-- Every result is that of some input. -/
theorem exists_of_mapM_ok {f : α → Except ε β} {xs : List α} {ys : List β} {y : β}
    (h : xs.mapM f = .ok ys) (hy : y ∈ ys) : ∃ x ∈ xs, f x = .ok y := by
  have hpairs := mapM_ok h
  clear h
  induction hpairs with
  | nil => cases hy
  | cons hhead _ ih =>
    rcases List.mem_cons.mp hy with rfl | hy
    · exact ⟨_, List.mem_cons_self, hhead⟩
    · obtain ⟨x, hx, heq⟩ := ih hy
      exact ⟨x, List.mem_cons_of_mem _ hx, heq⟩

/-- Some result has a property when the input it belongs to has the one that decides it. -/
theorem exists_iff_of_mapM_ok {f : α → Except ε β} {xs : List α} {ys : List β} {p : α → Prop}
    {q : β → Prop} (h : xs.mapM f = .ok ys) (hiff : ∀ x y, f x = .ok y → (q y ↔ p x)) :
    (∃ y ∈ ys, q y) ↔ ∃ x ∈ xs, p x := by
  have hpairs := mapM_ok h
  clear h
  induction hpairs with
  | nil => simp
  | cons hhead htail ih => simp [hiff _ _ hhead, ih]

/-- The program fails exactly when `bad` holds; otherwise its result is `good`. -/
inductive FailsIff (bad : Prop) (program : Except ε α) (good : α → Prop) : Prop where
  | fails (error : ε) (holds : bad) (eq : program = .error error)
  | returns (value : α) (fine : ¬ bad) (eq : program = .ok value) (holds : good value)

namespace FailsIff

variable {bad worse : Prop} {good better : α → Prop} {program : Except ε α}

theorem exists_error_iff (h : FailsIff bad program good) : (∃ e, program = .error e) ↔ bad := by
  cases h with
  | fails error holds eq => simp [eq, holds]
  | returns value fine eq => simp [eq, fine]

theorem good_of_ok (h : FailsIff bad program good) {a : α} (ha : program = .ok a) : good a := by
  cases h with
  | fails error holds eq => simp [eq] at ha
  | returns value fine eq holds =>
    rw [eq, Except.ok.injEq] at ha
    exact ha ▸ holds

theorem ok {a : α} (ha : good a) : FailsIff False (.ok a : Except ε α) good :=
  .returns a id rfl ha

theorem congr (h : FailsIff bad program good) (hbad : bad ↔ worse) :
    FailsIff worse program good :=
  propext hbad ▸ h

theorem mono (h : FailsIff bad program good) (himp : ∀ a, good a → better a) :
    FailsIff bad program better := by
  cases h with
  | fails error holds eq => exact .fails error holds eq
  | returns value fine eq holds => exact .returns value fine eq (himp value holds)

theorem bind {next : α → Except ε β} {last : β → Prop} (h : FailsIff bad program good)
    (hnext : ∀ a, good a → FailsIff worse (next a) last) :
    FailsIff (bad ∨ worse) (program >>= next) last := by
  cases h with
  | fails error holds eq => exact .fails error (.inl holds) (by simp [eq, Bind.bind, Except.bind])
  | returns value fine eq holds =>
    subst eq
    cases hnext value holds with
    | fails error holds' eq' => exact .fails error (.inr holds') eq'
    | returns value' fine' eq' holds' =>
      exact .returns value' (not_or.mpr ⟨fine, fine'⟩) eq' holds'

/-- Over a list the first failure counts, so one bad element is enough. -/
theorem mapM (spoilt : α → Prop) (result : α → β → Prop) {f : α → Except ε β} {xs : List α}
    (h : ∀ x ∈ xs, FailsIff (spoilt x) (f x) (result x)) :
    FailsIff (∃ x ∈ xs, spoilt x) (xs.mapM f) (List.Forall₂ result xs) := by
  induction xs with
  | nil => exact .returns [] (by simp) rfl .nil
  | cons x xs ih =>
    have htail := ih fun y hy => h y (List.mem_cons_of_mem x hy)
    have hsplit : spoilt x ∨ (∃ y ∈ xs, spoilt y) ↔ ∃ y ∈ x :: xs, spoilt y := by simp
    rw [List.mapM_cons]
    refine ((h x List.mem_cons_self).bind fun y hy => ?_).congr hsplit
    refine (htail.bind fun ys hys => ?_).congr (or_iff_left id)
    exact FailsIff.ok (.cons hy hys)

end FailsIff

end MpcRegistry.Library.Outcome
