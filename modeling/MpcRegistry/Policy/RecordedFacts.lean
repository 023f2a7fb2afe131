import MpcRegistry.Policy.Engine

/-!
# Recording more facts

A result that did not stop at an absent fact has read recorded facts only, so it
stays what it is when more facts are recorded.
-/
namespace MpcRegistry.Policy
open Library Library.Outcome

variable {requirement : Requirement} {facts facts' : RequirementFacts} {result : RequirementResult}

/-! ## Absent facts -/

@[simp] theorem mem_sortTexts {texts : List Text} {text : Text} :
    text ∈ sortTexts texts ↔ text ∈ texts :=
  (List.perm_insertionSort (· ≤ ·) texts).mem_iff

theorem mem_foldl_setAdd {texts out : List Text} {text : Text} :
    text ∈ texts.foldl setAdd out ↔ text ∈ out ∨ text ∈ texts := by
  induction texts generalizing out with
  | nil => simp
  | cons first rest ih => simp [ih, or_assoc]

@[simp] theorem mem_distinct {texts : List Text} {text : Text} :
    text ∈ distinct texts ↔ text ∈ texts := by
  simp [distinct, mem_foldl_setAdd]

theorem mem_absentFacts {predicate : Predicate} {context : Facts} {path : Text} :
    path ∈ absentFacts predicate context ↔ path ∈ predicate.paths ∧ context path = none := by
  simp [absentFacts]

/-- Every path of the predicate is recorded. -/
def Recorded (predicate : Predicate) (context : Facts) : Prop :=
  ∀ path ∈ predicate.paths, context path ≠ none

theorem absentFacts_eq_nil_iff {predicate : Predicate} {context : Facts} :
    absentFacts predicate context = [] ↔ Recorded predicate context := by
  simp [List.eq_nil_iff_forall_not_mem, mem_absentFacts, Recorded]

theorem unknownBasis_eq_nil_iff {context : Facts} :
    unknownBasis requirement context = [] ↔
      Recorded requirement.notEvaluableWhen context ∧
        ∀ watchWhen, requirement.watchWhen = some watchWhen → Recorded watchWhen context := by
  rw [unknownBasis, List.append_eq_nil_iff, absentFacts_eq_nil_iff]
  cases requirement.watchWhen with
  | none => simp
  | some watchWhen => simp [absentFacts_eq_nil_iff]

theorem absent_of_mem_unknownBasis {context : Facts} {path : Text}
    (h : path ∈ unknownBasis requirement context) : context path = none := by
  rw [unknownBasis, List.mem_append] at h
  rcases h with h | h
  · exact (mem_absentFacts.mp h).2
  · cases hwatch : requirement.watchWhen with
    | none => simp [hwatch] at h
    | some watchWhen =>
      rw [hwatch] at h
      exact (mem_absentFacts.mp h).2

/-- The result is `not_evaluable`, and a fact it misses is one nobody recorded. -/
structure AbsentFactsNamed (facts : RequirementFacts) (result : RequirementResult) : Prop where
  status : result.status = .notEvaluable
  named : ∃ path, factText path ∈ result.missing ∧ facts.context path = none

theorem absentFactsNamed_notEvaluableFor {requirementId : Text} {paths : List Text}
    (hsome : paths ≠ []) (habsent : ∀ path ∈ paths, facts.context path = none) :
    AbsentFactsNamed facts (notEvaluableFor requirementId paths) := by
  obtain ⟨path, hmem⟩ := List.exists_mem_of_ne_nil paths hsome
  exact ⟨rfl, path, List.mem_map_of_mem (by simpa using hmem), habsent path hmem⟩

def StopsOnAbsentFacts (requirement : Requirement) (facts : RequirementFacts) : Prop :=
  ∃ result, evaluateRequirement requirement (some facts) = .ok result ∧
    AbsentFactsNamed facts result

/-! ## The guards -/

theorem evaluateFacts_of_absent (h : ¬ Recorded requirement.appliesWhen facts.context) :
    evaluateFacts requirement facts =
      .ok (notEvaluableFor requirement.requirementId
        (absentFacts requirement.appliesWhen facts.context)) := by
  rw [← absentFacts_eq_nil_iff] at h
  simp [evaluateFacts, h, pure, Except.pure]

theorem evaluateFacts_of_recorded (h : Recorded requirement.appliesWhen facts.context) :
    evaluateFacts requirement facts =
      (evaluatePredicate facts.context requirement.appliesWhen >>= fun applies =>
        if !applies then .ok (notApplicable requirement.requirementId)
        else if unknownBasis requirement facts.context ≠ [] then
          .ok (notEvaluableFor requirement.requirementId
            (unknownBasis requirement facts.context))
        else evaluateApplicable requirement facts) := by
  rw [← absentFacts_eq_nil_iff] at h
  simp [evaluateFacts, h, pure, Except.pure]

/-- Everything an evaluation can come to, past its two guards against absent facts. -/
theorem evaluateFacts_cases (h : ¬ StopsOnAbsentFacts requirement facts) :
    Recorded requirement.appliesWhen facts.context ∧
      (evaluatePredicate facts.context requirement.appliesWhen = .ok true →
        unknownBasis requirement facts.context = []) := by
  have happlies : Recorded requirement.appliesWhen facts.context := by
    by_contra habsent
    refine h ⟨_, evaluateFacts_of_absent habsent, absentFactsNamed_notEvaluableFor ?_ ?_⟩
    · rwa [Ne, absentFacts_eq_nil_iff]
    · exact fun path hmem => (mem_absentFacts.mp hmem).2
  refine ⟨happlies, fun htrue => ?_⟩
  by_contra hbasis
  refine h ⟨notEvaluableFor requirement.requirementId (unknownBasis requirement facts.context),
    ?_, absentFactsNamed_notEvaluableFor hbasis fun path => absent_of_mem_unknownBasis⟩
  change evaluateFacts requirement facts = _
  rw [evaluateFacts_of_recorded happlies, htrue]
  simp [bind, Except.bind, hbasis]

/-! ## More facts -/

/-- More context paths are recorded, and nothing else is different. -/
structure Extends (facts facts' : RequirementFacts) : Prop where
  rest : facts' = { facts with context := facts'.context }
  context : ∀ path value, facts.context path = some value → facts'.context path = some value

theorem Extends.context_eq (h : Extends facts facts') {path : Text}
    (hrecorded : facts.context path ≠ none) : facts.context path = facts'.context path := by
  obtain ⟨value, hvalue⟩ := Option.ne_none_iff_exists'.mp hrecorded
  rw [hvalue, h.context path value hvalue]

theorem Extends.recorded (h : Extends facts facts') {predicate : Predicate}
    (hrecorded : Recorded predicate facts.context) : Recorded predicate facts'.context :=
  fun path hmem => h.context_eq (hrecorded path hmem) ▸ hrecorded path hmem

theorem Extends.evaluatePredicate_eq (h : Extends facts facts') {predicate : Predicate}
    (hrecorded : Recorded predicate facts.context) :
    evaluatePredicate facts'.context predicate = evaluatePredicate facts.context predicate :=
  (evaluatePredicate_congr predicate fun path hmem => h.context_eq (hrecorded path hmem)).symm

theorem Extends.unknownBasis_eq_nil (h : Extends facts facts')
    (hbasis : unknownBasis requirement facts.context = []) :
    unknownBasis requirement facts'.context = [] := by
  rw [unknownBasis_eq_nil_iff] at hbasis ⊢
  exact ⟨h.recorded hbasis.1, fun watchWhen hwatch => h.recorded (hbasis.2 watchWhen hwatch)⟩

/-- The evidence is judged without the context. -/
theorem Extends.evaluateEvidence_eq (h : Extends facts facts') :
    evaluateEvidence requirement facts' = evaluateEvidence requirement facts := by
  rw [h.rest]
  rfl

theorem Extends.evaluateApplicable_eq (h : Extends facts facts')
    (hbasis : unknownBasis requirement facts.context = []) :
    evaluateApplicable requirement facts' = evaluateApplicable requirement facts := by
  obtain ⟨hnotEvaluable, hwatch⟩ := unknownBasis_eq_nil_iff.mp hbasis
  have hwatched : evaluateWatch requirement facts'.context =
      evaluateWatch requirement facts.context := by
    unfold evaluateWatch
    cases hwhen : requirement.watchWhen with
    | none => rfl
    | some watchWhen => exact h.evaluatePredicate_eq (hwatch watchWhen hwhen)
  unfold evaluateApplicable
  rw [h.evaluatePredicate_eq hnotEvaluable, h.evaluateEvidence_eq, hwatched]

theorem Extends.evaluateFacts_eq (h : Extends facts facts')
    (hsettled : ¬ StopsOnAbsentFacts requirement facts) :
    evaluateFacts requirement facts' = evaluateFacts requirement facts := by
  obtain ⟨happlies, hbasis⟩ := evaluateFacts_cases hsettled
  rw [evaluateFacts_of_recorded happlies, evaluateFacts_of_recorded (h.recorded happlies),
    h.evaluatePredicate_eq happlies]
  cases heval : evaluatePredicate facts.context requirement.appliesWhen with
  | error thrown => rfl
  | ok applies =>
    cases applies with
    | false => rfl
    | true =>
      have hnil := hbasis heval
      simp [bind, Except.bind, hnil, h.unknownBasis_eq_nil hnil, h.evaluateApplicable_eq hnil]

/-! ## Settled results -/

/-- What a settled result has read: a requirement that does not apply reads no more than
the predicate that says so. -/
structure ReadRecorded (requirement : Requirement) (facts : RequirementFacts)
    (result : RequirementResult) : Prop where
  appliesWhen : Recorded requirement.appliesWhen facts.context
  notEvaluableWhen : result.applicable = true → Recorded requirement.notEvaluableWhen facts.context
  watchWhen : result.applicable = true → ∀ watchWhen, requirement.watchWhen = some watchWhen →
    Recorded watchWhen facts.context

theorem readRecorded_of_evaluable
    (heval : evaluateRequirement requirement (some facts) = .ok result)
    (hstatus : result.status ≠ .notEvaluable) : ReadRecorded requirement facts result := by
  have hsettled : ¬ StopsOnAbsentFacts requirement facts := by
    rintro ⟨other, heq, hnamed⟩
    rw [heval, Except.ok.injEq] at heq
    exact hstatus (heq ▸ hnamed.status)
  obtain ⟨happlies, hbasis⟩ := evaluateFacts_cases hsettled
  have happlied : result.applicable = true →
      evaluatePredicate facts.context requirement.appliesWhen = .ok true := by
    intro happlicable
    change evaluateFacts requirement facts = .ok result at heval
    rw [evaluateFacts_of_recorded happlies] at heval
    obtain ⟨applies, hpredicate, hrest⟩ := bind_ok.mp heval
    cases applies with
    | true => exact hpredicate
    | false =>
      obtain rfl : notApplicable requirement.requirementId = result := Except.ok.inj hrest
      exact absurd happlicable Bool.false_ne_true
  have hrecorded := fun happlicable => unknownBasis_eq_nil_iff.mp (hbasis (happlied happlicable))
  exact ⟨happlies, fun h => (hrecorded h).1, fun h => (hrecorded h).2⟩

theorem settled_requirement_stable (requirement : Requirement) (facts : RequirementFacts) :
    (¬ StopsOnAbsentFacts requirement facts → ∀ facts', Extends facts facts' →
      evaluateRequirement requirement (some facts') =
        evaluateRequirement requirement (some facts)) ∧
    ∀ result, evaluateRequirement requirement (some facts) = .ok result →
      result.status ∈ [ReadinessStatus.ok, .watch, .gap] ∨ result.applicable = false →
      ReadRecorded requirement facts result := by
  refine ⟨fun hsettled facts' hextends => hextends.evaluateFacts_eq hsettled, ?_⟩
  intro result heval hsettled
  refine readRecorded_of_evaluable heval fun hstatus => ?_
  rcases hsettled with hsettled | hinapplicable
  · rw [hstatus] at hsettled
    exact absurd hsettled (by decide)
  · rw [eq_notApplicable heval hinapplicable] at hstatus
    exact ReadinessStatus.noConfusion hstatus

end MpcRegistry.Policy
