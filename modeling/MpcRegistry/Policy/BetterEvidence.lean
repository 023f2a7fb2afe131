import MpcRegistry.Policy.RecordedFacts

/-!
# Better evidence

What the evidence cascade asks for, as one condition: it is monotone in the facts, and
apart from it a result depends on the context alone.
-/
namespace MpcRegistry.Policy
open Library Library.Outcome

variable {requirement : Requirement} {facts facts' : RequirementFacts} {result : RequirementResult}

/-- The evidence is young enough: its age is known whenever a limit is set. -/
def Fresh (requirement : Requirement) (facts : RequirementFacts) : Prop :=
  ∀ threshold, requirement.freshnessThresholdDays = some threshold →
    ∃ age, facts.evidenceAgeDays = some age ∧
      ∃ days limit, bigInt age = .ok days ∧ bigInt threshold = .ok limit ∧ days ≤ limit

theorem evaluateFreshness_none_iff :
    evaluateFreshness requirement facts = .ok none ↔ Fresh requirement facts := by
  unfold evaluateFreshness Fresh
  cases requirement.freshnessThresholdDays with
  | none => simp
  | some threshold =>
    cases facts.evidenceAgeDays with
    | none => simp
    | some age =>
      simp only [bind_ok, Option.some.injEq, forall_eq', exists_eq_left']
      refine exists_congr fun days => ?_
      constructor
      · rintro ⟨hage, limit, hlimit, h⟩
        split at h
        · cases h
        · next hle => exact ⟨limit, hage, hlimit, not_lt.mp hle⟩
      · rintro ⟨limit, hage, hlimit, hle⟩
        exact ⟨hage, limit, hlimit, if_neg (not_lt.mpr hle)⟩

/-- Everything the cascade of checks asks of the evidence. -/
structure Suffices (requirement : Requirement) (facts : RequirementFacts) : Prop where
  claimTypes : ∀ claimType ∈ requirement.requiredClaimTypes, claimType ∈ facts.presentClaimTypes
  current : ∀ claimType ∈ facts.staleEvidence, claimType ∉ requirement.requiredClaimTypes
  grade : hasMinimumGrade facts requirement = true
  attestations : ∀ attestation ∈ requirement.requiredAttestations,
    attestation ∈ facts.presentAttestations
  fresh : Fresh requirement facts
  conflicts : ∀ conflict ∈ facts.unresolvedConflictTypes,
    conflict ∉ requirement.blockingConflictTypes

theorem evaluateEvidence_none_iff :
    evaluateEvidence requirement facts = .ok none ↔ Suffices requirement facts := by
  simp only [evaluateEvidence, pure, Except.pure, passes_iff, bind_ok, ne_eq, not_not,
    List.filter_eq_nil_iff, decide_eq_true_eq, Bool.not_eq_true', Bool.not_eq_false]
  constructor
  · rintro ⟨hclaimTypes, hcurrent, hgrade, hattestations, blocker, hfreshness, h⟩
    cases blocker with
    | some blocked => cases h
    | none =>
      have hconflicts := not_not.mp (passes_iff.mp h).1
      exact ⟨hclaimTypes, hcurrent, hgrade, hattestations,
        evaluateFreshness_none_iff.mp hfreshness, hconflicts⟩
  · intro h
    refine ⟨h.claimTypes, h.current, h.grade, h.attestations, none,
      evaluateFreshness_none_iff.mpr h.fresh, ?_⟩
    exact passes_iff.mpr ⟨not_not.mpr h.conflicts, rfl⟩

/-- At least as good in everything but the context, which is the same. -/
structure Better (facts facts' : RequirementFacts) : Prop where
  context : facts'.context = facts.context
  claimTypes : facts.presentClaimTypes ⊆ facts'.presentClaimTypes
  attestations : facts.presentAttestations ⊆ facts'.presentAttestations
  grade : ∀ grade, facts.grade = some grade →
    ∃ grade', facts'.grade = some grade' ∧ grade.rank ≤ grade'.rank
  age : ∀ age, facts.evidenceAgeDays = some age → ∃ age', facts'.evidenceAgeDays = some age' ∧
    ∀ days, bigInt age = .ok days → ∃ days', bigInt age' = .ok days' ∧ days' ≤ days
  conflicts : facts'.unresolvedConflictTypes ⊆ facts.unresolvedConflictTypes
  stale : facts'.staleEvidence ⊆ facts.staleEvidence

theorem Better.hasMinimumGrade (h : Better facts facts')
    (hgrade : hasMinimumGrade facts requirement = true) :
    hasMinimumGrade facts' requirement = true := by
  obtain ⟨grade, heq, hrank⟩ := (Option.any_eq_true _ _).mp hgrade
  obtain ⟨grade', heq', hle⟩ := h.grade grade heq
  simp only [gradeAtLeast, decide_eq_true_eq] at hrank
  simp [Policy.hasMinimumGrade, heq', gradeAtLeast, hrank.trans hle]

theorem Better.fresh (h : Better facts facts') (hfresh : Fresh requirement facts) :
    Fresh requirement facts' := by
  intro threshold hthreshold
  obtain ⟨age, hage, days, limit, hdays, hlimit, hle⟩ := hfresh threshold hthreshold
  obtain ⟨age', hage', hyounger⟩ := h.age age hage
  obtain ⟨days', hdays', hle'⟩ := hyounger days hdays
  exact ⟨age', hage', days', limit, hdays', hlimit, hle'.trans hle⟩

theorem Better.suffices (h : Better facts facts') (hsuffices : Suffices requirement facts) :
    Suffices requirement facts' where
  claimTypes claimType hmem := h.claimTypes (hsuffices.claimTypes claimType hmem)
  current claimType hmem := hsuffices.current claimType (h.stale hmem)
  grade := h.hasMinimumGrade hsuffices.grade
  attestations attestation hmem := h.attestations (hsuffices.attestations attestation hmem)
  fresh := h.fresh hsuffices.fresh
  conflicts conflict hmem := hsuffices.conflicts conflict (h.conflicts hmem)

/-- Status `ok` or `watch`; a requirement that does not apply is `ok`. -/
def Passes (result : RequirementResult) : Prop := isGoBlocking result.status = false

theorem Passes.ne_blocked (h : Passes result) {blocked : RequirementResult}
    (hblocking : isGoBlocking blocked.status = true) :
    Except.ok (ε := Thrown) blocked ≠ .ok result := by
  rintro heq
  cases heq
  rw [Passes, hblocking] at h
  cases h

theorem Better.evaluateApplicable_eq (h : Better facts facts')
    (heval : evaluateApplicable requirement facts = .ok result) (hpasses : Passes result) :
    evaluateApplicable requirement facts' = .ok result := by
  unfold evaluateApplicable at heval ⊢
  rw [h.context]
  obtain ⟨notEvaluable, hpredicate, heval⟩ := bind_ok.mp heval
  rw [hpredicate]
  cases notEvaluable with
  | true => exact absurd heval (hpasses.ne_blocked rfl)
  | false =>
    obtain ⟨blocker, hevidence, heval⟩ := bind_ok.mp heval
    cases blocker with
    | some blocked =>
      exact absurd heval (hpasses.ne_blocked (evaluateEvidence_blocks hevidence).blocking)
    | none =>
      have hsuffices := h.suffices (evaluateEvidence_none_iff.mp hevidence)
      have hevidence' := evaluateEvidence_none_iff.mpr hsuffices
      simpa [bind, Except.bind, hevidence'] using heval

/-- A result that passes is reached again, with its status and its reason. -/
theorem Better.evaluateFacts_eq (h : Better facts facts')
    (heval : evaluateFacts requirement facts = .ok result) (hpasses : Passes result) :
    evaluateFacts requirement facts' = .ok result := by
  by_cases hrecorded : Recorded requirement.appliesWhen facts.context
  · have hrecorded' : Recorded requirement.appliesWhen facts'.context := h.context ▸ hrecorded
    rw [evaluateFacts_of_recorded hrecorded] at heval
    rw [evaluateFacts_of_recorded hrecorded', h.context]
    obtain ⟨applies, hpredicate, heval⟩ := bind_ok.mp heval
    refine bind_ok.mpr ⟨applies, hpredicate, ?_⟩
    cases applies with
    | false => exact heval
    | true =>
      by_cases hbasis : unknownBasis requirement facts.context = []
      · rw [if_neg (by simp), if_neg (not_not.mpr hbasis)] at heval ⊢
        exact h.evaluateApplicable_eq heval hpasses
      · rw [if_neg (by simp), if_pos hbasis] at heval
        exact absurd heval (hpasses.ne_blocked rfl)
  · rw [evaluateFacts_of_absent hrecorded] at heval
    exact absurd heval (hpasses.ne_blocked rfl)

/-! ## What a pass says -/

/-- A requirement that applies and passes found its evidence sufficient. -/
theorem suffices_of_passes
    (heval : evaluateRequirement requirement (some facts) = .ok result)
    (happlicable : result.applicable = true) (hpasses : Passes result) :
    Suffices requirement facts := by
  change evaluateFacts requirement facts = .ok result at heval
  by_cases hrecorded : Recorded requirement.appliesWhen facts.context
  · rw [evaluateFacts_of_recorded hrecorded] at heval
    obtain ⟨applies, -, heval⟩ := bind_ok.mp heval
    cases applies with
    | false =>
      obtain rfl : notApplicable requirement.requirementId = result := Except.ok.inj heval
      exact absurd happlicable Bool.false_ne_true
    | true =>
      by_cases hbasis : unknownBasis requirement facts.context = []
      · rw [if_neg (by simp), if_neg (not_not.mpr hbasis)] at heval
        obtain ⟨notEvaluable, -, heval⟩ := bind_ok.mp heval
        cases notEvaluable with
        | true => exact absurd heval (hpasses.ne_blocked rfl)
        | false =>
          obtain ⟨blocker, hevidence, heval⟩ := bind_ok.mp heval
          cases blocker with
          | some blocked =>
            exact absurd heval (hpasses.ne_blocked (evaluateEvidence_blocks hevidence).blocking)
          | none => exact evaluateEvidence_none_iff.mp hevidence
      · rw [if_neg (by simp), if_pos hbasis] at heval
        exact absurd heval (hpasses.ne_blocked rfl)
  · rw [evaluateFacts_of_absent hrecorded] at heval
    exact absurd heval (hpasses.ne_blocked rfl)

/-- The results of an assessment that passes: each is that of a requirement, and those that
apply pass. -/
theorem passes_of_assessment {ruleSet : RuleSet} {input : AssessmentInput}
    {assessment : Assessment} (heval : evaluateAssessment ruleSet input = .ok assessment)
    (hstatus : assessment.status = .ok ∨ assessment.status = .watch) :
    (∀ result ∈ assessment.requirementResults, ∃ requirement ∈ ruleSet.requirements,
      evaluateRequirement requirement (input.requirementFacts requirement.requirementId) =
        .ok result) ∧
    ∀ result ∈ assessment.requirementResults, result.applicable = true → Passes result := by
  obtain ⟨results, hresults, heq⟩ := bind_ok.mp heval
  cases heq
  constructor
  · intro result hmem
    exact exists_of_mapM_ok hresults hmem
  · intro result hmem happlicable
    have hstatuses : result.status ∈ applicableStatuses results := by
      rw [applicableStatuses, List.mem_map]
      exact ⟨result, List.mem_filter.mpr ⟨hmem, happlicable⟩, rfl⟩
    have hworst := (aggregateReadiness_worst (List.ne_nil_of_mem hstatuses)).2 _ hstatuses
    simp only at hstatus
    have hrank : 2 ≤ (aggregateReadiness (applicableStatuses results)).rank := by
      rcases hstatus with h | h <;> rw [h] <;> decide
    unfold Passes
    cases hresult : result.status with
    | ok | watch => rfl
    | gap | notEvaluable =>
      rw [hresult] at hworst
      exact absurd (hrank.trans hworst) (by decide)

theorem better_evidence_passes (requirement : Requirement) (facts facts' : RequirementFacts)
    (result : RequirementResult) (h : Better facts facts')
    (heval : evaluateRequirement requirement (some facts) = .ok result)
    (hpasses : result.status = .ok ∨ result.status = .watch ∨ result.applicable = false) :
    ∃ result', evaluateRequirement requirement (some facts') = .ok result' ∧
      result'.status = result.status ∧ result'.applicable = result.applicable := by
  refine ⟨result, h.evaluateFacts_eq heval ?_, rfl, rfl⟩
  rcases hpasses with hpasses | hpasses | hpasses
  · simp [Passes, hpasses, isGoBlocking]
  · simp [Passes, hpasses, isGoBlocking]
  · rw [eq_notApplicable heval hpasses]
    rfl

section Witness

def reserveRequirement : Requirement where
  requirementId := units "reserve_estimate"
  appliesWhen := .not (.eq (units "projectStage") (units "exploration"))
  requiredClaimTypes := [units "reserve"]
  minimumGrade := .partiallyVerified
  freshnessThresholdDays := some (units "90")
  requiredAttestations := [.professionalSignoff]
  blockingConflictTypes := [units "reserve_mismatch"]
  notEvaluableWhen := .never
  watchWhen := some (.exists (units "projectStage"))

def reserveFacts : RequirementFacts where
  presentClaimTypes := [units "reserve"]
  grade := some .partiallyVerified
  presentAttestations := [.professionalSignoff]
  evidenceAgeDays := some (units "30")
  unresolvedConflictTypes := [units "label"]
  staleEvidence := [units "photo"]
  context path := if path = units "projectStage" then some (.scalar (units "mining")) else none

def betterReserveFacts : RequirementFacts :=
  { reserveFacts with
    presentClaimTypes := [units "map", units "reserve"]
    grade := some .verified
    evidenceAgeDays := some (units "7")
    unresolvedConflictTypes := [] }

theorem better_evidence_passes_reserve :
    ∃ result', evaluateRequirement reserveRequirement (some betterReserveFacts) = .ok result' ∧
      result'.status = .watch ∧ result'.applicable = true := by
  refine better_evidence_passes reserveRequirement reserveFacts betterReserveFacts
    (satisfied (units "reserve_estimate") true) ?_ rfl (.inr (.inl rfl))
  refine ⟨rfl, by decide, by decide, ?_, ?_, by decide, by decide⟩
  · exact fun grade hgrade => ⟨.verified, rfl, Option.some.inj hgrade ▸ by decide⟩
  · rintro age hage
    refine ⟨units "7", rfl, fun days hdays => ⟨7, rfl, ?_⟩⟩
    obtain rfl := Option.some.inj hage
    obtain rfl : (30 : Int) = days := Except.ok.inj hdays
    decide

end Witness

end MpcRegistry.Policy
