import MpcRegistry.Policy.Readiness

/-!
# The policy engine

Source: packages/policy/src/engine.ts:25-298, packages/policy/src/rule-schema.ts:37-80.
`evaluateRequirement` is cut at its comments: whether the requirement applies, whether there
is a basis to judge it, what its evidence lacks, and whether it is to be watched.
-/
namespace MpcRegistry.Policy
open Library Library.Outcome

structure Requirement where
  requirementId : Text
  appliesWhen : Predicate
  requiredClaimTypes : List Text
  minimumGrade : Grade
  freshnessThresholdDays : Option Text
  requiredAttestations : List AttestationType
  blockingConflictTypes : List Text
  notEvaluableWhen : Predicate
  watchWhen : Option Predicate

structure RuleSet where
  ruleSetId : Text
  version : Text
  requirements : List Requirement

/-- A rule set as `ruleSetSchema` lets it through: its `superRefine` refuses a requirement whose
id was seen before. -/
structure ParsedRuleSet extends RuleSet where
  distinct : (requirements.map Requirement.requirementId).Nodup

structure RequirementFacts where
  presentClaimTypes : List Text
  grade : Option Grade
  presentAttestations : List AttestationType
  evidenceAgeDays : Option Text
  unresolvedConflictTypes : List Text
  staleEvidence : List Text
  context : Facts

structure AssessmentInput where
  subjectId : Text
  gateId : Text
  inputSnapshotHash : Text
  evaluatedAsOf : Text
  requirementFacts : Text → Option RequirementFacts

inductive RequirementReasonCode where
  | requirementSatisfied | requirementNotApplicable | missingRequiredClaimType
  | gradeBelowMinimum | missingRequiredAttestation | evidenceStale | blockingConflict
  | noEvaluationBasis | factsNotSupplied | watchConditionMet
  deriving DecidableEq, Repr

structure RequirementResult where
  requirementId : Text
  status : ReadinessStatus
  applicable : Bool
  reasonCode : RequirementReasonCode
  missing : List Text
  deriving DecidableEq, Repr

structure Assessment where
  subjectId : Text
  gateId : Text
  ruleSetId : Text
  ruleSetVersion : Text
  inputSnapshotHash : Text
  evaluatedAsOf : Text
  status : ReadinessStatus
  requirementResults : List RequirementResult
  deriving DecidableEq, Repr

/-- `[...].sort()` -/
def sortTexts (texts : List Text) : List Text := texts.insertionSort (· ≤ ·)

/-- `[...new Set(texts)]` -/
def distinct (texts : List Text) : List Text := texts.foldl setAdd []

def absentFacts (predicate : Predicate) (context : Facts) : List Text :=
  sortTexts (predicate.paths.filter fun path => context path = none)

def factText (path : Text) : Text := units "fact:" ++ path

def notEvaluableFor (requirementId : Text) (paths : List Text) : RequirementResult where
  requirementId
  status := .notEvaluable
  applicable := true
  reasonCode := .noEvaluationBasis
  missing := (sortTexts (distinct paths)).map factText

/-- A result of status `gap`: the requirement applies and lacks something. -/
def gapResult (requirementId : Text) (reasonCode : RequirementReasonCode) (missing : List Text) :
    RequirementResult where
  requirementId
  status := .gap
  applicable := true
  reasonCode
  missing

def hasMinimumGrade (facts : RequirementFacts) (requirement : Requirement) : Bool :=
  facts.grade.any fun grade => gradeAtLeast grade requirement.minimumGrade

def evaluateFreshness (requirement : Requirement) (facts : RequirementFacts) :
    Except Thrown (Option RequirementResult) :=
  match requirement.freshnessThresholdDays with
  | none => .ok none
  | some threshold =>
    match facts.evidenceAgeDays with
    | none => .ok (some {
        requirementId := requirement.requirementId
        status := .notEvaluable
        applicable := true
        reasonCode := .noEvaluationBasis
        missing := [units "evidence_age"] })
    | some age => do
      let age ← bigInt age
      let limit ← bigInt threshold
      if limit < age then
        .ok (some (gapResult requirement.requirementId .evidenceStale
          [units "max_age_days:" ++ threshold]))
      else .ok none

/-- From the claim types to the blocking conflicts; `none` when nothing is lacking. -/
def evaluateEvidence (requirement : Requirement) (facts : RequirementFacts) :
    Except Thrown (Option RequirementResult) := do
  let gap := gapResult requirement.requirementId
  let missingClaimTypes :=
    requirement.requiredClaimTypes.filter fun claimType => claimType ∉ facts.presentClaimTypes
  if missingClaimTypes ≠ [] then
    return some (gap .missingRequiredClaimType missingClaimTypes)
  let staleClaimTypes :=
    facts.staleEvidence.filter fun claimType => claimType ∈ requirement.requiredClaimTypes
  if staleClaimTypes ≠ [] then
    return some (gap .evidenceStale
      ((sortTexts (distinct staleClaimTypes)).map fun claimType => units "stale:" ++ claimType))
  if !hasMinimumGrade facts requirement then
    return some (gap .gradeBelowMinimum [requirement.minimumGrade.text])
  let missingAttestations := requirement.requiredAttestations.filter fun attestation =>
    attestation ∉ facts.presentAttestations
  if missingAttestations ≠ [] then
    return some (gap .missingRequiredAttestation (missingAttestations.map (·.text)))
  if let some result ← evaluateFreshness requirement facts then
    return some result
  let blockingConflicts := facts.unresolvedConflictTypes.filter fun conflict =>
    conflict ∈ requirement.blockingConflictTypes
  if blockingConflicts ≠ [] then
    return some (gap .blockingConflict blockingConflicts)
  return none

/-- Absent facts of `notEvaluableWhen`, then of `watchWhen`. -/
def unknownBasis (requirement : Requirement) (context : Facts) : List Text :=
  absentFacts requirement.notEvaluableWhen context ++
    requirement.watchWhen.elim [] fun watchWhen => absentFacts watchWhen context

def evaluateWatch (requirement : Requirement) (context : Facts) : Except Thrown Bool :=
  requirement.watchWhen.elim (.ok false) (evaluatePredicate context)

def notApplicable (requirementId : Text) : RequirementResult where
  requirementId
  status := .ok
  applicable := false
  reasonCode := .requirementNotApplicable
  missing := []

/-- The result of a requirement whose evidence lacks nothing. -/
def satisfied (requirementId : Text) (watched : Bool) : RequirementResult where
  requirementId
  status := if watched then .watch else .ok
  applicable := true
  reasonCode := if watched then .watchConditionMet else .requirementSatisfied
  missing := []

/-- A requirement that applies and has a basis. -/
def evaluateApplicable (requirement : Requirement) (facts : RequirementFacts) :
    Except Thrown RequirementResult := do
  if ← evaluatePredicate facts.context requirement.notEvaluableWhen then
    return notEvaluableFor requirement.requirementId requirement.notEvaluableWhen.paths
  if let some result ← evaluateEvidence requirement facts then
    return result
  let watched ← evaluateWatch requirement facts.context
  return satisfied requirement.requirementId watched

def evaluateFacts (requirement : Requirement) (facts : RequirementFacts) :
    Except Thrown RequirementResult := do
  let unknownApplicability := absentFacts requirement.appliesWhen facts.context
  if unknownApplicability ≠ [] then
    return notEvaluableFor requirement.requirementId unknownApplicability
  if !(← evaluatePredicate facts.context requirement.appliesWhen) then
    return notApplicable requirement.requirementId
  if unknownBasis requirement facts.context ≠ [] then
    return notEvaluableFor requirement.requirementId (unknownBasis requirement facts.context)
  evaluateApplicable requirement facts

def evaluateRequirement (requirement : Requirement) (facts : Option RequirementFacts) :
    Except Thrown RequirementResult :=
  match facts with
  | none => .ok {
      requirementId := requirement.requirementId
      status := .notEvaluable
      applicable := true
      reasonCode := .factsNotSupplied
      missing := [units "requirement_facts"] }
  | some facts => evaluateFacts requirement facts

def applicableStatuses (results : List RequirementResult) : List ReadinessStatus :=
  (results.filter (·.applicable)).map (·.status)

def evaluateAssessment (ruleSet : RuleSet) (input : AssessmentInput) : Except Thrown Assessment := do
  let requirementResults ← ruleSet.requirements.mapM fun requirement =>
    evaluateRequirement requirement (input.requirementFacts requirement.requirementId)
  return {
    subjectId := input.subjectId
    gateId := input.gateId
    ruleSetId := ruleSet.ruleSetId
    ruleSetVersion := ruleSet.version
    inputSnapshotHash := input.inputSnapshotHash
    evaluatedAsOf := input.evaluatedAsOf
    status := aggregateReadiness (applicableStatuses requirementResults)
    requirementResults }

/-! ## What each part comes to -/

variable {requirement : Requirement} {facts : RequirementFacts} {result : RequirementResult}

/-- A result that stops at the evidence: it applies, and no go may rest on it. -/
structure Blocks (result : RequirementResult) : Prop where
  applicable : result.applicable = true
  blocking : isGoBlocking result.status = true

theorem blocks_gapResult (requirementId : Text) (reasonCode : RequirementReasonCode)
    (missing : List Text) : Blocks (gapResult requirementId reasonCode missing) := ⟨rfl, rfl⟩

theorem evaluateFreshness_blocks (h : evaluateFreshness requirement facts = .ok (some result)) :
    Blocks result := by
  unfold evaluateFreshness at h
  split at h
  · cases h
  · split at h
    · cases h
      exact ⟨rfl, rfl⟩
    · obtain ⟨age, -, h⟩ := bind_ok.mp h
      obtain ⟨limit, -, h⟩ := bind_ok.mp h
      split at h
      · cases h
        exact blocks_gapResult _ _ _
      · cases h

section Cascade

variable {p : Prop} [Decidable p] {exit : RequirementResult}
  {rest : Except Thrown (Option RequirementResult)}

/-- One exit of the cascade: it was taken, or the rest decides. -/
theorem blocks_of_exit (hexit : Blocks exit)
    (hrest : rest = .ok (some result) → Blocks result)
    (h : (if p then .ok (some exit) else rest) = .ok (some result)) : Blocks result := by
  split at h
  · cases h
    exact hexit
  · exact hrest h

theorem passes_iff : (if p then .ok (some exit) else rest) = .ok none ↔ ¬ p ∧ rest = .ok none := by
  split <;> simp [*]

end Cascade

/-- Every exit of the evidence cascade but the last one blocks. -/
theorem evaluateEvidence_blocks (h : evaluateEvidence requirement facts = .ok (some result)) :
    Blocks result := by
  simp only [evaluateEvidence, pure, Except.pure] at h
  refine blocks_of_exit (blocks_gapResult _ _ _) (fun h => ?_) h
  refine blocks_of_exit (blocks_gapResult _ _ _) (fun h => ?_) h
  refine blocks_of_exit (blocks_gapResult _ _ _) (fun h => ?_) h
  refine blocks_of_exit (blocks_gapResult _ _ _) (fun h => ?_) h
  obtain ⟨freshness, hfreshness, h⟩ := bind_ok.mp h
  cases freshness with
  | some stale =>
    cases h
    exact evaluateFreshness_blocks hfreshness
  | none => exact blocks_of_exit (blocks_gapResult _ _ _) (fun h => by cases h) h

theorem evaluateApplicable_applicable (h : evaluateApplicable requirement facts = .ok result) :
    result.applicable = true := by
  unfold evaluateApplicable at h
  obtain ⟨notEvaluable, -, h⟩ := bind_ok.mp h
  split at h
  · cases h
    rfl
  · obtain ⟨blocker, hevidence, h⟩ := bind_ok.mp h
    cases blocker with
    | some blocked =>
      cases h
      exact (evaluateEvidence_blocks hevidence).applicable
    | none =>
      obtain ⟨watched, -, h⟩ := bind_ok.mp h
      cases h
      rfl

/-- The only result left out of the aggregation is the one that says so. -/
theorem eq_notApplicable (h : evaluateRequirement requirement (some facts) = .ok result)
    (hinapplicable : result.applicable = false) :
    result = notApplicable requirement.requirementId := by
  have hfalse : ∀ {other : RequirementResult}, other.applicable = true →
      Except.ok (ε := Thrown) other = .ok result → False := by
    rintro other happlicable heq
    cases heq
    rw [happlicable] at hinapplicable
    cases hinapplicable
  change evaluateFacts requirement facts = .ok result at h
  unfold evaluateFacts at h
  simp only [pure, Except.pure] at h
  split at h
  · exact (hfalse rfl h).elim
  · obtain ⟨applies, -, h⟩ := bind_ok.mp h
    split at h
    · exact (Except.ok.inj h).symm
    · split at h
      · exact (hfalse rfl h).elim
      · exact (hfalse (evaluateApplicable_applicable h) rfl).elim

/-! ## A result names its requirement -/

theorem evaluateFreshness_id (h : evaluateFreshness requirement facts = .ok (some result)) :
    result.requirementId = requirement.requirementId := by
  unfold evaluateFreshness at h
  split at h
  · cases h
  · split at h
    · cases h
      rfl
    · obtain ⟨age, -, h⟩ := bind_ok.mp h
      obtain ⟨limit, -, h⟩ := bind_ok.mp h
      split at h
      · cases h
        rfl
      · cases h

theorem evaluateEvidence_id (h : evaluateEvidence requirement facts = .ok (some result)) :
    result.requirementId = requirement.requirementId := by
  simp only [evaluateEvidence, pure, Except.pure] at h
  repeat
    split at h
    · cases h
      rfl
  obtain ⟨freshness, hfreshness, h⟩ := bind_ok.mp h
  cases freshness with
  | some stale =>
    cases h
    exact evaluateFreshness_id hfreshness
  | none =>
    simp only at h
    split at h
    · cases h
      rfl
    · cases h

theorem evaluateApplicable_id (h : evaluateApplicable requirement facts = .ok result) :
    result.requirementId = requirement.requirementId := by
  unfold evaluateApplicable at h
  obtain ⟨notEvaluable, -, h⟩ := bind_ok.mp h
  split at h
  · cases h
    rfl
  · obtain ⟨blocker, hevidence, h⟩ := bind_ok.mp h
    cases blocker with
    | some blocked =>
      cases h
      exact evaluateEvidence_id hevidence
    | none =>
      obtain ⟨watched, -, h⟩ := bind_ok.mp h
      cases h
      rfl

theorem evaluateRequirement_id {facts : Option RequirementFacts}
    (h : evaluateRequirement requirement facts = .ok result) :
    result.requirementId = requirement.requirementId := by
  cases facts with
  | none =>
    cases h
    rfl
  | some facts =>
    change evaluateFacts requirement facts = .ok result at h
    unfold evaluateFacts at h
    simp only [pure, Except.pure] at h
    split at h
    · cases h
      rfl
    · obtain ⟨applies, -, h⟩ := bind_ok.mp h
      split at h
      · cases h
        rfl
      · split at h
        · cases h
          rfl
        · exact evaluateApplicable_id h

end MpcRegistry.Policy
