import MpcRegistry.Policy.RecordedFacts

/-!
# Gate decisions over the API

Source: apps/api/src/routes/readiness.ts:99-174, 427-440 and
packages/policy/src/explain.ts:13-121.
-/
namespace MpcRegistry.Policy
open Library Library.Outcome

/-! ## Explanations -/

structure RequirementExplanation where
  cause : Text
  neededEvidence : List Text
  nextAction : Option Text
  deriving DecidableEq, Repr

/-- The values that start with `start`, without it. -/
def strip (start : Text) (values : List Text) : List Text :=
  (values.filter fun value => start.isPrefixOf value).map fun value => value.drop start.length

def join (values : List Text) : Text := (units ", ").intercalate values

def explainRequirementResult (result : RequirementResult) : RequirementExplanation :=
  match result.reasonCode with
  | .requirementSatisfied =>
    { cause := units "The requirement is met", neededEvidence := [], nextAction := none }
  | .requirementNotApplicable =>
    { cause := units "The requirement does not apply to this project"
      neededEvidence := [], nextAction := none }
  | .missingRequiredClaimType =>
    { cause := units "Required claims are missing: " ++ join result.missing
      neededEvidence := result.missing
      nextAction := some (units
        "Record the missing claims against a source receipt, then recompute readiness") }
  | .gradeBelowMinimum =>
    { cause := units "The weakest claim this requirement uses is below grade " ++
        join result.missing
      neededEvidence := result.missing.map fun grade => units "claims graded at least " ++ grade
      nextAction := some (units
        "Raise the weakest claim through source confirmation or review, or resolve what lowered it") }
  | .missingRequiredAttestation =>
    { cause := units "Required attestations are missing or no longer valid: " ++
        join result.missing
      neededEvidence := result.missing
      nextAction := some (units
        "Assign a qualified reviewer and have the attestation signed over these claims") }
  | .evidenceStale =>
    let stale := strip (units "stale:") result.missing
    let maxAge := strip (units "max_age_days:") result.missing
    if 0 < stale.length then
      { cause := units "Evidence under these claims has gone stale: " ++ join stale
        neededEvidence := stale.map fun claimType => units "current evidence for " ++ claimType
        nextAction := some (units
          "Collect a new source receipt for these claims and have them reviewed again") }
    else
      { cause := units "Evidence is older than the rule allows (" ++ join maxAge ++ units " days)"
        neededEvidence := maxAge.map fun days =>
          units "evidence dated within " ++ days ++ units " days"
        nextAction := some (units
          "Collect a newer source receipt within the rule's age limit") }
  | .blockingConflict =>
    { cause := units "Unresolved conflicts block this requirement: " ++ join result.missing
      neededEvidence := result.missing.map fun conflict => units "resolution of " ++ conflict
      nextAction := some (units
        "Resolve the conflicting claims with evidence, then recompute readiness") }
  | .noEvaluationBasis =>
    let facts := strip (units "fact:") result.missing
    if 0 < facts.length then
      { cause := units "No recorded basis to judge this requirement: " ++ join facts
        neededEvidence := facts
        nextAction := some (units "Record these facts for the project or its jurisdiction profile, then recompute readiness — no default is assumed") }
    else
      { cause := units "The age of the evidence is unknown, so freshness cannot be judged"
        neededEvidence := [units "as-of date on the claims this requirement uses"]
        nextAction := some (units "Record the as-of date of the evidence on each claim, then recompute readiness") }
  | .factsNotSupplied =>
    { cause := units "The assessment received no facts for this requirement"
      neededEvidence := [units "requirement facts"]
      nextAction := some (units
        "Recompute readiness; if it repeats, the input collection needs fixing") }
  | .watchConditionMet =>
    { cause := units "The requirement is met but a watch condition holds"
      neededEvidence := []
      nextAction := some (units
        "Going ahead needs a rationale and at least one condition to monitor") }

/-! ## The decision route -/

/-- A row of `core.compliance_assessments`. -/
structure AssessmentRow where
  id : Text
  projectId : Text
  gateId : Text
  status : ReadinessStatus
  requirementResults : List RequirementResult
  inputSnapshotHash : Text
  deriving DecidableEq, Repr

/-- The row the assessment route inserts. -/
def storeAssessment (id projectId : Text) (assessment : Assessment) : AssessmentRow where
  id
  projectId
  gateId := assessment.gateId
  status := assessment.status
  requirementResults := assessment.requirementResults
  inputSnapshotHash := assessment.inputSnapshotHash

structure DecisionContent where
  gateId : Text
  decision : GateDecisionValue
  inputAssessmentId : Text
  rationale : Text
  conditions : List Text
  deriving DecidableEq, Repr

structure DecisionBasis where
  id : Text
  status : ReadinessStatus
  inputSnapshotHash : Text
  deriving DecidableEq, Repr

structure BlockingRequirement where
  index : Nat
  requirementId : Text
  status : ReadinessStatus
  reasonCode : RequirementReasonCode
  explanation : RequirementExplanation
  deriving DecidableEq, Repr

inductive ApiError where
  | notFound (message : Text)
  | gateAssessmentMismatch (message assessmentGateId gateId : Text)
  | denied (reason : GateDenyReason) (message : Text) (blockingRequirementIndexes : List Nat)
      (blockingRequirements : List BlockingRequirement) (assessmentStatus : ReadinessStatus)
  deriving DecidableEq, Repr

def blockingRequirement (applicable : List RequirementResult) (index : Nat) :
    Option BlockingRequirement :=
  applicable[index]?.map fun result =>
    { index
      requirementId := result.requirementId
      status := result.status
      reasonCode := result.reasonCode
      explanation := explainRequirementResult result }

def decisionRequest (content : DecisionContent) (results : List RequirementResult) :
    GateDecisionRequest where
  decision := content.decision
  requirementStatuses := applicableStatuses results
  hasAssessment := true
  rationale := some content.rationale
  conditions := some content.conditions

def loadDecisionBasis (rows : List AssessmentRow) (projectId : Text) (content : DecisionContent) :
    Except ApiError DecisionBasis :=
  match rows.find? fun row => row.id = content.inputAssessmentId ∧ row.projectId = projectId with
  | none => .error (.notFound (units "Input assessment not found"))
  | some assessment =>
    if assessment.gateId ≠ content.gateId then
      .error (.gateAssessmentMismatch (units "The assessment was made for a different gate")
        assessment.gateId content.gateId)
    else
      match checkGateDecision (decisionRequest content assessment.requirementResults) with
      | .denied reason indexes =>
        let applicable := assessment.requirementResults.filter (·.applicable)
        .error (.denied reason (units "That decision cannot be recorded at this readiness") indexes
          (indexes.filterMap (blockingRequirement applicable)) assessment.status)
      | .allowed => .ok {
          id := assessment.id
          status := assessment.status
          inputSnapshotHash := assessment.inputSnapshotHash }

/-! ## Which requirements are counted -/

/-- The requirement is counted unless recorded facts say that it does not apply. -/
def Counted (requirement : Requirement) (facts : Option RequirementFacts) : Prop :=
  ∀ recorded, facts = some recorded →
    Recorded requirement.appliesWhen recorded.context →
    evaluatePredicate recorded.context requirement.appliesWhen = .ok true

theorem evaluateFacts_applicable_iff {requirement : Requirement} {facts : RequirementFacts}
    {result : RequirementResult} (h : evaluateFacts requirement facts = .ok result) :
    result.applicable = true ↔ Counted requirement (some facts) := by
  by_cases hrecorded : Recorded requirement.appliesWhen facts.context
  · have hcounted : Counted requirement (some facts) ↔
        evaluatePredicate facts.context requirement.appliesWhen = .ok true := by
      simp [Counted, hrecorded]
    rw [evaluateFacts_of_recorded hrecorded] at h
    obtain ⟨applies, hpredicate, h⟩ := bind_ok.mp h
    rw [hcounted, hpredicate]
    cases applies with
    | false =>
      cases h
      simp [notApplicable]
    | true =>
      have happlicable : result.applicable = true := by
        split at h
        · simp_all
        · split at h
          · cases h
            rfl
          · exact evaluateApplicable_applicable h
      simp [happlicable]
  · rw [evaluateFacts_of_absent hrecorded] at h
    cases h
    simp [Counted, hrecorded, notEvaluableFor]

theorem evaluateRequirement_applicable_iff {requirement : Requirement}
    {facts : Option RequirementFacts} {result : RequirementResult}
    (h : evaluateRequirement requirement facts = .ok result) :
    result.applicable = true ↔ Counted requirement facts := by
  cases facts with
  | none =>
    cases h
    simp [Counted]
  | some facts => exact evaluateFacts_applicable_iff h

/-- Some requirement of the rule set is counted. -/
def AnyCounted (ruleSet : RuleSet) (input : AssessmentInput) : Prop :=
  ∃ requirement ∈ ruleSet.requirements,
    Counted requirement (input.requirementFacts requirement.requirementId)

theorem applicableStatuses_ne_nil_iff {ruleSet : RuleSet} {input : AssessmentInput}
    {assessment : Assessment} (h : evaluateAssessment ruleSet input = .ok assessment) :
    applicableStatuses assessment.requirementResults ≠ [] ↔ AnyCounted ruleSet input := by
  obtain ⟨results, hresults, h⟩ := bind_ok.mp h
  cases h
  have happlicable : applicableStatuses results ≠ [] ↔
      ∃ result ∈ results, result.applicable = true := by
    simp [applicableStatuses, List.filter_eq_nil_iff]
  rw [happlicable]
  exact exists_iff_of_mapM_ok hresults fun requirement result =>
    evaluateRequirement_applicable_iff

/-! ## Readiness and the go decision -/

/-- A go on these requirement results only passes with the overall status it needs. -/
def GoNeeds (overall : ReadinessStatus) (results : List RequirementResult) : Prop :=
  ∀ rationale conditions, checkGateDecision {
      decision := .go
      requirementStatuses := applicableStatuses results
      hasAssessment := true
      rationale, conditions } = .allowed →
    GoSupported overall rationale (conditions.getD [])

theorem assessment_status {ruleSet : RuleSet} {input : AssessmentInput} {assessment : Assessment}
    (h : evaluateAssessment ruleSet input = .ok assessment) :
    assessment.status = aggregateReadiness (applicableStatuses assessment.requirementResults) := by
  obtain ⟨results, -, heq⟩ := bind_ok.mp h
  cases heq
  rfl

theorem goNeeds_iff {ruleSet : RuleSet} {input : AssessmentInput} {assessment : Assessment}
    (h : evaluateAssessment ruleSet input = .ok assessment) :
    GoNeeds assessment.status assessment.requirementResults ↔ AnyCounted ruleSet input := by
  rw [← applicableStatuses_ne_nil_iff h]
  rw [assessment_status h]
  constructor
  · intro hneeds hnone
    have hallowed := hneeds none none (allowed_of_no_requirement rfl hnone)
    rw [hnone] at hallowed
    exact not_goSupported_nil _ _ hallowed
  · exact fun hsome rationale conditions => goSupported_of_allowed rfl rfl hsome

/-- The route accepts the decision on the stored assessment. -/
def Accepts (rows : List AssessmentRow) (projectId : Text) (content : DecisionContent) : Prop :=
  ∃ basis, loadDecisionBasis rows projectId content = .ok basis

theorem accepts_iff {rows : List AssessmentRow} {projectId : Text} {content : DecisionContent}
    {row : AssessmentRow}
    (hrow : rows.find? (fun row => row.id = content.inputAssessmentId ∧ row.projectId = projectId) =
      some row) :
    Accepts rows projectId content ↔ row.gateId = content.gateId ∧
      checkGateDecision (decisionRequest content row.requirementResults) = .allowed := by
  unfold Accepts loadDecisionBasis
  rw [hrow]
  by_cases hgate : row.gateId = content.gateId
  · cases hcheck : checkGateDecision (decisionRequest content row.requirementResults) with
    | allowed => simp [hgate, hcheck]
    | denied reason indexes => simp [hgate, hcheck]
  · simp [hgate]

theorem go_supported_iff {ruleSet : RuleSet} {input : AssessmentInput} {assessment : Assessment}
    {rows : List AssessmentRow} {id projectId : Text} {content : DecisionContent}
    (heval : evaluateAssessment ruleSet input = .ok assessment)
    (hrow : rows.find? (fun row => row.id = content.inputAssessmentId ∧ row.projectId = projectId) =
      some (storeAssessment id projectId assessment))
    (hgo : content.decision = .go) :
    ((Accepts rows projectId content →
        GoSupported assessment.status (some content.rationale) content.conditions) ↔
      assessment.gateId ≠ content.gateId ∨ AnyCounted ruleSet input) ∧
    (GoNeeds assessment.status assessment.requirementResults ↔ AnyCounted ruleSet input) := by
  refine ⟨?_, goNeeds_iff heval⟩
  have haccepts := accepts_iff hrow
  simp only [storeAssessment] at haccepts
  rw [haccepts]
  constructor
  · intro h
    by_contra hnot
    rw [not_or, not_not, ← applicableStatuses_ne_nil_iff heval, not_not] at hnot
    have hsupported := h ⟨hnot.1, allowed_of_no_requirement rfl hnot.2⟩
    rw [assessment_status heval, hnot.2] at hsupported
    exact not_goSupported_nil _ _ hsupported
  · rintro (hgate | hcounted) ⟨hsame, hallowed⟩
    · exact absurd hsame hgate
    · rw [assessment_status heval]
      have hsome := (applicableStatuses_ne_nil_iff heval).mpr hcounted
      exact goSupported_of_allowed hgo rfl hsome hallowed

section Witness

/-- One requirement, for projects in an offering. -/
def offeringRules : RuleSet where
  ruleSetId := units "offering"
  version := units "1.0.0"
  requirements := [{
    requirementId := units "disclosure"
    appliesWhen := .eq (units "offeringIntent") (units "true")
    requiredClaimTypes := [units "disclosure"]
    minimumGrade := .verified
    freshnessThresholdDays := none
    requiredAttestations := []
    blockingConflictTypes := []
    notEvaluableWhen := .never
    watchWhen := none }]

/-- A project without evidence, whose offering intent is recorded as `intent`. -/
def offeringInput (intent : Text) : AssessmentInput where
  subjectId := units "p1"
  gateId := units "offering_activation"
  inputSnapshotHash := units "0x01"
  evaluatedAsOf := units "2026-01-01T00:00:00.000Z"
  requirementFacts _ := some {
    presentClaimTypes := []
    grade := none
    presentAttestations := []
    evidenceAgeDays := none
    unresolvedConflictTypes := []
    staleEvidence := []
    context := fun path =>
      if path = units "offeringIntent" then some (.scalar intent) else none }

def offeringAssessment (status : ReadinessStatus) (result : RequirementResult) : Assessment where
  subjectId := units "p1"
  gateId := units "offering_activation"
  ruleSetId := units "offering"
  ruleSetVersion := units "1.0.0"
  inputSnapshotHash := units "0x01"
  evaluatedAsOf := units "2026-01-01T00:00:00.000Z"
  status
  requirementResults := [result]

def offeringGo : DecisionContent where
  gateId := units "offering_activation"
  decision := .go
  inputAssessmentId := units "a1"
  rationale := units "No offering"
  conditions := []

/-- With the intent recorded as `true` the disclosure is missing. -/
def gapAssessment : Assessment :=
  offeringAssessment .gap
    (gapResult (units "disclosure") .missingRequiredClaimType [units "disclosure"])

def gapRows : List AssessmentRow := [storeAssessment (units "a1") (units "p1") gapAssessment]

theorem go_supported_iff_offering :
    (Accepts gapRows (units "p1") offeringGo →
        GoSupported .gap (some offeringGo.rationale) offeringGo.conditions) ∧
      GoNeeds .gap gapAssessment.requirementResults := by
  have heval : evaluateAssessment offeringRules (offeringInput (units "true")) =
      .ok gapAssessment := rfl
  have hrow : gapRows.find? (fun row => row.id = offeringGo.inputAssessmentId ∧
      row.projectId = units "p1") = some (storeAssessment (units "a1") (units "p1") gapAssessment) :=
    rfl
  have hcounted : AnyCounted offeringRules (offeringInput (units "true")) := by
    refine ⟨_, List.mem_singleton_self _, fun recorded hrecorded _ => ?_⟩
    cases hrecorded
    rfl
  obtain ⟨hgo, hneeds⟩ := go_supported_iff heval hrow rfl
  exact ⟨hgo.mpr (.inr hcounted), hneeds.mpr hcounted⟩

theorem go_accepted_on_not_evaluable :
    ∃ assessment,
      evaluateAssessment offeringRules (offeringInput (units "false")) = .ok assessment ∧
      assessment.status = .notEvaluable ∧
      Accepts [storeAssessment (units "a1") (units "p1") assessment] (units "p1") offeringGo := by
  refine ⟨offeringAssessment .notEvaluable (notApplicable (units "disclosure")), rfl, rfl, ?_⟩
  exact ⟨_, rfl⟩

end Witness

end MpcRegistry.Policy
