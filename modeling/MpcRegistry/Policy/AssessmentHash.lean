import MpcRegistry.Canonical.JcsRoundTrip
import MpcRegistry.Canonical.Hash
import MpcRegistry.Policy.BetterEvidence

/-!
# The hash of an assessment

Source: packages/policy/src/engine.ts:300-330. The hash does not see the order in which a rule
set lists its requirements and they their conditions, nor the order of a fact that is a list.
-/
namespace MpcRegistry.Policy
open Library Library.Outcome
open Canonical (JsValue CanonicalValue Bytes Digest canonicalBytes keccak256)

def ReadinessStatus.text : ReadinessStatus → Text
  | .ok => units "ok"
  | .watch => units "watch"
  | .gap => units "gap"
  | .notEvaluable => units "not_evaluable"

def RequirementReasonCode.text : RequirementReasonCode → Text
  | .requirementSatisfied => units "REQUIREMENT_SATISFIED"
  | .requirementNotApplicable => units "REQUIREMENT_NOT_APPLICABLE"
  | .missingRequiredClaimType => units "MISSING_REQUIRED_CLAIM_TYPE"
  | .gradeBelowMinimum => units "GRADE_BELOW_MINIMUM"
  | .missingRequiredAttestation => units "MISSING_REQUIRED_ATTESTATION"
  | .evidenceStale => units "EVIDENCE_STALE"
  | .blockingConflict => units "BLOCKING_CONFLICT"
  | .noEvaluationBasis => units "NO_EVALUATION_BASIS"
  | .factsNotSupplied => units "FACTS_NOT_SUPPLIED"
  | .watchConditionMet => units "WATCH_CONDITION_MET"

/-- An element of `requirementResults`; siblings may share their identity, as none is above
another. -/
def RequirementResult.toCanonical (result : RequirementResult) : JsValue :=
  .object 2 true [
    (units "requirementId", .str result.requirementId),
    (units "status", .str result.status.text),
    (units "applicable", .bool result.applicable),
    (units "reasonCode", .str result.reasonCode.text),
    (units "missing", .array 3 ((sortTexts result.missing).map .str))]

/-- The sort by requirement id, which is stable. -/
def sortResults (results : List RequirementResult) : List RequirementResult :=
  results.insertionSort fun a b => a.requirementId ≤ b.requirementId

theorem RequirementResult.isCanonical (result : RequirementResult) :
    Canonical.IsCanonical [1, 0] result.toCanonical := by
  refine .object _ _ _ (by simp) (by simp only [List.map]; decide) fun member hmember => ?_
  simp only [List.mem_cons, List.not_mem_nil, or_false] at hmember
  rcases hmember with rfl | rfl | rfl | rfl | rfl
  · exact .str _ _
  · exact .str _ _
  · exact .bool _ _
  · exact .str _ _
  · refine .array _ _ _ (by simp) fun item hitem => ?_
    obtain ⟨text, -, rfl⟩ := List.mem_map.mp hitem
    exact .str _ _

def Assessment.toCanonical (assessment : Assessment) : CanonicalValue where
  value := .object 0 true [
    (units "subjectId", .str assessment.subjectId),
    (units "gateId", .str assessment.gateId),
    (units "ruleSetId", .str assessment.ruleSetId),
    (units "ruleSetVersion", .str assessment.ruleSetVersion),
    (units "inputSnapshotHash", .str assessment.inputSnapshotHash),
    (units "evaluatedAsOf", .str assessment.evaluatedAsOf),
    (units "status", .str assessment.status.text),
    (units "requirementResults",
      .array 1 ((sortResults assessment.requirementResults).map RequirementResult.toCanonical))]
  canonical := by
    refine .object _ _ _ (by simp) (by simp only [List.map]; decide) fun member hmember => ?_
    simp only [List.mem_cons, List.not_mem_nil, or_false] at hmember
    rcases hmember with rfl | rfl | rfl | rfl | rfl | rfl | rfl | rfl
    iterate 7 exact .str _ _
    refine .array _ _ _ (by simp) fun item hitem => ?_
    obtain ⟨result, -, rfl⟩ := List.mem_map.mp hitem
    exact result.isCanonical

def assessmentHash (keccak_256 : Bytes → Digest) (assessment : Assessment) :
    Except Canonical.Thrown Text := do
  let bytes ← canonicalBytes assessment.toCanonical
  .ok (keccak256 keccak_256 bytes)

/-! ## Another order -/

/-- Operands of `and` and `or` permuted, at any depth. -/
inductive Predicate.Reordered : Predicate → Predicate → Prop where
  | refl (p : Predicate) : Reordered p p
  | trans {p q r : Predicate} : Reordered p q → Reordered q r → Reordered p r
  | and {operands operands' : List Predicate} :
      operands.Perm operands' → Reordered (.and operands) (.and operands')
  | or {operands operands' : List Predicate} :
      operands.Perm operands' → Reordered (.or operands) (.or operands')
  | not {p q : Predicate} : Reordered p q → Reordered (.not p) (.not q)
  | inAnd {p q : Predicate} (before after : List Predicate) : Reordered p q →
      Reordered (.and (before ++ p :: after)) (.and (before ++ q :: after))
  | inOr {p q : Predicate} (before after : List Predicate) : Reordered p q →
      Reordered (.or (before ++ p :: after)) (.or (before ++ q :: after))

structure Requirement.Reordered (requirement requirement' : Requirement) : Prop where
  requirementId : requirement.requirementId = requirement'.requirementId
  appliesWhen : requirement.appliesWhen.Reordered requirement'.appliesWhen
  requiredClaimTypes : requirement.requiredClaimTypes.Perm requirement'.requiredClaimTypes
  minimumGrade : requirement.minimumGrade = requirement'.minimumGrade
  freshnessThresholdDays :
    requirement.freshnessThresholdDays = requirement'.freshnessThresholdDays
  requiredAttestations : requirement.requiredAttestations.Perm requirement'.requiredAttestations
  blockingConflictTypes :
    requirement.blockingConflictTypes.Perm requirement'.blockingConflictTypes
  notEvaluableWhen : requirement.notEvaluableWhen.Reordered requirement'.notEvaluableWhen
  watchWhen : Option.Rel Predicate.Reordered requirement.watchWhen requirement'.watchWhen

structure RuleSet.Reordered (ruleSet ruleSet' : RuleSet) : Prop where
  ruleSetId : ruleSet.ruleSetId = ruleSet'.ruleSetId
  version : ruleSet.version = ruleSet'.version
  requirements : ∃ permuted, ruleSet.requirements.Perm permuted ∧
    List.Forall₂ Requirement.Reordered permuted ruleSet'.requirements

inductive FactValue.Reordered : FactValue → FactValue → Prop where
  | scalar (value : Text) : Reordered (.scalar value) (.scalar value)
  | array {items items' : List Text} : items.Perm items' → Reordered (.array items) (.array items')

structure RequirementFacts.Reordered (facts facts' : RequirementFacts) : Prop where
  presentClaimTypes : facts.presentClaimTypes.Perm facts'.presentClaimTypes
  grade : facts.grade = facts'.grade
  presentAttestations : facts.presentAttestations.Perm facts'.presentAttestations
  evidenceAgeDays : facts.evidenceAgeDays = facts'.evidenceAgeDays
  unresolvedConflictTypes : facts.unresolvedConflictTypes.Perm facts'.unresolvedConflictTypes
  staleEvidence : facts.staleEvidence.Perm facts'.staleEvidence
  context : ∀ path, Option.Rel FactValue.Reordered (facts.context path) (facts'.context path)

structure AssessmentInput.Reordered (input input' : AssessmentInput) : Prop where
  subjectId : input.subjectId = input'.subjectId
  gateId : input.gateId = input'.gateId
  inputSnapshotHash : input.inputSnapshotHash = input'.inputSnapshotHash
  evaluatedAsOf : input.evaluatedAsOf = input'.evaluatedAsOf
  requirementFacts : ∀ requirementId, Option.Rel RequirementFacts.Reordered
    (input.requirementFacts requirementId) (input'.requirementFacts requirementId)

/-! ## Predicates in another order -/

/-- The value of a comparison; one that throws counts as false. -/
def holds (outcome : Except Thrown Bool) : Bool := outcome.toOption.getD false

mutual

/-- What an evaluation comes to unless it throws. No operand is skipped. -/
def truth (facts : Facts) : Predicate → Bool
  | .always => true
  | .never => false
  | .and operands => allTrue facts operands
  | .or operands => anyTrue facts operands
  | .not operand => !truth facts operand
  | .eq path value => holds (evaluatePredicate facts (.eq path value))
  | .in path values => holds (evaluatePredicate facts (.in path values))
  | .exists path => holds (evaluatePredicate facts (.exists path))
  | .gte path value => holds (evaluatePredicate facts (.gte path value))
  | .lte path value => holds (evaluatePredicate facts (.lte path value))

def allTrue (facts : Facts) : List Predicate → Bool
  | [] => true
  | operand :: rest => truth facts operand && allTrue facts rest

def anyTrue (facts : Facts) : List Predicate → Bool
  | [] => false
  | operand :: rest => truth facts operand || anyTrue facts rest

end

section Truth

variable {facts facts' : Facts}

theorem allTrue_eq (operands : List Predicate) :
    allTrue facts operands = operands.all (truth facts) := by
  induction operands with
  | nil => rfl
  | cons operand rest ih => rw [allTrue, ih, List.all_cons]

theorem anyTrue_eq (operands : List Predicate) :
    anyTrue facts operands = operands.any (truth facts) := by
  induction operands with
  | nil => rfl
  | cons operand rest ih => rw [anyTrue, ih, List.any_cons]

mutual

/-- An operand that was skipped did not matter. -/
theorem truth_of_ok (predicate : Predicate) {value : Bool}
    (h : evaluatePredicate facts predicate = .ok value) : truth facts predicate = value := by
  cases predicate with
  | always | never => exact Except.ok.inj h
  | and operands => exact allTrue_of_ok operands h
  | or operands => exact anyTrue_of_ok operands h
  | not operand =>
    obtain ⟨inner, hinner, h⟩ := bind_ok.mp h
    rw [truth, truth_of_ok operand hinner]
    exact Except.ok.inj h
  | eq | «in» | «exists» | gte | lte =>
    rw [truth, h]
    rfl

theorem allTrue_of_ok (operands : List Predicate) {value : Bool}
    (h : evaluateEvery facts operands = .ok value) : allTrue facts operands = value := by
  cases operands with
  | nil => exact Except.ok.inj h
  | cons operand rest =>
    obtain ⟨first, hfirst, h⟩ := bind_ok.mp h
    rw [allTrue, truth_of_ok operand hfirst]
    cases first with
    | false => exact Except.ok.inj h
    | true => exact allTrue_of_ok rest h

theorem anyTrue_of_ok (operands : List Predicate) {value : Bool}
    (h : evaluateSome facts operands = .ok value) : anyTrue facts operands = value := by
  cases operands with
  | nil => exact Except.ok.inj h
  | cons operand rest =>
    obtain ⟨first, hfirst, h⟩ := bind_ok.mp h
    rw [anyTrue, truth_of_ok operand hfirst]
    cases first with
    | true => exact Except.ok.inj h
    | false => exact anyTrue_of_ok rest h

end

theorem Predicate.Reordered.truth_eq {p q : Predicate} (h : p.Reordered q) :
    truth facts p = truth facts q := by
  induction h with
  | refl p => rfl
  | trans _ _ ih ih' => exact ih.trans ih'
  | and hperm =>
    rw [truth, truth, allTrue_eq, allTrue_eq]
    exact hperm.all_eq
  | or hperm =>
    rw [truth, truth, anyTrue_eq, anyTrue_eq]
    exact hperm.any_eq
  | not _ ih => rw [truth, truth, ih]
  | inAnd before after _ ih => simp [truth, allTrue_eq, ih]
  | inOr before after _ ih => simp [truth, anyTrue_eq, ih]

theorem Predicate.Reordered.mem_paths {p q : Predicate} (h : p.Reordered q) {path : Text} :
    path ∈ p.paths ↔ path ∈ q.paths := by
  have hoperands : ∀ operands : List Predicate, path ∈ (Predicate.and operands).paths ↔
      ∃ operand ∈ operands, path ∈ operand.paths := by
    intro operands
    have hcollected : path ∈ collectOperandPaths [] operands ↔ _ :=
      mem_collectOperandPaths [] operands
    rwa [or_iff_right List.not_mem_nil] at hcollected
  have hsame : ∀ operands, (Predicate.or operands).paths = (Predicate.and operands).paths :=
    fun operands => rfl
  induction h with
  | refl p => rfl
  | trans _ _ ih ih' => exact ih.trans ih'
  | and hperm => simp only [hoperands, hperm.mem_iff]
  | or hperm => simp only [hsame, hoperands, hperm.mem_iff]
  | not _ ih => exact ih
  | inAnd before after _ ih => simp only [hoperands, List.mem_append, List.mem_cons, or_and_right,
      exists_or, exists_eq_left, ih]
  | inOr before after _ ih => simp only [hsame, hoperands, List.mem_append, List.mem_cons,
      or_and_right, exists_or, exists_eq_left, ih]

/-- The same facts, each list among them in an order of its own. -/
def SameFacts (facts facts' : Facts) : Prop :=
  ∀ path, Option.Rel FactValue.Reordered (facts path) (facts' path)

theorem SameFacts.none_iff (h : SameFacts facts facts') (path : Text) :
    facts path = none ↔ facts' path = none := by
  have hpath := h path
  generalize facts path = value at hpath
  generalize facts' path = value' at hpath
  cases hpath with
  | some _ => simp
  | none => simp

theorem SameFacts.compareScalar_eq (h : SameFacts facts facts') (compare : Int → Int → Bool)
    (path value : Text) :
    compareScalar compare facts path value = compareScalar compare facts' path value := by
  have hread : readScalar facts path = readScalar facts' path := by
    unfold readScalar
    have hpath := h path
    generalize facts path = value at hpath
    generalize facts' path = value' at hpath
    cases hpath with
    | none => rfl
    | some hvalue => cases hvalue <;> rfl
  simp only [compareScalar, hread]

mutual

theorem SameFacts.truth_eq (h : SameFacts facts facts') (predicate : Predicate) :
    truth facts predicate = truth facts' predicate := by
  cases predicate with
  | always | never => rfl
  | and operands => exact h.allTrue_eq operands
  | or operands => exact h.anyTrue_eq operands
  | not operand => rw [truth, truth, h.truth_eq operand]
  | eq path value | «in» path value | «exists» path =>
    have hpath := h path
    simp only [truth, evaluatePredicate]
    generalize facts path = value at hpath
    generalize facts' path = value' at hpath
    cases hpath with
    | none => rfl
    | some hvalue =>
      cases hvalue with
      | scalar => rfl
      | array hperm => simp [hperm.mem_iff, hperm.any_eq, hperm.length_eq]
  | gte path value | lte path value =>
    rw [truth, truth, evaluatePredicate, evaluatePredicate, h.compareScalar_eq]

theorem SameFacts.allTrue_eq (h : SameFacts facts facts') (operands : List Predicate) :
    allTrue facts operands = allTrue facts' operands := by
  cases operands with
  | nil => rfl
  | cons operand rest => rw [allTrue, allTrue, h.truth_eq operand, h.allTrue_eq rest]

theorem SameFacts.anyTrue_eq (h : SameFacts facts facts') (operands : List Predicate) :
    anyTrue facts operands = anyTrue facts' operands := by
  cases operands with
  | nil => rfl
  | cons operand rest => rw [anyTrue, anyTrue, h.truth_eq operand, h.anyTrue_eq rest]

end

theorem Predicate.Reordered.value_eq {p q : Predicate} (h : p.Reordered q)
    (hfacts : SameFacts facts facts') {value value' : Bool}
    (hp : evaluatePredicate facts p = .ok value) (hq : evaluatePredicate facts' q = .ok value') :
    value = value' :=
  calc value = truth facts p := (truth_of_ok p hp).symm
    _ = truth facts q := h.truth_eq
    _ = truth facts' q := hfacts.truth_eq q
    _ = value' := truth_of_ok q hq

theorem Predicate.Reordered.mem_absentFacts {p q : Predicate} (h : p.Reordered q)
    (hfacts : SameFacts facts facts') {path : Text} :
    path ∈ absentFacts p facts ↔ path ∈ absentFacts q facts' := by
  rw [Policy.mem_absentFacts, Policy.mem_absentFacts, h.mem_paths, hfacts.none_iff]

end Truth

/-! ## Lists in another order -/

theorem sortTexts_perm {xs ys : List Text} (h : xs.Perm ys) : sortTexts xs = sortTexts ys :=
  Canonical.sortKeys_perm h

theorem nodup_foldl_setAdd {texts out : List Text} (h : out.Nodup) :
    (texts.foldl setAdd out).Nodup := by
  induction texts generalizing out with
  | nil => exact h
  | cons text rest ih =>
    refine ih ?_
    unfold setAdd
    split
    · exact h
    · next hnew => exact List.nodup_append.mpr ⟨h, List.nodup_singleton _, by
        intro a ha b hb hab
        exact hnew (List.mem_singleton.mp hb ▸ hab ▸ ha)⟩

theorem nodup_distinct (texts : List Text) : (distinct texts).Nodup :=
  nodup_foldl_setAdd List.nodup_nil

/-- A sorted set is that of its elements. -/
theorem sortTexts_distinct {xs ys : List Text} (h : ∀ text, text ∈ xs ↔ text ∈ ys) :
    sortTexts (distinct xs) = sortTexts (distinct ys) := by
  refine sortTexts_perm ((List.perm_ext_iff_of_nodup (nodup_distinct xs) (nodup_distinct ys)).mpr ?_)
  intro text
  rw [mem_distinct, mem_distinct, h]

theorem nil_iff_of_mem_iff {α : Type} {xs ys : List α} (h : ∀ x, x ∈ xs ↔ x ∈ ys) :
    xs = [] ↔ ys = [] := by
  rw [List.eq_nil_iff_forall_not_mem, List.eq_nil_iff_forall_not_mem]
  exact forall_congr' fun x => not_congr (h x)

theorem perm_filter_congr {α : Type} {p q : α → Bool} {xs ys : List α} (h : xs.Perm ys)
    (hpq : ∀ x, p x = q x) : (xs.filter p).Perm (ys.filter q) := by
  rw [funext hpq]
  exact h.filter q

/-! ## Results of one requirement -/

/-- The same result, what is missing listed in any order. -/
structure SameResult (result result' : RequirementResult) : Prop where
  requirementId : result.requirementId = result'.requirementId
  status : result.status = result'.status
  applicable : result.applicable = result'.applicable
  reasonCode : result.reasonCode = result'.reasonCode
  missing : result.missing.Perm result'.missing

theorem SameResult.refl (result : RequirementResult) : SameResult result result :=
  ⟨rfl, rfl, rfl, rfl, .rfl⟩

theorem sameResult_gap {requirementId requirementId' : Text} {missing missing' : List Text}
    (reasonCode : RequirementReasonCode) (hid : requirementId = requirementId')
    (hmissing : missing.Perm missing') : SameResult (gapResult requirementId reasonCode missing)
      (gapResult requirementId' reasonCode missing') :=
  ⟨hid, rfl, rfl, rfl, hmissing⟩

theorem sameResult_notEvaluableFor {requirementId requirementId' : Text} {paths paths' : List Text}
    (hid : requirementId = requirementId') (hpaths : ∀ path, path ∈ paths ↔ path ∈ paths') :
    SameResult (notEvaluableFor requirementId paths) (notEvaluableFor requirementId' paths') := by
  refine ⟨hid, rfl, rfl, rfl, ?_⟩
  simp only [notEvaluableFor, sortTexts_distinct hpaths]
  exact .rfl

/-- One exit of the cascade, taken on both sides or on neither. -/
theorem sameResult_of_exits {p p' : Prop} [Decidable p] [Decidable p']
    {exit exit' : RequirementResult} {rest rest' : Except Thrown (Option RequirementResult)}
    {found found' : Option RequirementResult} (hexits : p ↔ p') (hexit : SameResult exit exit')
    (hrest : rest = .ok found → rest' = .ok found' → Option.Rel SameResult found found')
    (h : (if p then .ok (some exit) else rest) = .ok found)
    (h' : (if p' then .ok (some exit') else rest') = .ok found') :
    Option.Rel SameResult found found' := by
  by_cases hp : p
  · rw [if_pos hp] at h
    rw [if_pos (hexits.mp hp)] at h'
    cases h
    cases h'
    exact .some hexit
  · rw [if_neg hp] at h
    rw [if_neg fun hp' => hp (hexits.mpr hp')] at h'
    exact hrest h h'

section Result

variable {requirement requirement' : Requirement} {facts facts' : RequirementFacts}

theorem evaluateFreshness_reordered (hr : requirement.Reordered requirement')
    (hf : facts.Reordered facts') :
    evaluateFreshness requirement facts = evaluateFreshness requirement' facts' := by
  simp only [evaluateFreshness, hr.requirementId, hr.freshnessThresholdDays, hf.evidenceAgeDays]

theorem evaluateEvidence_reordered (hr : requirement.Reordered requirement')
    (hf : facts.Reordered facts') {found found' : Option RequirementResult}
    (h : evaluateEvidence requirement facts = .ok found)
    (h' : evaluateEvidence requirement' facts' = .ok found') :
    Option.Rel SameResult found found' := by
  simp only [evaluateEvidence, pure, Except.pure] at h h'
  have hexit : ∀ {xs ys : List Text}, xs.Perm ys → (xs ≠ [] ↔ ys ≠ []) :=
    fun hperm => not_congr (nil_iff_of_mem_iff fun _ => hperm.mem_iff)
  have hclaims := perm_filter_congr hr.requiredClaimTypes (fun claimType => by
    rw [decide_eq_decide.mpr (not_congr hf.presentClaimTypes.mem_iff)] :
      ∀ claimType, decide (claimType ∉ facts.presentClaimTypes) =
        decide (claimType ∉ facts'.presentClaimTypes))
  refine sameResult_of_exits (hexit hclaims) (sameResult_gap _ hr.requirementId hclaims) ?_ h h'
  clear h h'
  intro h h'
  have hstale := perm_filter_congr hf.staleEvidence (fun claimType => by
    rw [decide_eq_decide.mpr hr.requiredClaimTypes.mem_iff] :
      ∀ claimType, decide (claimType ∈ requirement.requiredClaimTypes) =
        decide (claimType ∈ requirement'.requiredClaimTypes))
  refine sameResult_of_exits (hexit hstale) (sameResult_gap _ hr.requirementId ?_) ?_ h h'
  · rw [sortTexts_distinct fun _ => hstale.mem_iff]
  clear h h'
  intro h h'
  have hgrade : hasMinimumGrade facts requirement = hasMinimumGrade facts' requirement' := by
    rw [hasMinimumGrade, hasMinimumGrade, hf.grade, hr.minimumGrade]
  refine sameResult_of_exits (by rw [hgrade]) (sameResult_gap _ hr.requirementId ?_) ?_ h h'
  · rw [hr.minimumGrade]
  clear h h'
  intro h h'
  have hattestations := perm_filter_congr hr.requiredAttestations (fun attestation => by
    rw [decide_eq_decide.mpr (not_congr hf.presentAttestations.mem_iff)] :
      ∀ attestation, decide (attestation ∉ facts.presentAttestations) =
        decide (attestation ∉ facts'.presentAttestations))
  refine sameResult_of_exits (not_congr (nil_iff_of_mem_iff fun _ => hattestations.mem_iff))
    (sameResult_gap _ hr.requirementId (hattestations.map _)) ?_ h h'
  clear h h'
  intro h h'
  obtain ⟨freshness, hfreshness, h⟩ := bind_ok.mp h
  obtain ⟨freshness', hfreshness', h'⟩ := bind_ok.mp h'
  rw [← evaluateFreshness_reordered hr hf, hfreshness, Except.ok.injEq] at hfreshness'
  subst hfreshness'
  cases freshness with
  | some stale =>
    cases h
    cases h'
    exact .some (.refl _)
  | none =>
    have hconflicts := perm_filter_congr hf.unresolvedConflictTypes (fun conflict => by
      rw [decide_eq_decide.mpr hr.blockingConflictTypes.mem_iff] :
        ∀ conflict, decide (conflict ∈ requirement.blockingConflictTypes) =
          decide (conflict ∈ requirement'.blockingConflictTypes))
    refine sameResult_of_exits (hexit hconflicts) (sameResult_gap _ hr.requirementId hconflicts)
      ?_ h h'
    intro h h'
    cases h
    cases h'
    exact .none

theorem evaluateWatch_reordered (hr : requirement.Reordered requirement')
    (hf : facts.Reordered facts') {watched watched' : Bool}
    (h : evaluateWatch requirement facts.context = .ok watched)
    (h' : evaluateWatch requirement' facts'.context = .ok watched') : watched = watched' := by
  have hwhen := hr.watchWhen
  unfold evaluateWatch at h h'
  generalize requirement.watchWhen = watchWhen at hwhen h
  generalize requirement'.watchWhen = watchWhen' at hwhen h'
  cases hwhen with
  | none => exact Except.ok.inj (h.symm.trans h')
  | some hsame => exact hsame.value_eq hf.context h h'

theorem evaluateApplicable_reordered (hr : requirement.Reordered requirement')
    (hf : facts.Reordered facts') {result result' : RequirementResult}
    (h : evaluateApplicable requirement facts = .ok result)
    (h' : evaluateApplicable requirement' facts' = .ok result') : SameResult result result' := by
  unfold evaluateApplicable at h h'
  obtain ⟨notEvaluable, hpredicate, h⟩ := bind_ok.mp h
  obtain ⟨notEvaluable', hpredicate', h'⟩ := bind_ok.mp h'
  obtain rfl := hr.notEvaluableWhen.value_eq hf.context hpredicate hpredicate'
  cases notEvaluable with
  | true =>
    cases h
    cases h'
    exact sameResult_notEvaluableFor hr.requirementId fun path => hr.notEvaluableWhen.mem_paths
  | false =>
    obtain ⟨found, hfound, h⟩ := bind_ok.mp h
    obtain ⟨found', hfound', h'⟩ := bind_ok.mp h'
    cases evaluateEvidence_reordered hr hf hfound hfound' with
    | some hsame =>
      cases h
      cases h'
      exact hsame
    | none =>
      obtain ⟨watched, hwatched, h⟩ := bind_ok.mp h
      obtain ⟨watched', hwatched', h'⟩ := bind_ok.mp h'
      obtain rfl := evaluateWatch_reordered hr hf hwatched hwatched'
      cases h
      cases h'
      exact ⟨hr.requirementId, rfl, rfl, rfl, .rfl⟩

theorem mem_unknownBasis_reordered (hr : requirement.Reordered requirement')
    (hf : facts.Reordered facts') (path : Text) :
    path ∈ unknownBasis requirement facts.context ↔
      path ∈ unknownBasis requirement' facts'.context := by
  have hwhen := hr.watchWhen
  unfold unknownBasis
  generalize requirement.watchWhen = watchWhen at hwhen
  generalize requirement'.watchWhen = watchWhen' at hwhen
  rw [List.mem_append, List.mem_append, hr.notEvaluableWhen.mem_absentFacts hf.context]
  cases hwhen with
  | none => rfl
  | some hsame => exact or_congr_right (hsame.mem_absentFacts hf.context)

theorem evaluateFacts_reordered (hr : requirement.Reordered requirement')
    (hf : facts.Reordered facts') {result result' : RequirementResult}
    (h : evaluateFacts requirement facts = .ok result)
    (h' : evaluateFacts requirement' facts' = .ok result') : SameResult result result' := by
  have habsent : ∀ path, path ∈ absentFacts requirement.appliesWhen facts.context ↔
      path ∈ absentFacts requirement'.appliesWhen facts'.context :=
    fun path => hr.appliesWhen.mem_absentFacts hf.context
  have hbasis := mem_unknownBasis_reordered hr hf
  unfold evaluateFacts at h h'
  simp only [pure, Except.pure] at h h'
  by_cases hrecorded : absentFacts requirement.appliesWhen facts.context = []
  · rw [if_neg (not_not.mpr hrecorded)] at h
    rw [if_neg (not_not.mpr ((nil_iff_of_mem_iff habsent).mp hrecorded))] at h'
    obtain ⟨applies, hpredicate, h⟩ := bind_ok.mp h
    obtain ⟨applies', hpredicate', h'⟩ := bind_ok.mp h'
    obtain rfl := hr.appliesWhen.value_eq hf.context hpredicate hpredicate'
    cases applies with
    | false =>
      cases h
      cases h'
      exact ⟨hr.requirementId, rfl, rfl, rfl, .rfl⟩
    | true =>
      by_cases hknown : unknownBasis requirement facts.context = []
      · have hknown' := (nil_iff_of_mem_iff hbasis).mp hknown
        rw [if_neg (by simp), if_neg (not_not.mpr hknown)] at h
        rw [if_neg (by simp), if_neg (not_not.mpr hknown')] at h'
        exact evaluateApplicable_reordered hr hf h h'
      · have hknown' := fun hnil => hknown ((nil_iff_of_mem_iff hbasis).mpr hnil)
        rw [if_neg (by simp), if_pos hknown] at h
        rw [if_neg (by simp), if_pos hknown'] at h'
        cases h
        cases h'
        exact sameResult_notEvaluableFor hr.requirementId hbasis
  · have hrecorded' := fun hnil => hrecorded ((nil_iff_of_mem_iff habsent).mpr hnil)
    rw [if_pos hrecorded] at h
    rw [if_pos hrecorded'] at h'
    cases h
    cases h'
    exact sameResult_notEvaluableFor hr.requirementId habsent

theorem evaluateRequirement_reordered (hr : requirement.Reordered requirement')
    {facts facts' : Option RequirementFacts}
    (hf : Option.Rel RequirementFacts.Reordered facts facts') {result result' : RequirementResult}
    (h : evaluateRequirement requirement facts = .ok result)
    (h' : evaluateRequirement requirement' facts' = .ok result') : SameResult result result' := by
  cases hf with
  | none =>
    cases h
    cases h'
    exact ⟨hr.requirementId, rfl, rfl, rfl, .rfl⟩
  | some hf => exact evaluateFacts_reordered hr hf h h'

end Result

/-! ## The whole assessment -/

/-- A fold to the worst status sees only which ones there are. -/
theorem aggregateReadiness_perm {xs ys : List ReadinessStatus} (h : xs.Perm ys) :
    aggregateReadiness xs = aggregateReadiness ys := by
  by_cases hnil : xs = []
  · subst hnil
    rw [List.nil_perm.mp h]
  · have hnil' : ys ≠ [] := fun heq => hnil (List.perm_nil.mp (heq ▸ h))
    obtain ⟨hx, hxmin⟩ := aggregateReadiness_worst hnil
    obtain ⟨hy, hymin⟩ := aggregateReadiness_worst hnil'
    refine ReadinessStatus.rank_injective (Nat.le_antisymm ?_ ?_)
    · exact hxmin _ (h.mem_iff.mpr hy)
    · exact hymin _ (h.mem_iff.mp hx)

theorem applicableStatuses_perm {xs ys : List RequirementResult} (h : xs.Perm ys) :
    (applicableStatuses xs).Perm (applicableStatuses ys) := (h.filter _).map _

theorem applicableStatuses_same {xs ys : List RequirementResult}
    (h : List.Forall₂ SameResult xs ys) : applicableStatuses xs = applicableStatuses ys := by
  induction h with
  | nil => rfl
  | cons hhead _ ih =>
    simp only [applicableStatuses, List.filter_cons, hhead.applicable] at ih ⊢
    split
    · rw [List.map_cons, List.map_cons, hhead.status, ih]
    · exact ih

/-- What is hashed of a result. -/
def normalResult (result : RequirementResult) : RequirementResult :=
  { result with missing := sortTexts result.missing }

theorem sortTexts_sortTexts (texts : List Text) : sortTexts (sortTexts texts) = sortTexts texts :=
  sortTexts_perm (List.perm_insertionSort _ _)

theorem toCanonical_normalResult (result : RequirementResult) :
    (normalResult result).toCanonical = result.toCanonical := by
  simp only [RequirementResult.toCanonical, normalResult, sortTexts_sortTexts]

theorem SameResult.normalResult_eq {result result' : RequirementResult}
    (h : SameResult result result') : normalResult result = normalResult result' := by
  cases result
  cases result'
  obtain ⟨hid, hstatus, happlicable, hreason, hmissing⟩ := h
  simp only at hid hstatus happlicable hreason
  simp only [normalResult, hid, hstatus, happlicable, hreason, sortTexts_perm hmissing]

theorem map_toCanonical_sortResults (results : List RequirementResult) :
    (sortResults results).map RequirementResult.toCanonical =
      (sortResults (results.map normalResult)).map RequirementResult.toCanonical := by
  have hsort : sortResults (results.map normalResult) = (sortResults results).map normalResult := by
    unfold sortResults
    exact (List.map_insertionSort _ _ normalResult results fun _ _ _ _ => Iff.rfl).symm
  rw [hsort, List.map_map]
  exact List.map_congr_left fun result _ => (toCanonical_normalResult result).symm

/-- Results with distinct ids have one order. -/
theorem sortResults_perm {xs ys : List RequirementResult} (h : xs.Perm ys)
    (hdistinct : (xs.map RequirementResult.requirementId).Nodup) :
    sortResults xs = sortResults ys := by
  have hsorted : ∀ results : List RequirementResult,
      (sortResults results).Pairwise fun a b => a.requirementId ≤ b.requirementId :=
    fun results => List.pairwise_insertionSort _ _
  have hperm : ∀ results : List RequirementResult, (sortResults results).Perm results :=
    fun results => List.perm_insertionSort _ _
  refine List.Perm.eq_of_pairwise ?_ (hsorted xs) (hsorted ys)
    ((hperm xs).trans (h.trans (hperm ys).symm))
  intro a b ha hb hab hba
  refine List.inj_on_of_nodup_map hdistinct ((hperm xs).mem_iff.mp ha) ?_ (le_antisymm hab hba)
  exact h.mem_iff.mpr ((hperm ys).mem_iff.mp hb)

theorem map_requirementId {requirements : List Requirement} {results : List RequirementResult}
    {input : AssessmentInput} (h : List.Forall₂ (fun requirement result => evaluateRequirement
      requirement (input.requirementFacts requirement.requirementId) = .ok result)
        requirements results) :
    results.map RequirementResult.requirementId =
      requirements.map Requirement.requirementId := by
  induction h with
  | nil => rfl
  | cons hhead _ ih => rw [List.map_cons, List.map_cons, evaluateRequirement_id hhead, ih]

/-- One after the other, the requirements come to the same results. -/
theorem sameResults {input input' : AssessmentInput} (hi : input.Reordered input')
    {requirements requirements' : List Requirement} {results results' : List RequirementResult}
    (hr : List.Forall₂ Requirement.Reordered requirements requirements')
    (h : List.Forall₂ (fun requirement result => evaluateRequirement requirement
      (input.requirementFacts requirement.requirementId) = .ok result) requirements results)
    (h' : List.Forall₂ (fun requirement result => evaluateRequirement requirement
      (input'.requirementFacts requirement.requirementId) = .ok result) requirements' results') :
    List.Forall₂ SameResult results results' := by
  induction hr generalizing results results' with
  | nil =>
    cases h
    cases h'
    exact .nil
  | cons hhead _ ih =>
    cases h with
    | cons hfirst hrest =>
      cases h' with
      | cons hfirst' hrest' =>
        rw [hhead.requirementId] at hfirst
        exact .cons (evaluateRequirement_reordered hhead (hi.requirementFacts _) hfirst hfirst')
          (ih hrest hrest')

theorem assessmentHash_reordered (keccak_256 : Bytes → Digest) (ruleSet ruleSet' : ParsedRuleSet)
    (input input' : AssessmentInput) (assessment assessment' : Assessment)
    (hr : ruleSet.toRuleSet.Reordered ruleSet'.toRuleSet) (hi : input.Reordered input')
    (h : evaluateAssessment ruleSet.toRuleSet input = .ok assessment)
    (h' : evaluateAssessment ruleSet'.toRuleSet input' = .ok assessment') :
    assessmentHash keccak_256 assessment = assessmentHash keccak_256 assessment' := by
  obtain ⟨results, hresults, heq⟩ := bind_ok.mp h
  obtain ⟨results', hresults', heq'⟩ := bind_ok.mp h'
  cases heq
  cases heq'
  obtain ⟨permuted, hperm, hrequirements⟩ := hr.requirements
  have hpairs := mapM_ok hresults
  -- the results of one order, permuted as the requirements are
  obtain ⟨results₂, hpairs₂, hresults₂⟩ := List.perm_comp_forall₂ hperm.symm hpairs
  have hsame := sameResults hi hrequirements hpairs₂ (mapM_ok hresults')
  have hdistinct : ((results.map normalResult).map RequirementResult.requirementId).Nodup := by
    rw [List.map_map]
    exact (map_requirementId hpairs).symm ▸ ruleSet.distinct
  have hnormal : (results.map normalResult).Perm (results'.map normalResult) := by
    have hmaps : results₂.map normalResult = results'.map normalResult := by
      refine List.forall₂_eq_eq_eq ▸ ?_
      rw [List.forall₂_map_left_iff, List.forall₂_map_right_iff]
      exact hsame.imp fun _ _ hresult => hresult.normalResult_eq
    exact hmaps ▸ hresults₂.symm.map normalResult
  have hstatus : aggregateReadiness (applicableStatuses results) =
      aggregateReadiness (applicableStatuses results') := by
    rw [← applicableStatuses_same hsame]
    exact aggregateReadiness_perm (applicableStatuses_perm hresults₂.symm)
  have hcanonical : (sortResults results).map RequirementResult.toCanonical =
      (sortResults results').map RequirementResult.toCanonical := by
    rw [map_toCanonical_sortResults, map_toCanonical_sortResults results',
      sortResults_perm hnormal hdistinct]
  simp only [assessmentHash, Assessment.toCanonical, hstatus, hcanonical, hr.ruleSetId, hr.version,
    hi.subjectId, hi.gateId, hi.inputSnapshotHash, hi.evaluatedAsOf]

section Witness

/-- Applies offshore and wherever a depth is recorded. -/
def surveyRequirement (appliesWhen : List Predicate) (requiredClaimTypes : List Text) :
    Requirement where
  requirementId := units "survey"
  appliesWhen := .or appliesWhen
  requiredClaimTypes
  minimumGrade := .verified
  freshnessThresholdDays := none
  requiredAttestations := []
  blockingConflictTypes := []
  notEvaluableWhen := .never
  watchWhen := none

def accessRequirement : Requirement :=
  { surveyRequirement [] [] with requirementId := units "access", appliesWhen := .always }

def surveyRules : ParsedRuleSet where
  ruleSetId := units "survey_rules"
  version := units "1.0.0"
  requirements := [surveyRequirement [.eq (units "zone") (units "offshore"),
    .exists (units "depth")] [units "reserve", units "map"], accessRequirement]
  distinct := by decide

def surveyRules' : ParsedRuleSet where
  ruleSetId := units "survey_rules"
  version := units "1.0.0"
  requirements := [accessRequirement, surveyRequirement [.exists (units "depth"),
    .eq (units "zone") (units "offshore")] [units "map", units "reserve"]]
  distinct := by decide

def surveyInput (zones : List Text) : AssessmentInput where
  subjectId := units "project"
  gateId := units "stage.exploration"
  inputSnapshotHash := units "0x00"
  evaluatedAsOf := units "2026-01-01T00:00:00Z"
  requirementFacts _ := some {
    presentClaimTypes := []
    grade := some .verified
    presentAttestations := []
    evidenceAgeDays := none
    unresolvedConflictTypes := []
    staleEvidence := []
    context path := if path = units "zone" then some (.array zones)
      else some (.scalar (units "40")) }

def surveyAssessment (results : List RequirementResult) : Assessment where
  subjectId := units "project"
  gateId := units "stage.exploration"
  ruleSetId := units "survey_rules"
  ruleSetVersion := units "1.0.0"
  inputSnapshotHash := units "0x00"
  evaluatedAsOf := units "2026-01-01T00:00:00Z"
  status := .gap
  requirementResults := results

/-- Keccak-256 on the one byte string that is hashed below. -/
def surveyKeccak (_ : Bytes) : Digest :=
  ⟨[0xf1, 0x63, 0x5f, 0x2d, 0xe7, 0xa1, 0xd0, 0xf6, 0x3e, 0x5b, 0xaf, 0x3c, 0x80, 0xbc, 0x14, 0x21,
    0xc3, 0x1f, 0x4c, 0xa2, 0x3e, 0xf8, 0x91, 0x2f, 0xfd, 0xe7, 0xbe, 0x03, 0x11, 0x98, 0xd7, 0x5a],
    rfl⟩

theorem assessmentHash_reordered_survey :
    assessmentHash surveyKeccak (surveyAssessment
      [gapResult (units "survey") .missingRequiredClaimType [units "reserve", units "map"],
        satisfied (units "access") false]) =
    assessmentHash surveyKeccak (surveyAssessment
      [satisfied (units "access") false,
        gapResult (units "survey") .missingRequiredClaimType [units "map", units "reserve"]]) := by
  refine assessmentHash_reordered surveyKeccak surveyRules surveyRules'
    (surveyInput [units "east", units "offshore"]) (surveyInput [units "offshore", units "east"])
    _ _ ?_ ?_ rfl rfl
  · refine ⟨rfl, rfl, _, .swap accessRequirement _ [], .cons ?_ (.cons ?_ .nil)⟩
    · exact ⟨rfl, .refl _, .rfl, rfl, rfl, .rfl, .rfl, .refl _, .none⟩
    · exact ⟨rfl, .or (.swap _ _ []), .swap _ _ [], rfl, rfl, .rfl, .rfl, .refl _, .none⟩
  · refine ⟨rfl, rfl, rfl, rfl, fun requirementId => .some ?_⟩
    refine ⟨.rfl, rfl, .rfl, rfl, .rfl, .rfl, fun path => ?_⟩
    by_cases hzone : path = units "zone"
    · simp only [hzone, if_pos]
      exact .some (.array (.swap _ _ []))
    · simp only [if_neg hzone]
      exact .some (.scalar _)

end Witness

end MpcRegistry.Policy
