import MpcRegistry.Policy.Predicate

/-!
# Readiness, grades and gate decisions

Source: packages/domain/src/provenance.ts:34-64, 137-144 and
packages/domain/src/readiness.ts:10-157.
-/
namespace MpcRegistry.Policy
open Library Ecma

inductive AttestationType where
  | professionalSignoff | laboratoryAccreditation | independentAssurance | legalNotarization
  | cryptographicAttestation
  deriving DecidableEq, Repr

def AttestationType.text : AttestationType → Text
  | .professionalSignoff => units "professional_signoff"
  | .laboratoryAccreditation => units "laboratory_accreditation"
  | .independentAssurance => units "independent_assurance"
  | .legalNotarization => units "legal_notarization"
  | .cryptographicAttestation => units "cryptographic_attestation"

inductive Grade where
  | rejected | unverified | selfReported | partiallyVerified | verified
  deriving DecidableEq, Repr

def Grade.text : Grade → Text
  | .rejected => units "rejected"
  | .unverified => units "unverified"
  | .selfReported => units "self_reported"
  | .partiallyVerified => units "partially_verified"
  | .verified => units "verified"

/-- `GRADE_RANK` -/
def Grade.rank : Grade → Nat
  | .rejected => 0
  | .unverified => 1
  | .selfReported => 2
  | .partiallyVerified => 3
  | .verified => 4

def gradeAtLeast (grade minimum : Grade) : Bool := minimum.rank ≤ grade.rank

inductive ReadinessStatus where
  | ok | watch | gap | notEvaluable
  deriving DecidableEq, Repr

inductive GateDecisionValue where
  | go | hold | rework | stop
  deriving DecidableEq, Repr

/-- `READINESS_RANK` -/
def ReadinessStatus.rank : ReadinessStatus → Nat
  | .notEvaluable => 0
  | .gap => 1
  | .watch => 2
  | .ok => 3

/-- `GO_BLOCKING.has(status)` -/
def isGoBlocking : ReadinessStatus → Bool
  | .gap | .notEvaluable => true
  | .ok | .watch => false

/-- The callback of the `reduce`. -/
def worse (worst current : ReadinessStatus) : ReadinessStatus :=
  if current.rank < worst.rank then current else worst

def aggregateReadiness : List ReadinessStatus → ReadinessStatus
  | [] => .notEvaluable
  | first :: rest => rest.foldl worse first

inductive GateDenyReason where
  | gapBlocksGo | notEvaluableBlocksGo | watchRequiresRationale | watchRequiresConditions
  | missingAssessment
  deriving DecidableEq, Repr

def GateDenyReason.text : GateDenyReason → Text
  | .gapBlocksGo => units "GATE_GAP_BLOCKS_GO"
  | .notEvaluableBlocksGo => units "GATE_NOT_EVALUABLE_BLOCKS_GO"
  | .watchRequiresRationale => units "GATE_WATCH_REQUIRES_RATIONALE"
  | .watchRequiresConditions => units "GATE_WATCH_REQUIRES_CONDITIONS"
  | .missingAssessment => units "GATE_MISSING_ASSESSMENT"

structure GateDecisionRequest where
  decision : GateDecisionValue
  requirementStatuses : List ReadinessStatus
  hasAssessment : Bool
  rationale : Option Text
  conditions : Option (List Text)
  deriving DecidableEq, Repr

inductive GateDecisionCheck where
  | allowed
  | denied (reason : GateDenyReason) (blockingRequirementIndexes : List Nat)
  deriving DecidableEq, Repr

def indexesOf (statuses : List ReadinessStatus) (target : ReadinessStatus) : List Nat :=
  statuses.findIdxs fun status => status = target

def checkGateDecision (request : GateDecisionRequest) : GateDecisionCheck :=
  let notEvaluable := indexesOf request.requirementStatuses .notEvaluable
  let gaps := indexesOf request.requirementStatuses .gap
  let watches := indexesOf request.requirementStatuses .watch
  let conditions := (request.conditions.getD []).filter fun condition => trim condition ≠ []
  if !request.hasAssessment then .denied .missingAssessment []
  else if request.decision ≠ .go then .allowed
  else if 0 < notEvaluable.length then .denied .notEvaluableBlocksGo notEvaluable
  else if 0 < gaps.length then .denied .gapBlocksGo gaps
  else if 0 < watches.length ∧ request.rationale.all (fun text => trim text = []) then
    .denied .watchRequiresRationale watches
  else if 0 < watches.length ∧ conditions.length = 0 then
    .denied .watchRequiresConditions watches
  else .allowed

/-! ## The worst status -/

theorem ReadinessStatus.rank_injective : Function.Injective ReadinessStatus.rank := by
  intro a b h
  cases a <;> cases b <;> first | rfl | exact absurd h (by decide)

theorem worse_rank (worst current : ReadinessStatus) :
    (worse worst current).rank = min worst.rank current.rank := by
  unfold worse
  split <;> omega

theorem foldl_worse_mem (first : ReadinessStatus) (rest : List ReadinessStatus) :
    rest.foldl worse first ∈ first :: rest := by
  induction rest generalizing first with
  | nil => simp
  | cons status rest ih =>
    have hmem := ih (worse first status)
    have hcases : worse first status = first ∨ worse first status = status := by
      unfold worse
      split <;> simp
    rw [List.foldl_cons]
    rcases hcases with heq | heq <;> rw [heq] at hmem ⊢ <;> simp only [List.mem_cons] at hmem ⊢ <;>
      tauto

theorem foldl_worse_le (first : ReadinessStatus) (rest : List ReadinessStatus) :
    ∀ status ∈ first :: rest, (rest.foldl worse first).rank ≤ status.rank := by
  induction rest generalizing first with
  | nil => simp
  | cons current rest ih =>
    intro status hmem
    have hfirst := ih (worse first current) _ List.mem_cons_self
    rw [worse_rank] at hfirst
    rw [List.foldl_cons]
    rcases List.mem_cons.mp hmem with rfl | hmem
    · omega
    · rcases List.mem_cons.mp hmem with rfl | hmem
      · omega
      · exact ih _ status (List.mem_cons_of_mem _ hmem)

/-- The overall status of a list that is not empty is in the list, and nothing there is worse. -/
theorem aggregateReadiness_worst {statuses : List ReadinessStatus} (h : statuses ≠ []) :
    aggregateReadiness statuses ∈ statuses ∧
      ∀ status ∈ statuses, (aggregateReadiness statuses).rank ≤ status.rank := by
  cases statuses with
  | nil => exact absurd rfl h
  | cons first rest => exact ⟨foldl_worse_mem first rest, foldl_worse_le first rest⟩

/-! ## When a decision is allowed -/

theorem length_indexesOf_pos {statuses : List ReadinessStatus} {target : ReadinessStatus} :
    0 < (indexesOf statuses target).length ↔ target ∈ statuses := by
  simp [indexesOf, List.countP_pos_iff]

/-- What a watch needs besides the go: something said, and something to keep an eye on. -/
structure WatchExplained (rationale : Option Text) (conditions : List Text) : Prop where
  rationale : ∃ text, rationale = some text ∧ trim text ≠ []
  conditions : ∃ condition ∈ conditions, trim condition ≠ []

theorem watchExplained_iff {rationale : Option Text} {conditions : List Text} :
    WatchExplained rationale conditions ↔
      ¬ rationale.all (fun text => trim text = []) ∧
        (conditions.filter fun condition => trim condition ≠ []).length ≠ 0 := by
  constructor
  · rintro ⟨⟨text, rfl, htext⟩, condition, hmem, hcondition⟩
    refine ⟨by simpa using htext, fun hnone => hcondition ?_⟩
    rw [List.length_eq_zero_iff, List.filter_eq_nil_iff] at hnone
    simpa using hnone condition hmem
  · rintro ⟨hrationale, hconditions⟩
    constructor
    · cases rationale with
      | none => simp at hrationale
      | some text => exact ⟨text, rfl, by simpa using hrationale⟩
    · obtain ⟨condition, hmem⟩ := List.length_pos_iff_exists_mem.mp (Nat.pos_of_ne_zero hconditions)
      rw [List.mem_filter] at hmem
      exact ⟨condition, hmem.1, by simpa using hmem.2⟩

/-- The go check scans for blockers; it never looks at the overall status. -/
theorem checkGateDecision_go_iff {request : GateDecisionRequest} (hgo : request.decision = .go)
    (hassessed : request.hasAssessment = true) :
    checkGateDecision request = .allowed ↔
      (∀ status ∈ request.requirementStatuses, isGoBlocking status = false) ∧
        (.watch ∈ request.requirementStatuses →
          WatchExplained request.rationale (request.conditions.getD [])) := by
  have hblocking : (∀ status ∈ request.requirementStatuses, isGoBlocking status = false) ↔
      ReadinessStatus.notEvaluable ∉ request.requirementStatuses ∧
        ReadinessStatus.gap ∉ request.requirementStatuses := by
    constructor
    · exact fun h => ⟨fun hmem => absurd (h _ hmem) (by decide),
        fun hmem => absurd (h _ hmem) (by decide)⟩
    · rintro ⟨hnotEvaluable, hgap⟩ status hmem
      cases status with
      | ok | watch => rfl
      | gap => exact absurd hmem hgap
      | notEvaluable => exact absurd hmem hnotEvaluable
  rw [hblocking, watchExplained_iff]
  simp only [checkGateDecision, hassessed, hgo, length_indexesOf_pos]
  by_cases hnotEvaluable : ReadinessStatus.notEvaluable ∈ request.requirementStatuses
  · simp [hnotEvaluable]
  · by_cases hgap : ReadinessStatus.gap ∈ request.requirementStatuses
    · simp [hnotEvaluable, hgap]
    · by_cases hwatch : ReadinessStatus.watch ∈ request.requirementStatuses
      · by_cases hrationale : request.rationale.all fun text => trim text = []
        · simp [hnotEvaluable, hgap, hwatch, hrationale]
        · simp only [hnotEvaluable, hgap, hwatch, hrationale]
          simp
      · simp [hnotEvaluable, hgap, hwatch]

/-- An overall status that a go may rest on. -/
def GoSupported (overall : ReadinessStatus) (rationale : Option Text) (conditions : List Text) :
    Prop :=
  overall = .ok ∨ overall = .watch ∧ WatchExplained rationale conditions

/-- The two folds agree about a list as soon as there is something in it. -/
theorem goSupported_of_allowed {request : GateDecisionRequest} (hgo : request.decision = .go)
    (hassessed : request.hasAssessment = true) (hsome : request.requirementStatuses ≠ [])
    (hallowed : checkGateDecision request = .allowed) :
    GoSupported (aggregateReadiness request.requirementStatuses) request.rationale
      (request.conditions.getD []) := by
  obtain ⟨hblocking, hwatch⟩ := (checkGateDecision_go_iff hgo hassessed).mp hallowed
  have hmem := (aggregateReadiness_worst hsome).1
  have hfree := hblocking _ hmem
  cases hoverall : aggregateReadiness request.requirementStatuses with
  | ok => exact .inl rfl
  | watch => exact .inr ⟨rfl, hwatch (hoverall ▸ hmem)⟩
  | gap | notEvaluable =>
    rw [hoverall] at hfree
    exact absurd hfree (by decide)

/-- Without requirements to look at, every go passes. -/
theorem allowed_of_no_requirement {request : GateDecisionRequest}
    (hassessed : request.hasAssessment = true) (hnone : request.requirementStatuses = []) :
    checkGateDecision request = .allowed := by
  simp [checkGateDecision, hassessed, hnone, indexesOf]

theorem not_goSupported_nil (rationale : Option Text) (conditions : List Text) :
    ¬ GoSupported (aggregateReadiness []) rationale conditions := by
  rintro (h | ⟨h, -⟩) <;> exact absurd h (by decide)

end MpcRegistry.Policy
