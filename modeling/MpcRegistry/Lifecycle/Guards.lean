import MpcRegistry.Library.Utf16

/-!
# The lifecycle of a project and the conditions of a transition

Source: packages/domain/src/machines.ts:6-67, packages/domain/src/offering-gate.ts and
packages/domain/src/lifecycle-guards.ts.
-/
namespace MpcRegistry.Lifecycle
open Library

abbrev Uuid := Nat

inductive AtLifecycleState where
  | draft | registered | offeringOpen | offeringClosed | active | branchVote | continuing
  | divested | closure | retired | suspended
  deriving DecidableEq, Repr

namespace AtLifecycleState

/-- `SUSPENDABLE_STATES` -/
def suspendable : List AtLifecycleState :=
  [registered, offeringOpen, offeringClosed, active, branchVote, continuing, divested, closure]

/-- `atLifecycleMachine.transitions` -/
def transitions : AtLifecycleState → List AtLifecycleState
  | draft => [registered]
  | registered => [offeringOpen, suspended]
  | offeringOpen => [offeringClosed, suspended]
  | offeringClosed => [active, suspended]
  | active => [branchVote, closure, suspended]
  | branchVote => [continuing, divested, suspended]
  | continuing => [active, branchVote, suspended]
  | divested => [closure, suspended]
  | closure => [retired, suspended]
  | retired => []
  | suspended => suspendable ++ [closure]

/-- `OFFERING_FAMILY_STATES` -/
def offeringFamily : List AtLifecycleState :=
  [offeringOpen, offeringClosed, active, branchVote, continuing, divested]

end AtLifecycleState

open AtLifecycleState

def resumeFromSuspension (priorState target : AtLifecycleState) : Bool :=
  target = closure || (target = priorState && priorState ∈ suspendable)

theorem resumeFromSuspension_iff {priorState target : AtLifecycleState} :
    resumeFromSuspension priorState target = true ↔
      target = closure ∨ target = priorState ∧ priorState ∈ suspendable := by
  simp [resumeFromSuspension]

/-- No transition of the machine stays where it is. -/
theorem ne_of_mem_transitions {source target : AtLifecycleState}
    (h : target ∈ source.transitions) : target ≠ source := by
  cases source <;> cases target <;> simp_all [transitions, suspendable]

/-! ## The offering gate -/

structure OfferingPrecondition where
  key : Text
  label : Text
  why : Text
  owner : Text
  deriving DecidableEq, Repr

/-- `OFFERING_PRECONDITIONS` -/
def offeringPreconditions : List OfferingPrecondition := [
  { key := units "issuer_identified"
    label := units "Per-project issuer confirmed"
    why := units "Without a settled issuer, no one can tell who is responsible for what"
    owner := units "Issuer · Legal" },
  { key := units "host_country_spv"
    label := units "Local SPV incorporation confirmed"
    why := units "Without an entity to hold the asset, where the rights reside is undefined"
    owner := units "Issuer · Legal" },
  { key := units "jurisdiction_determined"
    label := units "Applicable jurisdiction confirmed"
    why := units "Each jurisdiction requires different licenses and disclosure obligations"
    owner := units "Legal" },
  { key := units "ersp_engaged"
    label := units "Per-function ERSP contracts"
    why := units "Investor verification, custody, and transfer records are performed by licensed external entities (OD-25·OD-27)"
    owner := units "Issuer · Legal" },
  { key := units "legal_issuance_decision"
    label := units "Legal issuance decision"
    why := units "Data readiness or a governance pass does not substitute for issuance approval"
    owner := units "Issuer · Legal" },
  { key := units "security_audit"
    label := units "Security audit complete"
    why := units "Once a fund-movement path exists, the loss cap exceeds gas costs (O1)"
    owner := units "Security" },
  { key := units "separate_implementation_plan"
    label := units "Separate implementation plan approved"
    why := units "Designing only after confirming the real ERSP APIs and legal requirements avoids waste (OD-07)"
    owner := units "Product owner · CTO" }]

/-- The seven keys, which the trigger of 0050 lists as well. -/
def offeringKeys : List Text := offeringPreconditions.map (·.key)

theorem offeringKeys_nodup : offeringKeys.Nodup := by decide +kernel

structure PreconditionStatus where
  key : Text
  satisfied : Bool
  evidenceRef : Option Uuid
  deriving DecidableEq, Repr

inductive OfferingGateDecision where
  | activatable
  | notActivatable (missing : List OfferingPrecondition) (unsupported : List Text)
  deriving DecidableEq, Repr

/-- `byKey.get(key)`, where the last status of a key counts. -/
def statusOf (statuses : List PreconditionStatus) (key : Text) : Option PreconditionStatus :=
  statuses.reverse.find? (·.key = key)

def checkOfferingGate (statuses : List PreconditionStatus) : OfferingGateDecision :=
  let missing := offeringPreconditions.filter fun precondition =>
    !(statusOf statuses precondition.key).any (·.satisfied)
  let unsupported :=
    (statuses.filter fun status => status.satisfied && status.evidenceRef.isNone).map (·.key)
  if missing = [] ∧ unsupported = [] then .activatable else .notActivatable missing unsupported

/-- A gate is activatable only with all its preconditions met, and none of them
without evidence. -/
theorem checkOfferingGate_activatable {statuses : List PreconditionStatus}
    (h : checkOfferingGate statuses = .activatable) {key : Text} (hkey : key ∈ offeringKeys) :
    ∃ status ∈ statuses, status.key = key ∧ status.satisfied = true ∧
      status.evidenceRef.isSome = true := by
  obtain ⟨precondition, hmem, rfl⟩ := List.mem_map.mp hkey
  simp only [checkOfferingGate] at h
  split at h
  · next hnone =>
    obtain ⟨hmissing, hunsupported⟩ := hnone
    rw [List.filter_eq_nil_iff] at hmissing
    have hmet := hmissing precondition hmem
    rw [Bool.not_eq_true', Bool.not_eq_false, Option.any_eq_true] at hmet
    obtain ⟨status, hfound, hsatisfied⟩ := hmet
    have hstatus : status ∈ statuses := by simpa using List.mem_of_find?_eq_some hfound
    rw [List.map_eq_nil_iff, List.filter_eq_nil_iff] at hunsupported
    have hevidence := hunsupported status hstatus
    refine ⟨status, hstatus, by simpa using List.find?_some hfound, hsatisfied, ?_⟩
    simpa [hsatisfied, Option.isSome_iff_ne_none] using hevidence
  · cases h

/-! ## The guards -/

inductive GateDecisionValue where
  | go | hold | rework | stop
  deriving DecidableEq, Repr

def GateDecisionValue.text : GateDecisionValue → Text
  | go => units "go"
  | hold => units "hold"
  | rework => units "rework"
  | stop => units "stop"

inductive ConditionStatus where
  | unmet | notEvaluable
  deriving DecidableEq, Repr

structure LifecycleCondition where
  key : Text
  label : Text
  why : Text
  status : ConditionStatus
  owner : Option Text
  deriving DecidableEq, Repr

structure LifecycleGuardFacts where
  offeringGate : OfferingGateDecision
  latestOfferingDecision : Option GateDecisionValue
  reviewedSinceSuspension : Option Bool
  deriving DecidableEq, Repr

inductive GuardCode where
  | lifecycleGuardUnmet | lifecycleRegisterViaPublication
  deriving DecidableEq, Repr

inductive LifecycleGuardResult where
  | allowed
  | refused (code : GuardCode) (conditions : List LifecycleCondition) (unsupported : List Text)
  deriving DecidableEq, Repr

def notRecorded (key label why : Text) : LifecycleCondition :=
  ⟨key, label, why, .notEvaluable, none⟩

def closureCondition : LifecycleCondition :=
  notRecorded (units "offchain_execution_or_obligation_plan")
    (units "Off-chain execution complete, or an obligation plan")
    (units "Closing while obligations are open leaves holders with no counterpart")

def branchConditions : List LifecycleCondition := [
  notRecorded (units "contractual_branch_event") (units "Contractual branch event")
    (units "A branch vote starts only from an event the contract defines"),
  notRecorded (units "independent_valuation_request") (units "Independent valuation requested")
    (units "Voters decide on a valuation that did not come from the proposer")]

def voteCondition : LifecycleCondition :=
  notRecorded (units "valid_project_vote") (units "Valid project vote meeting the threshold")
    (units "Quorum and threshold values are not decided yet, so no vote can be judged valid")

/-- `UNRECORDED_ROW_CONDITIONS` -/
def unrecordedRowConditions : AtLifecycleState → AtLifecycleState → List LifecycleCondition
  | .offeringOpen, .offeringClosed => [
    notRecorded (units "issuer_offering_status")
      (units "Issuer offering status and per-function ERSP status")
      (units "Only the issuer and the licensed service providers know whether the offering ended"),
    notRecorded (units "deadline_or_cap_rule") (units "Offering deadline or cap rule reached")
      (units "Closing before the rule is met changes the terms investors relied on")]
  | .offeringClosed, .active => [
    notRecorded (units "settlement_reconciliation")
      (units "Settlement and registry reconciliation")
      (units "An unreconciled offering can show holdings that settlement does not support")]
  | .active, .branchVote => branchConditions
  | .continuing, .branchVote => branchConditions
  | .branchVote, .continuing => [voteCondition]
  | .branchVote, .divested => [voteCondition]
  | .continuing, .active => [
    notRecorded (units "financing_condition_record")
      (units "Financing or contract condition recorded")
      (units "Continuing without a recorded condition leaves the next decision without a basis")]
  | .divested, .closure => [closureCondition]
  | .active, .closure => [closureCondition]
  | .closure, .retired => [
    notRecorded (units "obligations_resolved") (units "No unresolved obligations")
      (units "A retired project cannot be pursued for what it still owes"),
    notRecorded (units "retirement_legal_approval") (units "Legal approval of retirement")
      (units "Retirement ends the legal vehicle, which only a legal decision can do")]
  | _, _ => []

def missingOf : OfferingGateDecision → List OfferingPrecondition
  | .activatable => []
  | .notActivatable missing _ => missing

def unsupportedOf (facts : LifecycleGuardFacts) : List Text :=
  match facts.offeringGate with
  | .activatable => []
  | .notActivatable _ unsupported => unsupported

def goDecisionWhy : Option GateDecisionValue → Text
  | none => units "Conditions being met is not approval; a person must decide go (AC-03)"
  | some decision =>
    units "The latest offering gate decision is " ++ decision.text ++ units ", not go"

def offeringConditions (facts : LifecycleGuardFacts) : List LifecycleCondition :=
  ((missingOf facts.offeringGate).map fun missing =>
    ⟨missing.key, missing.label, missing.why, .unmet, some missing.owner⟩) ++
  (if unsupportedOf facts = [] then [] else [{
    key := units "offering_precondition_evidence"
    label := units "Evidence for every confirmed offering precondition"
    why := units "Confirmed without evidence: " ++ (units ", ").intercalate (unsupportedOf facts)
    status := .unmet
    owner := none }]) ++
  (if facts.latestOfferingDecision = some .go then [] else [{
    key := units "offering_gate_go_decision"
    label := units "Human go decision on the offering gate"
    why := goDecisionWhy facts.latestOfferingDecision
    status := .unmet
    owner := some (units "Gate approver") }])

def registryEntryCondition : LifecycleCondition where
  key := units "project_registry_entry"
  label := units "Published Project Registry entry"
  why := units "A project becomes registered by publishing its Registry entry, which checks the minimum fields and the responsible party"
  status := .unmet
  owner := none

def reviewCondition (reviewedSinceSuspension : Option Bool) : LifecycleCondition where
  key := units "review_since_suspension"
  label := units "New evidence, review, readiness assessment, or decision since suspension"
  why :=
    if reviewedSinceSuspension = none then
      units "No suspension record exists, so nothing can be shown to be newer than it"
    else units "Reinstating on the same record that led to suspension undoes the control"
  status := .unmet
  owner := none

/-- The conditions of `checkLifecycleGuard`, past the moves it settles at once. -/
def guardConditions (source target : AtLifecycleState) (facts : LifecycleGuardFacts) :
    List LifecycleCondition :=
  (if source = suspended then
    if facts.reviewedSinceSuspension = some true then []
    else [reviewCondition facts.reviewedSinceSuspension]
  else unrecordedRowConditions source target) ++
  (if target ∈ offeringFamily then offeringConditions facts else [])

def checkLifecycleGuard (source target : AtLifecycleState) (facts : LifecycleGuardFacts) :
    LifecycleGuardResult :=
  if target = suspended then .allowed
  else if source = draft ∧ target = registered then
    .refused .lifecycleRegisterViaPublication [registryEntryCondition] []
  else if source = suspended ∧ target = closure then .allowed
  else if guardConditions source target facts = [] then .allowed
  else
    .refused .lifecycleGuardUnmet (guardConditions source target facts)
      (if target ∈ offeringFamily then unsupportedOf facts else [])

theorem not_mem_offeringFamily_suspended : suspended ∉ offeringFamily := by decide

theorem not_mem_offeringFamily_closure : closure ∉ offeringFamily := by decide

/-- A gate that is not activatable has something to report. -/
theorem checkOfferingGate_reports {statuses : List PreconditionStatus}
    {missing : List OfferingPrecondition} {unsupported : List Text}
    (h : checkOfferingGate statuses = .notActivatable missing unsupported) :
    missing ≠ [] ∨ unsupported ≠ [] := by
  simp only [checkOfferingGate] at h
  split at h
  · cases h
  · next hsome =>
    cases h
    exact not_and_or.mp hsome

/-- The guard lets a project into the offering family only with an activatable gate
and a go decision. -/
theorem checkLifecycleGuard_offering {source target : AtLifecycleState}
    {facts : LifecycleGuardFacts} (h : checkLifecycleGuard source target facts = .allowed)
    (hfamily : target ∈ offeringFamily) {statuses : List PreconditionStatus}
    (hgate : facts.offeringGate = checkOfferingGate statuses) :
    facts.offeringGate = .activatable ∧ facts.latestOfferingDecision = some .go := by
  have hsuspended : target ≠ suspended := fun heq => not_mem_offeringFamily_suspended (heq ▸ hfamily)
  have hclosure : target ≠ closure := fun heq => not_mem_offeringFamily_closure (heq ▸ hfamily)
  rw [checkLifecycleGuard, if_neg hsuspended] at h
  split at h
  · cases h
  · rw [if_neg fun hboth => hclosure hboth.2] at h
    split at h
    · next hnone =>
      rw [guardConditions, if_pos hfamily] at hnone
      have hoffering : offeringConditions facts = [] := (List.append_eq_nil_iff.mp hnone).2
      simp only [offeringConditions, List.append_eq_nil_iff, List.map_eq_nil_iff] at hoffering
      obtain ⟨⟨hmissing, hunsupported⟩, hdecision⟩ := hoffering
      refine ⟨?_, by simpa using hdecision⟩
      cases hdecided : facts.offeringGate with
      | activatable => rfl
      | notActivatable missing unsupported =>
        simp only [missingOf, unsupportedOf, hdecided] at hmissing hunsupported
        rcases checkOfferingGate_reports (hgate.symm.trans hdecided) with hreport | hreport
        · exact absurd hmissing hreport
        · simp [hreport] at hunsupported
    · cases h

end MpcRegistry.Lifecycle
