import Mathlib

/-!
# The assessment of a claim and the states of reviews

Source: packages/domain/src/provenance.ts:4-127, packages/domain/src/provenance-axes.ts:12-55
and the machines of verification cases and attestations in packages/domain/src/machines.ts.
-/
namespace MpcRegistry.Verification

/-! ## The axes of a claim -/

inductive EvidenceTier where
  | p1 | p2 | p3 | p4 | p5
  deriving DecidableEq, Repr

inductive VerificationState where
  | unreviewed | machineChecked | analystChecked | independentlyAssured | rejected
  deriving DecidableEq, Repr

inductive AttestationType where
  | professionalSignoff | laboratoryAccreditation | independentAssurance | legalNotarization
  | cryptographicAttestation
  deriving DecidableEq, Repr

inductive Grade where
  | rejected | unverified | selfReported | partiallyVerified | verified
  deriving DecidableEq, Repr

/-- `STATE_RANK` -/
def VerificationState.rank : VerificationState → Int
  | rejected => -1
  | unreviewed => 0
  | machineChecked => 1
  | analystChecked => 2
  | independentlyAssured => 3

/-- `STATE_ESTABLISHED_BY` -/
def AttestationType.establishes : AttestationType → VerificationState
  | cryptographicAttestation => .machineChecked
  | professionalSignoff => .analystChecked
  | laboratoryAccreditation => .analystChecked
  | legalNotarization => .analystChecked
  | independentAssurance => .independentlyAssured

def deriveVerificationState (current : VerificationState)
    (standingAttestationTypes : List AttestationType) : VerificationState :=
  if current = .rejected then .rejected
  else standingAttestationTypes.foldl (fun best type =>
    if best.rank < type.establishes.rank then type.establishes else best) .unreviewed

structure ClaimGradeInput where
  verificationState : VerificationState
  evidenceTier : Option EvidenceTier
  attestationTypes : List AttestationType
  unresolvedConflictCount : Nat
  excludedByRule : Bool

def computeClaimGrade (input : ClaimGradeInput) : Grade :=
  if input.excludedByRule ∨ input.verificationState = .rejected then .rejected
  else
    match input.evidenceTier with
    | none => .unverified
    | some tier =>
      if input.verificationState = .unreviewed then .unverified
      else if VerificationState.independentlyAssured.rank ≤ input.verificationState.rank ∧
          .professionalSignoff ∈ input.attestationTypes ∧
          .independentAssurance ∈ input.attestationTypes ∧
          (tier = .p1 ∨ tier = .p2) ∧ input.unresolvedConflictCount = 0 then
        .verified
      else if VerificationState.analystChecked.rank ≤ input.verificationState.rank ∧
          (tier = .p1 ∨ tier = .p2 ∨ tier = .p3) then
        .partiallyVerified
      else .selfReported

/-! ## The machines -/

inductive AttestationState where
  | draft | signed | active | staleCandidate | superseded | revoked | disputed
  deriving DecidableEq, Repr

namespace AttestationState

/-- `attestationMachine.transitions` -/
def transitions : AttestationState → List AttestationState
  | draft => [signed]
  | signed => [active, superseded, revoked, disputed]
  | active => [staleCandidate, superseded, revoked, disputed]
  | staleCandidate => [active, superseded, revoked, disputed]
  | disputed => [active, superseded, revoked]
  | superseded => []
  | revoked => []

def canTransition (source target : AttestationState) : Bool := target ∈ source.transitions

/-- `STANDING_ATTESTATION_STATES` -/
def standing : List AttestationState := [signed, active]

/-- Revoked and superseded attestations have come to their end. -/
def final : List AttestationState := [revoked, superseded]

theorem not_canTransition_of_final {source target : AttestationState} (h : source ∈ final) :
    source.canTransition target = false := by
  cases source <;> simp_all [final, canTransition, transitions]

end AttestationState

inductive CaseState where
  | draft | assigned | inReview | changesRequested | signed | registered | declined | cancelled
  | superseded | revoked
  deriving DecidableEq, Repr

namespace CaseState

/-- `verificationCaseMachine.transitions` -/
def transitions : CaseState → List CaseState
  | draft => [assigned, cancelled]
  | assigned => [inReview, declined, cancelled]
  | inReview => [changesRequested, signed, cancelled]
  | changesRequested => [inReview, cancelled]
  | signed => [registered, revoked, superseded]
  | registered => [revoked, superseded]
  | declined => []
  | cancelled => []
  | superseded => []
  | revoked => []

def canTransition (source target : CaseState) : Bool := target ∈ source.transitions

/-- The states that no transition leaves. -/
def closed : List CaseState := [declined, cancelled, superseded, revoked]

theorem not_canTransition_of_closed {source target : CaseState} (h : source ∈ closed) :
    source.canTransition target = false := by
  cases source <;> simp_all [closed, canTransition, transitions]

end CaseState

end MpcRegistry.Verification
