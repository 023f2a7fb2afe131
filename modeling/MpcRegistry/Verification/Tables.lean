import MpcRegistry.Library.WriteSet
import MpcRegistry.Verification.EvidenceSnapshot

/-!
# The tables of reviews

Source: packages/db/migrations/0001_schema.sql:385-540, 0008_signature_requests.sql,
0011_verification_case_claims.sql, 0013_case_transitions.sql,
0063_attestation_revocation_and_claim_versions.sql and
apps/api/src/services/claim-state.ts. Row-level security shows a request only the rows
of its tenant, so the tables are those of one tenant. Columns that no modelled
statement reads are left out.
-/
namespace MpcRegistry.Verification
open Library WriteSet

/-! ## Rows -/

/-- `core.claims` -/
structure Claim where
  id : Uuid
  projectId : Uuid
  valueText : Text
  structured : Option StructuredClaim
  evidenceTier : Option EvidenceTier
  excludedByRule : Bool
  verificationState : VerificationState
  grade : Grade
  supersededByClaimId : Option Uuid
  staleSince : Option Nat
  version : Nat
  deriving DecidableEq, Repr

/-- `core.artifacts` -/
structure Artifact where
  id : Uuid
  projectId : Uuid
  revokedAt : Option Nat
  deriving DecidableEq, Repr

/-- `core.source_receipts` -/
structure Receipt where
  id : Uuid
  projectId : Uuid
  deriving DecidableEq, Repr

/-- `core.claim_conflicts` -/
structure Conflict where
  id : Uuid
  claimId : Uuid
  conflictType : Text
  resolvedAt : Option Nat
  deriving DecidableEq, Repr

/-- `core.verification_cases` with `core.verification_case_claims`. -/
structure Case where
  id : Uuid
  projectId : Uuid
  state : CaseState
  evidenceSnapshotHash : Text
  version : Nat
  claimIds : List Uuid
  /-- Not stored: what its creation read, of which the hash was taken. -/
  snapshot : SnapshotInput
  deriving DecidableEq, Repr

/-- `core.verification_attestations` -/
structure Attestation where
  id : Uuid
  caseId : Uuid
  assignmentId : Uuid
  credentialId : Uuid
  schemaId : Uuid
  attestationType : AttestationType
  claimScope : List Uuid
  evidenceSnapshotHash : Text
  payloadHash : Text
  signature : Text
  signerWalletAddress : Text
  signedAt : Nat
  state : AttestationState
  supersedesId : Option Uuid
  deriving DecidableEq, Repr

/-- `core.attestation_signature_requests`; its times are in seconds. -/
structure SignatureRequest where
  id : Uuid
  attestationId : Uuid
  nonce : Text
  evidenceSnapshotHash : Text
  payloadHash : Text
  issuedAt : Nat
  expiresAt : Nat
  consumedAt : Option Nat
  deriving DecidableEq, Repr

inductive DisputeOutcome where
  | upheld | dismissed
  deriving DecidableEq, Repr

/-- `resolved_at` with `resolution`, which is stored as the outcome and the rationale. -/
structure Resolution where
  resolvedAt : Nat
  outcome : DisputeOutcome
  rationale : Text
  deriving DecidableEq, Repr

/-- `core.attestation_disputes` -/
structure Dispute where
  id : Uuid
  attestationId : Uuid
  reasonCode : Text
  detail : Text
  raisedBy : Option Uuid
  resolution : Option Resolution
  deriving DecidableEq, Repr

/-- `core.verification_case_transitions` -/
structure CaseTransition where
  id : Uuid
  caseId : Uuid
  fromState : CaseState
  toState : CaseState
  reason : Text
  actorSubjectId : Option Uuid
  deriving DecidableEq, Repr

/-- A row of one of the tables. -/
inductive Row where
  | claim (row : Claim)
  | artifact (row : Artifact)
  | receipt (row : Receipt)
  | conflict (row : Conflict)
  | case (row : Case)
  | attestation (row : Attestation)
  | signatureRequest (row : SignatureRequest)
  | dispute (row : Dispute)
  | caseTransition (row : CaseTransition)
  deriving DecidableEq, Repr

inductive TableName where
  | claims | artifacts | receipts | conflicts | cases | attestations | signatureRequests | disputes
  | caseTransitions
  deriving DecidableEq, Repr

def Row.key : Row → TableName × Uuid
  | claim row => (.claims, row.id)
  | artifact row => (.artifacts, row.id)
  | receipt row => (.receipts, row.id)
  | conflict row => (.conflicts, row.id)
  | case row => (.cases, row.id)
  | attestation row => (.attestations, row.id)
  | signatureRequest row => (.signatureRequests, row.id)
  | dispute row => (.disputes, row.id)
  | caseTransition row => (.caseTransitions, row.id)

/-- The entries of the unique indexes besides the keys: the nonce of a signature request
and `attestations_one_signed_successor`. -/
inductive UniqueEntry where
  | nonce (nonce : Text)
  | signedSuccessor (supersedesId : Uuid)
  deriving DecidableEq, Repr

def Row.uniques : Row → List UniqueEntry
  | signatureRequest row => [.nonce row.nonce]
  | attestation row =>
    if row.state = .draft then [] else (row.supersedesId.map .signedSuccessor).toList
  | _ => []

abbrev Db := Database Row.key

def Db.empty (now : Nat) : Db := ⟨.empty, now⟩

/-! ## Reads -/

def Row.claim? : Row → Option Claim
  | claim row => some row
  | _ => none

def Row.case? : Row → Option Case
  | case row => some row
  | _ => none

def Row.attestation? : Row → Option Attestation
  | attestation row => some row
  | _ => none

def Row.signatureRequest? : Row → Option SignatureRequest
  | signatureRequest row => some row
  | _ => none

def Row.dispute? : Row → Option Dispute
  | dispute row => some row
  | _ => none

/-- The type of an attestation that stands over the claim. -/
def Row.standsOver (claimId : Uuid) : Row → Option AttestationType
  | attestation row =>
    if claimId ∈ row.claimScope ∧ row.state ∈ AttestationState.standing then
      some row.attestationType
    else none
  | _ => none

def Row.conflictsWith (claimId : Uuid) : Row → Option Conflict
  | conflict row => if row.claimId = claimId ∧ row.resolvedAt = none then some row else none
  | _ => none

def Row.openDisputeOf (attestationId : Uuid) : Row → Option Dispute
  | dispute row =>
    if row.attestationId = attestationId ∧ row.resolution = none then some row else none
  | _ => none

def Claim.fingerprint (claim : Claim) : ClaimFingerprint :=
  ⟨claim.id, claim.valueText, claim.grade, claim.structured⟩

namespace Db

def claim? (db : Db) (id : Uuid) : Option Claim := (db.rows.lookup (.claims, id)).bind Row.claim?

def artifact? (db : Db) (id : Uuid) : Option Artifact :=
  (db.rows.lookup (.artifacts, id)).bind fun
    | .artifact row => some row
    | _ => none

def case? (db : Db) (id : Uuid) : Option Case := (db.rows.lookup (.cases, id)).bind Row.case?

def attestation? (db : Db) (id : Uuid) : Option Attestation :=
  (db.rows.lookup (.attestations, id)).bind Row.attestation?

def signatureRequest? (db : Db) (id : Uuid) : Option SignatureRequest :=
  (db.rows.lookup (.signatureRequests, id)).bind Row.signatureRequest?

def dispute? (db : Db) (id : Uuid) : Option Dispute :=
  (db.rows.lookup (.disputes, id)).bind Row.dispute?

def snapshotClaims (db : Db) (projectId : Uuid) (claimIds : List Uuid) : List ClaimFingerprint :=
  db.rows.rows.filterMap fun
    | .claim row => if row.projectId = projectId ∧ row.id ∈ claimIds then some row.fingerprint else none
    | _ => none

def snapshotArtifacts (db : Db) (projectId : Uuid) : List Uuid :=
  db.rows.rows.filterMap fun
    | .artifact row => if row.projectId = projectId ∧ row.revokedAt = none then some row.id else none
    | _ => none

def snapshotReceipts (db : Db) (projectId : Uuid) : List Uuid :=
  db.rows.rows.filterMap fun
    | .receipt row => if row.projectId = projectId then some row.id else none
    | _ => none

/-- What `buildEvidenceSnapshot` reads, all of it at one moment. -/
def snapshotInput (db : Db) (projectId : Uuid) (claimIds : List Uuid) : SnapshotInput where
  claimIds := (db.snapshotClaims projectId claimIds).map (·.id)
  artifactIds := db.snapshotArtifacts projectId
  receiptIds := db.snapshotReceipts projectId
  claimFingerprints := db.snapshotClaims projectId claimIds

/-- `SELECT DISTINCT attestation_type` of those standing over the claim. -/
def standingAttestationTypes (db : Db) (claimId : Uuid) : List AttestationType :=
  (db.rows.rows.filterMap (Row.standsOver claimId)).dedup

/-- `count(*)` of the conflicts of the claim that are unresolved. -/
def unresolvedConflictCount (db : Db) (claimId : Uuid) : Nat :=
  (db.rows.rows.filterMap (Row.conflictsWith claimId)).length

/-- `count(*)` of the disputes of the attestation that are unresolved. -/
def unresolvedDisputeCount (db : Db) (attestationId : Uuid) : Nat :=
  (db.rows.rows.filterMap (Row.openDisputeOf attestationId)).length

/-- The active attestations with a claim in their scope. -/
def activeOver (db : Db) (claimId : Uuid) : List Attestation :=
  (db.rows.rows.filterMap Row.attestation?).filter fun row =>
    row.state = .active ∧ claimId ∈ row.claimScope

/-- `computeClaimGrade` as `recomputeGrade` asks for it. -/
def gradeOf (db : Db) (claim : Claim) : Grade :=
  computeClaimGrade {
    verificationState := claim.verificationState
    evidenceTier := claim.evidenceTier
    attestationTypes := db.standingAttestationTypes claim.id
    unresolvedConflictCount := db.unresolvedConflictCount claim.id
    excludedByRule := claim.excludedByRule }

/-- `deriveVerificationState` as `reassessClaim` asks for it. -/
def verificationStateOf (db : Db) (claim : Claim) : VerificationState :=
  deriveVerificationState claim.verificationState (db.standingAttestationTypes claim.id)

section Found

variable {db : Db} {id : Uuid}

theorem case?_eq_some {row : Case} :
    db.case? id = some row ↔ .case row ∈ db.rows ∧ row.id = id := by
  rw [case?, Option.bind_eq_some_iff]
  constructor
  · rintro ⟨found, hfound, hrow⟩
    cases found <;> cases hrow
    obtain ⟨hmem, hkey⟩ := Table.lookup_eq_some.mp hfound
    exact ⟨hmem, congrArg Prod.snd hkey⟩
  · rintro ⟨hmem, rfl⟩
    exact ⟨.case row, Table.lookup_eq_some.mpr ⟨hmem, rfl⟩, rfl⟩

theorem claim?_eq_some {row : Claim} :
    db.claim? id = some row ↔ .claim row ∈ db.rows ∧ row.id = id := by
  rw [claim?, Option.bind_eq_some_iff]
  constructor
  · rintro ⟨found, hfound, hrow⟩
    cases found <;> cases hrow
    obtain ⟨hmem, hkey⟩ := Table.lookup_eq_some.mp hfound
    exact ⟨hmem, congrArg Prod.snd hkey⟩
  · rintro ⟨hmem, rfl⟩
    exact ⟨.claim row, Table.lookup_eq_some.mpr ⟨hmem, rfl⟩, rfl⟩

theorem attestation?_eq_some {row : Attestation} :
    db.attestation? id = some row ↔ .attestation row ∈ db.rows ∧ row.id = id := by
  rw [attestation?, Option.bind_eq_some_iff]
  constructor
  · rintro ⟨found, hfound, hrow⟩
    cases found <;> cases hrow
    obtain ⟨hmem, hkey⟩ := Table.lookup_eq_some.mp hfound
    exact ⟨hmem, congrArg Prod.snd hkey⟩
  · rintro ⟨hmem, rfl⟩
    exact ⟨.attestation row, Table.lookup_eq_some.mpr ⟨hmem, rfl⟩, rfl⟩

theorem dispute?_eq_some {row : Dispute} :
    db.dispute? id = some row ↔ .dispute row ∈ db.rows ∧ row.id = id := by
  rw [dispute?, Option.bind_eq_some_iff]
  constructor
  · rintro ⟨found, hfound, hrow⟩
    cases found <;> cases hrow
    obtain ⟨hmem, hkey⟩ := Table.lookup_eq_some.mp hfound
    exact ⟨hmem, congrArg Prod.snd hkey⟩
  · rintro ⟨hmem, rfl⟩
    exact ⟨.dispute row, Table.lookup_eq_some.mpr ⟨hmem, rfl⟩, rfl⟩

end Found

end Db

/-! ## Writes -/

/-- What the UPDATE of `recomputeGrade` writes. -/
def Claim.recompute (db : Db) (claim : Claim) : Claim :=
  { claim with grade := db.gradeOf claim, version := claim.version + 1 }

/-- `reassessClaim` -/
def Claim.reassess (db : Db) (claim : Claim) : Claim :=
  { claim with verificationState := db.verificationStateOf claim }.recompute db

/-- A change of the state, and with it of the version (`bump_case_version`). -/
def Case.enter (state : CaseState) (row : Case) : Case :=
  { row with state, version := if row.state = state then row.version else row.version + 1 }

def Attestation.enter (state : AttestationState) (row : Attestation) : Attestation :=
  { row with state }

end MpcRegistry.Verification
