import MpcRegistry.Verification.Tables

/-!
# The requests on reviews

Source: apps/api/src/routes/verification.ts, routes/verification-corrections.ts and
routes/evidence.ts:893-1180, with the triggers of 0003_guards.sql and
0023_stale_propagation.sql. Statements that read and write only rows that their
transaction has locked are taken together. Authorization, assignments, credentials and
wallets can only refuse a request, as an abort does. Locks of keys and of the project,
which only keep more requests apart, are left out.
-/
namespace MpcRegistry.Verification
open Library WriteSet Utf16

/-! ## Requests -/

structure DraftRequest where
  caseId : Uuid
  assignmentId : Uuid
  credentialId : Uuid
  schemaId : Uuid
  attestationType : AttestationType
  claimScope : List Uuid
  payloadHash : Text
  supersedesId : Option Uuid
  deriving DecidableEq, Repr

structure SubmitRequest where
  attestationId : Uuid
  signatureRequestId : Uuid
  signature : Text
  actor : Option Uuid
  deriving DecidableEq, Repr

structure MoveRequest where
  caseId : Uuid
  toState : CaseState
  reason : Text
  expectedVersion : Nat
  actor : Option Uuid
  deriving DecidableEq, Repr

structure RevokeRequest where
  attestationId : Uuid
  reason : Text
  actor : Option Uuid
  deriving DecidableEq, Repr

structure DisputeRequest where
  attestationId : Uuid
  reasonCode : Text
  detail : Text
  actor : Option Uuid
  deriving DecidableEq, Repr

structure ResolveRequest where
  disputeId : Uuid
  outcome : DisputeOutcome
  rationale : Text
  deriving DecidableEq, Repr

structure ClaimRequest where
  projectId : Uuid
  valueText : Text
  structured : Option StructuredClaim
  evidenceTier : Option EvidenceTier
  deriving DecidableEq, Repr

/-- `staleClaims` and `staleAttestations` stand for what propagates staleness: a source
connection, a document, a credential or a schema. -/
inductive Request where
  | createCase (projectId : Uuid) (claimIds : List Uuid)
  | moveCase (request : MoveRequest)
  | draft (request : DraftRequest)
  | requestSignature (attestationId : Uuid)
  | submit (request : SubmitRequest)
  | revoke (request : RevokeRequest)
  | dispute (request : DisputeRequest)
  | resolve (request : ResolveRequest)
  | recordConflict (claimId : Uuid) (conflictType : Text) (expectedVersion : Nat)
  | addClaim (request : ClaimRequest)
  | correctClaim (claimId : Uuid) (expectedVersion : Nat) (request : ClaimRequest)
  | addArtifact (projectId : Uuid)
  | revokeArtifact (artifactId : Uuid)
  | addReceipt (projectId : Uuid)
  | staleClaim (claimId : Uuid)
  | staleAttestations (ids : List Uuid)
  deriving DecidableEq, Repr

inductive Refusal where
  | notFound
  | requestInvalid
  | evidenceSnapshotEmpty
  | evidenceSnapshotClaimMissing (requested found : Nat)
  | evidenceNotCanonical
  | versionMismatch (expected current : Nat)
  | invalidCaseTransition (fromState toState : CaseState) (allowed : List CaseState)
  | caseStateForbids (state : CaseState)
  | attestationScopeOutsideCase (outside : List Uuid)
  | supersedeScopeNarrowed (uncovered : List Uuid)
  | invalidStateTransition (fromState toState : AttestationState) (allowed : List AttestationState)
  | attestationAlreadySigned
  | signatureRequestUnusable
  | evidenceSnapshotChanged
  | signatureInvalid
  | signedBodyModified
  | disputeAlreadyResolved (resolvedAt : Nat)
  | claimAlreadySuperseded (successor : Uuid)
  | uniqueViolation
  | outOfTurn
  deriving DecidableEq, Repr

/-- What is signed. -/
structure AttestationMessage where
  attestationId : Uuid
  schemaId : Uuid
  evidenceSnapshotHash : Text
  assignmentId : Uuid
  credentialId : Uuid
  payloadHash : Text
  issuedAt : Nat
  expiresAt : Nat
  nonce : Text
  deriving DecidableEq, Repr

/-- What a statement is told: the request an idle worker takes up, what `randomUUID` and
`newSignatureNonce` give, `Date.now()` and the time that passes. -/
structure Given where
  request : Request
  uuid : Uuid
  nonce : Text
  dateNow : Nat
  time : Nat

/-! ## What is written -/

/-- The columns of a new claim; `computeClaimGrade` as the route asks for it. -/
def ClaimRequest.row (request : ClaimRequest) (id : Uuid) : Claim where
  id
  projectId := request.projectId
  valueText := request.valueText
  structured := request.structured
  evidenceTier := request.evidenceTier
  excludedByRule := false
  verificationState := .unreviewed
  grade := computeClaimGrade {
    verificationState := .unreviewed
    evidenceTier := request.evidenceTier
    attestationTypes := []
    unresolvedConflictCount := 0
    excludedByRule := false }
  supersededByClaimId := none
  staleSince := none
  version := 1

/-- `UNSIGNED_DRAFT_SIGNER` -/
def unsignedDraftSigner : Text := units "0x0000000000000000000000000000000000000000"

def DraftRequest.row (request : DraftRequest) (id : Uuid) (startedAt : Nat) (hash : Text) :
    Attestation where
  id
  caseId := request.caseId
  assignmentId := request.assignmentId
  credentialId := request.credentialId
  schemaId := request.schemaId
  attestationType := request.attestationType
  claimScope := request.claimScope
  evidenceSnapshotHash := hash
  payloadHash := request.payloadHash
  signature := []
  signerWalletAddress := unsignedDraftSigner
  signedAt := startedAt
  state := .draft
  supersedesId := request.supersedesId

/-- `SIGNATURE_REQUEST_TTL_MS` -/
def signatureRequestTtlMs : Nat := 10 * 60 * 1000

def Attestation.signatureRequest (row : Attestation) (given : Given) : SignatureRequest where
  id := given.uuid
  attestationId := row.id
  nonce := given.nonce
  evidenceSnapshotHash := row.evidenceSnapshotHash
  payloadHash := row.payloadHash
  issuedAt := given.dateNow / 1000
  expiresAt := (given.dateNow + signatureRequestTtlMs) / 1000
  consumedAt := none

def message (row : Attestation) (request : SignatureRequest) : AttestationMessage where
  attestationId := row.id
  schemaId := row.schemaId
  evidenceSnapshotHash := request.evidenceSnapshotHash
  assignmentId := row.assignmentId
  credentialId := row.credentialId
  payloadHash := request.payloadHash
  issuedAt := request.issuedAt
  expiresAt := request.expiresAt
  nonce := request.nonce

def Attestation.sign (signature signer : Text) (signedAt : Nat) (row : Attestation) : Attestation :=
  { row with signature, signerWalletAddress := signer, signedAt, state := .signed }

/-- `protect_signed_attestation`: whether it lets the row pass. -/
def protectSignedAttestation (old new : Attestation) : Bool :=
  old.state = .draft ||
    (new.evidenceSnapshotHash = old.evidenceSnapshotHash && new.payloadHash = old.payloadHash &&
      new.signature = old.signature && new.signedAt = old.signedAt &&
      new.signerWalletAddress = old.signerWalletAddress && new.claimScope = old.claimScope)

/-- The change of a claim that its correction makes, and the one of being marked. -/
def Claim.markStale (now : Nat) (claim : Claim) : Claim :=
  { claim with staleSince := some (claim.staleSince.getD now) }

def Claim.supersede (successor : Uuid) (now : Nat) (claim : Claim) : Claim :=
  { claim.markStale now with supersededByClaimId := some successor, version := claim.version + 1 }

/-- `propagate_claim_to_attestations`, for a claim that is being marked. -/
def Db.propagateClaim (db : Db) (claim : Claim) : List (Change Row) :=
  if claim.staleSince.isSome then []
  else (db.activeOver claim.id).map fun row => .update (.attestation (row.enter .staleCandidate))

/-! ## Transactions -/

/-- A submission that has passed the checks. -/
structure Submission where
  request : SubmitRequest
  startedAt : Nat
  signatureRequest : SignatureRequest
  attestation : Attestation
  signer : Text
  deriving DecidableEq, Repr

/-- What a request does next, with what it has read. -/
inductive Stage where
  | idle
  | begun (request : Request) (startedAt : Nat)
  | caseClaimsRead (projectId : Uuid) (claims : List ClaimFingerprint)
  | caseArtifactsRead (projectId : Uuid) (claims : List ClaimFingerprint) (artifactIds : List Uuid)
  | draftContextRead (request : DraftRequest) (projectId : Uuid) (startedAt : Nat)
  | draftChecked (request : DraftRequest) (startedAt : Nat)
  | drafted (caseId : Uuid)
  | draftRead (row : Attestation)
  | requestConsumed (request : SubmitRequest) (signatureRequest : SignatureRequest) (startedAt : Nat)
  | accepted (submission : Submission)
  | attestationSigned (submission : Submission)
  | caseSigned (submission : Submission)
  | predecessorRead (submission : Submission) (predecessor : Uuid) (caseState : CaseState)
  | predecessorSuperseded (submission : Submission) (caseId : Uuid) (caseState : CaseState)
  | revocationRead (request : RevokeRequest) (caseState : CaseState)
  | attestationRevoked (request : RevokeRequest) (row : Attestation) (caseState : CaseState)
  | reassessing (remaining : List Uuid)
  | disputeResolved (dispute : Dispute) (outcome : DisputeOutcome)
  | disputesCounted (dispute : Dispute) (outcome : DisputeOutcome) (remaining : Nat)
  | disputeSettled (dispute : Dispute) (outcome : DisputeOutcome) (remaining : Nat)
  | conflictRecorded (claimId : Uuid)
  | done
  deriving DecidableEq

/-- The states that `verification-cases/:caseId/transitions` takes. -/
def movableStates : List CaseState := [.inReview, .changesRequested, .declined, .cancelled]

/-- The case states in which an assignee drafts. -/
def draftingStates : List CaseState := [.assigned, .inReview, .changesRequested]

section Statements

variable (keccak_256 : Canonical.Bytes → Canonical.Digest) (recover : AttestationMessage → Text → Option Text)
  (db : Db) (given : Given)

/-- The judgment whether the attestation may be superseded (`assertSupersedable`). -/
def assertSupersedable (request : DraftRequest) (projectId predecessorId : Uuid) :
    Except Refusal Unit :=
  match db.attestation? predecessorId with
  | none => .error .notFound
  | some predecessor =>
    if (db.case? predecessor.caseId).any (·.projectId = projectId) = false then .error .notFound
    else if predecessor.state.canTransition .superseded = false then
      .error (.invalidStateTransition predecessor.state .superseded predecessor.state.transitions)
    else if ¬ predecessor.claimScope ⊆ request.claimScope then
      .error (.supersedeScopeNarrowed (predecessor.claimScope.filter (· ∉ request.claimScope)))
    else .ok ()

/-- The first statement of a request. -/
def begin (startedAt : Nat) : Request → Except Refusal (Stage × List (Change Row))
  | .createCase projectId claimIds =>
    let claims := db.snapshotClaims projectId claimIds
    if claimIds = [] then .error .evidenceSnapshotEmpty
    else if claims.length ≠ claimIds.length then
      .error (.evidenceSnapshotClaimMissing claimIds.length claims.length)
    else .ok (.caseClaimsRead projectId claims, [])
  | .moveCase request =>
    match db.case? request.caseId with
    | none => .error .notFound
    | some current =>
      if request.toState ∉ movableStates then .error .requestInvalid
      else if request.expectedVersion ≠ current.version then
        .error (.versionMismatch request.expectedVersion current.version)
      else if current.state.canTransition request.toState = false then
        .error (.invalidCaseTransition current.state request.toState current.state.transitions)
      else .ok (.done, [.update (.case (current.enter request.toState)), .insert (.caseTransition
        ⟨given.uuid, current.id, current.state, request.toState, request.reason, request.actor⟩)])
  | .draft request =>
    match db.case? request.caseId with
    | none => .error .notFound
    | some current =>
      if current.state ∉ draftingStates then .error (.caseStateForbids current.state)
      else if request.claimScope = [] then .error .requestInvalid
      else if ¬ request.claimScope ⊆ current.claimIds then
        .error (.attestationScopeOutsideCase (request.claimScope.filter (· ∉ current.claimIds)))
      else .ok (.draftContextRead request current.projectId startedAt, [])
  | .requestSignature attestationId =>
    match db.attestation? attestationId with
    | none => .error .notFound
    | some row =>
      if row.state ≠ .draft then .error .attestationAlreadySigned else .ok (.draftRead row, [])
  | .submit request =>
    match db.signatureRequest? request.signatureRequestId with
    | none => .error .signatureRequestUnusable
    | some row =>
      if row.attestationId = request.attestationId ∧ row.consumedAt = none ∧
          startedAt < row.expiresAt * 1000 then
        .ok (.requestConsumed request row startedAt,
          [.update (.signatureRequest { row with consumedAt := some startedAt })])
      else .error .signatureRequestUnusable
  | .revoke request =>
    match db.attestation? request.attestationId with
    | none => .error .notFound
    | some row =>
      match db.case? row.caseId with
      | none => .error .notFound
      | some current => .ok (.revocationRead request current.state, [])
  | .dispute request =>
    match db.attestation? request.attestationId with
    | none => .error .notFound
    | some row =>
      if row.state ≠ .disputed ∧ row.state.canTransition .disputed = false then
        .error (.invalidStateTransition row.state .disputed row.state.transitions)
      else .ok (.done, [.insert (.dispute
        ⟨given.uuid, row.id, request.reasonCode, request.detail, request.actor, none⟩),
        .update (.attestation (row.enter .disputed))])
  | .resolve request =>
    match db.dispute? request.disputeId with
    | none => .error .notFound
    | some row =>
      match row.resolution with
      | some resolution => .error (.disputeAlreadyResolved resolution.resolvedAt)
      | none =>
        .ok (.disputeResolved row request.outcome, [.update (.dispute { row with
          resolution := some ⟨startedAt, request.outcome, request.rationale⟩ })])
  | .recordConflict claimId conflictType expectedVersion =>
    match db.claim? claimId with
    | none => .error .notFound
    | some current =>
      if expectedVersion ≠ current.version then
        .error (.versionMismatch expectedVersion current.version)
      else .ok (.conflictRecorded claimId, [.update (.claim current),
        .insert (.conflict ⟨given.uuid, claimId, conflictType, none⟩)])
  | .addClaim request => .ok (.done, [.insert (.claim (request.row given.uuid))])
  | .correctClaim claimId expectedVersion request =>
    match db.claim? claimId with
    | none => .error .notFound
    | some previous =>
      if expectedVersion ≠ previous.version then
        .error (.versionMismatch expectedVersion previous.version)
      else
        match previous.supersededByClaimId with
        | some successor => .error (.claimAlreadySuperseded successor)
        | none =>
          .ok (.done, [.insert (.claim { request.row given.uuid with
              projectId := previous.projectId }),
            .update (.claim (previous.supersede given.uuid startedAt))] ++
              db.propagateClaim previous)
  | .addArtifact projectId => .ok (.done, [.insert (.artifact ⟨given.uuid, projectId, none⟩)])
  | .revokeArtifact artifactId =>
    match db.artifact? artifactId with
    | none => .error .notFound
    | some row => .ok (.done, [.update (.artifact { row with revokedAt := some startedAt })])
  | .addReceipt projectId => .ok (.done, [.insert (.receipt ⟨given.uuid, projectId⟩)])
  | .staleClaim claimId =>
    match db.claim? claimId with
    | none => .error .notFound
    | some current =>
      .ok (.done, .update (.claim (current.markStale startedAt)) :: db.propagateClaim current)
  | .staleAttestations ids =>
    .ok (.done, ((db.rows.rows.filterMap Row.attestation?).filter fun row =>
      row.state = .active ∧ row.id ∈ ids).map fun row =>
        .update (.attestation (row.enter .staleCandidate)))

def statement : Stage → Except Refusal (Stage × List (Change Row))
  | .idle => .ok (.begun given.request db.now, [])
  | .begun request startedAt => begin db given startedAt request
  | .caseClaimsRead projectId claims =>
    .ok (.caseArtifactsRead projectId claims (db.snapshotArtifacts projectId), [])
  | .caseArtifactsRead projectId claims artifactIds =>
    let snapshot : SnapshotInput :=
      ⟨claims.map (·.id), artifactIds, db.snapshotReceipts projectId, claims⟩
    match hashSnapshotInput keccak_256 snapshot with
    | .error _ => .error .evidenceNotCanonical
    | .ok hash => .ok (.done, [.insert (.case
        ⟨given.uuid, projectId, .assigned, hash, 1, snapshot.claimIds, snapshot⟩)])
  | .draftContextRead request projectId startedAt =>
    match request.supersedesId with
    | none => .ok (.draftChecked request startedAt, [])
    | some predecessorId =>
      (assertSupersedable db request projectId predecessorId).map fun _ =>
        (.draftChecked request startedAt, [])
  | .draftChecked request startedAt =>
    match db.case? request.caseId with
    | none => .error .notFound
    | some current => .ok (.drafted request.caseId,
        [.insert (.attestation (request.row given.uuid startedAt current.evidenceSnapshotHash))])
  | .drafted caseId =>
    match db.case? caseId with
    | none => .ok (.done, [])
    | some current =>
      if current.state = .assigned then .ok (.done, [.update (.case (current.enter .inReview))])
      else .ok (.done, [])
  | .draftRead row => .ok (.done, [.insert (.signatureRequest (row.signatureRequest given))])
  | .requestConsumed request signatureRequest startedAt =>
    match db.attestation? request.attestationId with
    | none => .error .notFound
    | some row =>
      match db.case? row.caseId with
      | none => .error .notFound
      | some current =>
        if current.evidenceSnapshotHash ≠ signatureRequest.evidenceSnapshotHash then
          .error .evidenceSnapshotChanged
        else
          match recover (message row signatureRequest) request.signature with
          | none => .error .signatureInvalid
          | some signer => .ok (.accepted ⟨request, startedAt, signatureRequest, row, signer⟩, [])
  | .accepted submission =>
    match db.attestation? submission.attestation.id with
    | none => .error .notFound
    | some row =>
      let new := row.sign submission.request.signature submission.signer submission.startedAt
      if protectSignedAttestation row new then
        .ok (.attestationSigned submission, [.update (.attestation new)])
      else .error .signedBodyModified
  | .attestationSigned submission =>
    match db.case? submission.attestation.caseId with
    | none => .error .notFound
    | some current => .ok (.caseSigned submission, [.update (.case (current.enter .signed))])
  | .caseSigned submission =>
    match submission.attestation.supersedesId with
    | none => .ok (.reassessing (sortIds submission.attestation.claimScope), [])
    | some predecessorId =>
      match db.attestation? predecessorId with
      | none => .error .notFound
      | some predecessor =>
        match db.case? predecessor.caseId with
        | none => .error .notFound
        | some current => .ok (.predecessorRead submission predecessorId current.state, [])
  | .predecessorRead submission predecessorId caseState =>
    match db.attestation? predecessorId with
    | none => .error .notFound
    | some predecessor =>
      if predecessor.state.canTransition .superseded = false then
        .error (.invalidStateTransition predecessor.state .superseded predecessor.state.transitions)
      else .ok (.predecessorSuperseded submission predecessor.caseId caseState,
        [.update (.attestation (predecessor.enter .superseded))])
  | .predecessorSuperseded submission caseId caseState =>
    let scope := sortIds submission.attestation.claimScope
    if caseState.canTransition .superseded = false then .ok (.reassessing scope, [])
    else
      match db.case? caseId with
      | none => .error .notFound
      | some current => .ok (.reassessing scope, [.update (.case (current.enter .superseded)),
          .insert (.caseTransition ⟨given.uuid, caseId, caseState, .superseded,
            units "Superseded by attestation " ++ submission.attestation.id,
            submission.request.actor⟩)])
  | .revocationRead request caseState =>
    match db.attestation? request.attestationId with
    | none => .error .notFound
    | some row =>
      if row.state.canTransition .revoked = false then
        .error (.invalidStateTransition row.state .revoked row.state.transitions)
      else .ok (.attestationRevoked request row caseState,
        [.update (.attestation (row.enter .revoked))])
  | .attestationRevoked request row caseState =>
    let scope := sortIds row.claimScope
    if caseState.canTransition .revoked = false then .ok (.reassessing scope, [])
    else
      match db.case? row.caseId with
      | none => .error .notFound
      | some current => .ok (.reassessing scope, [.update (.case (current.enter .revoked)),
          .insert (.caseTransition ⟨given.uuid, row.caseId, caseState, .revoked,
            units "Attestation revoked: " ++ request.reason, request.actor⟩)])
  | .reassessing [] => .error .outOfTurn
  | .reassessing (claimId :: remaining) =>
    match db.claim? claimId with
    | none => .error .notFound
    | some claim => .ok (.reassessing remaining, [.update (.claim (claim.reassess db))])
  | .disputeResolved dispute outcome => .ok (.disputesCounted dispute outcome
      (db.unresolvedDisputeCount dispute.attestationId), [])
  | .disputesCounted dispute outcome remaining =>
    if outcome = .dismissed ∧ remaining = 0 then
      match db.attestation? dispute.attestationId with
      | none => .ok (.disputeSettled dispute outcome remaining, [])
      | some row =>
        if row.state = .disputed then .ok (.disputeSettled dispute outcome remaining,
          [.update (.attestation (row.enter .active))])
        else .ok (.disputeSettled dispute outcome remaining, [])
    else .ok (.disputeSettled dispute outcome remaining, [])
  | .disputeSettled .. => .error .outOfTurn
  | .conflictRecorded claimId =>
    match db.claim? claimId with
    | none => .error .notFound
    | some claim => .ok (.done, [.update (.claim (claim.recompute db))])
  | .done => .error .outOfTurn

end Statements

def Stage.isDone : Stage → Bool
  | .reassessing [] => true
  | .disputeSettled .. => true
  | .done => true
  | _ => false

def program (keccak_256 : Canonical.Bytes → Canonical.Digest) (recover : AttestationMessage → Text → Option Text) :
    Program Row.key Stage Given Refusal UniqueEntry where
  idle := .idle
  statement db stage given := statement keccak_256 recover db given stage
  done := Stage.isDone
  held _ := []
  uniques := Row.uniques
  violation := .uniqueViolation
  elapsed given := given.time
  held_idle := rfl

def StartsEmpty (db : Db) : Prop := ∃ now, db = Db.empty now

end MpcRegistry.Verification
