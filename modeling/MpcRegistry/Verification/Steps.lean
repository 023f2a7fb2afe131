import MpcRegistry.Verification.Requests

/-!
# What the requests on reviews can do

Every statement that succeeds, with what it has found and what it writes.
-/
namespace MpcRegistry.Verification
open Library WriteSet Utf16 Outcome

section Steps

variable (keccak_256 : Canonical.Bytes → Canonical.Digest)
  (recover : AttestationMessage → Text → Option Text) (db : Db) (given : Given)

/-- A statement that succeeds: the stage before it and after it and what it writes. -/
inductive Step : Stage → Stage → List (Change Row) → Prop where
  | begin : Step .idle (.begun given.request db.now) []
  | readClaims (projectId : Uuid) (claimIds : List Uuid) (startedAt : Nat)
      (nonempty : claimIds ≠ [])
      (found : (db.snapshotClaims projectId claimIds).length = claimIds.length) :
      Step (.begun (.createCase projectId claimIds) startedAt)
        (.caseClaimsRead projectId (db.snapshotClaims projectId claimIds)) []
  | readArtifacts (projectId : Uuid) (claims : List ClaimFingerprint) :
      Step (.caseClaimsRead projectId claims)
        (.caseArtifactsRead projectId claims (db.snapshotArtifacts projectId)) []
  | createCase (projectId : Uuid) (claims : List ClaimFingerprint) (artifactIds : List Uuid)
      (snapshot : SnapshotInput) (hash : Text)
      (read : snapshot = ⟨claims.map (·.id), artifactIds, db.snapshotReceipts projectId, claims⟩)
      (hashed : hashSnapshotInput keccak_256 snapshot = .ok hash) :
      Step (.caseArtifactsRead projectId claims artifactIds) .done
        [.insert (.case ⟨given.uuid, projectId, .assigned, hash, 1, snapshot.claimIds, snapshot⟩)]
  | moveCase (request : MoveRequest) (startedAt : Nat) (current : Case)
      (found : db.case? request.caseId = some current) (movable : request.toState ∈ movableStates)
      (version : request.expectedVersion = current.version)
      (moves : current.state.canTransition request.toState = true) :
      Step (.begun (.moveCase request) startedAt) .done
        [.update (.case (current.enter request.toState)), .insert (.caseTransition
          ⟨given.uuid, current.id, current.state, request.toState, request.reason, request.actor⟩)]
  | readDraftContext (request : DraftRequest) (startedAt : Nat) (current : Case)
      (found : db.case? request.caseId = some current) (drafting : current.state ∈ draftingStates)
      (nonempty : request.claimScope ≠ []) (inCase : request.claimScope ⊆ current.claimIds) :
      Step (.begun (.draft request) startedAt)
        (.draftContextRead request current.projectId startedAt) []
  | draftFirst (request : DraftRequest) (projectId : Uuid) (startedAt : Nat)
      (first : request.supersedesId = none) :
      Step (.draftContextRead request projectId startedAt) (.draftChecked request startedAt) []
  | draftCorrection (request : DraftRequest) (projectId : Uuid) (startedAt : Nat)
      (predecessorId : Uuid) (predecessor : Attestation)
      (corrects : request.supersedesId = some predecessorId)
      (found : db.attestation? predecessorId = some predecessor)
      (supersedable : predecessor.state.canTransition .superseded = true)
      (covers : predecessor.claimScope ⊆ request.claimScope) :
      Step (.draftContextRead request projectId startedAt) (.draftChecked request startedAt) []
  | draft (request : DraftRequest) (startedAt : Nat) (current : Case)
      (found : db.case? request.caseId = some current) :
      Step (.draftChecked request startedAt) (.drafted request.caseId)
        [.insert (.attestation (request.row given.uuid startedAt current.evidenceSnapshotHash))]
  | enterReview (caseId : Uuid) (current : Case) (found : db.case? caseId = some current)
      (assigned : current.state = .assigned) :
      Step (.drafted caseId) .done [.update (.case (current.enter .inReview))]
  | keepState (caseId : Uuid)
      (other : ∀ current, db.case? caseId = some current → current.state ≠ .assigned) :
      Step (.drafted caseId) .done []
  | readDraft (attestationId : Uuid) (startedAt : Nat) (row : Attestation)
      (found : db.attestation? attestationId = some row) (draft : row.state = .draft) :
      Step (.begun (.requestSignature attestationId) startedAt) (.draftRead row) []
  | requestSignature (row : Attestation) :
      Step (.draftRead row) .done [.insert (.signatureRequest (row.signatureRequest given))]
  | consume (request : SubmitRequest) (startedAt : Nat) (row : SignatureRequest)
      (found : db.signatureRequest? request.signatureRequestId = some row)
      (asked : row.attestationId = request.attestationId) (unused : row.consumedAt = none)
      (valid : startedAt < row.expiresAt * 1000) :
      Step (.begun (.submit request) startedAt) (.requestConsumed request row startedAt)
        [.update (.signatureRequest { row with consumedAt := some startedAt })]
  | accept (request : SubmitRequest) (signatureRequest : SignatureRequest) (startedAt : Nat)
      (row : Attestation) (current : Case) (signer : Text)
      (found : db.attestation? request.attestationId = some row)
      (ofCase : db.case? row.caseId = some current)
      (unchanged : current.evidenceSnapshotHash = signatureRequest.evidenceSnapshotHash)
      (recovers : recover (message row signatureRequest) request.signature = some signer) :
      Step (.requestConsumed request signatureRequest startedAt)
        (.accepted ⟨request, startedAt, signatureRequest, row, signer⟩) []
  | sign (submission : Submission) (row new : Attestation)
      (found : db.attestation? submission.attestation.id = some row)
      (signed : new = row.sign submission.request.signature submission.signer submission.startedAt)
      (unprotected : protectSignedAttestation row new = true) :
      Step (.accepted submission) (.attestationSigned submission) [.update (.attestation new)]
  | signCase (submission : Submission) (current : Case)
      (found : db.case? submission.attestation.caseId = some current) :
      Step (.attestationSigned submission) (.caseSigned submission)
        [.update (.case (current.enter .signed))]
  | firstSigned (submission : Submission) (first : submission.attestation.supersedesId = none) :
      Step (.caseSigned submission) (.reassessing (sortIds submission.attestation.claimScope)) []
  | readPredecessor (submission : Submission) (predecessorId : Uuid) (predecessor : Attestation)
      (current : Case) (corrects : submission.attestation.supersedesId = some predecessorId)
      (found : db.attestation? predecessorId = some predecessor)
      (ofCase : db.case? predecessor.caseId = some current) :
      Step (.caseSigned submission) (.predecessorRead submission predecessorId current.state) []
  | supersede (submission : Submission) (predecessorId : Uuid) (caseState : CaseState)
      (predecessor : Attestation) (found : db.attestation? predecessorId = some predecessor)
      (supersedable : predecessor.state.canTransition .superseded = true) :
      Step (.predecessorRead submission predecessorId caseState)
        (.predecessorSuperseded submission predecessor.caseId caseState)
        [.update (.attestation (predecessor.enter .superseded))]
  | keepPredecessorCase (submission : Submission) (caseId : Uuid) (caseState : CaseState)
      (stays : caseState.canTransition .superseded = false) :
      Step (.predecessorSuperseded submission caseId caseState)
        (.reassessing (sortIds submission.attestation.claimScope)) []
  | supersedeCase (submission : Submission) (caseId : Uuid) (caseState : CaseState) (current : Case)
      (moves : caseState.canTransition .superseded = true)
      (found : db.case? caseId = some current) :
      Step (.predecessorSuperseded submission caseId caseState)
        (.reassessing (sortIds submission.attestation.claimScope))
        [.update (.case (current.enter .superseded)), .insert (.caseTransition
          ⟨given.uuid, caseId, caseState, .superseded,
            units "Superseded by attestation " ++ submission.attestation.id,
            submission.request.actor⟩)]
  | readRevocation (request : RevokeRequest) (startedAt : Nat) (row : Attestation) (current : Case)
      (found : db.attestation? request.attestationId = some row)
      (ofCase : db.case? row.caseId = some current) :
      Step (.begun (.revoke request) startedAt) (.revocationRead request current.state) []
  | revoke (request : RevokeRequest) (caseState : CaseState) (row : Attestation)
      (found : db.attestation? request.attestationId = some row)
      (revocable : row.state.canTransition .revoked = true) :
      Step (.revocationRead request caseState) (.attestationRevoked request row caseState)
        [.update (.attestation (row.enter .revoked))]
  | keepRevokedCase (request : RevokeRequest) (row : Attestation) (caseState : CaseState)
      (stays : caseState.canTransition .revoked = false) :
      Step (.attestationRevoked request row caseState) (.reassessing (sortIds row.claimScope)) []
  | revokeCase (request : RevokeRequest) (row : Attestation) (caseState : CaseState) (current : Case)
      (moves : caseState.canTransition .revoked = true)
      (found : db.case? row.caseId = some current) :
      Step (.attestationRevoked request row caseState) (.reassessing (sortIds row.claimScope))
        [.update (.case (current.enter .revoked)), .insert (.caseTransition
          ⟨given.uuid, row.caseId, caseState, .revoked,
            units "Attestation revoked: " ++ request.reason, request.actor⟩)]
  | reassess (claimId : Uuid) (remaining : List Uuid) (claim : Claim)
      (found : db.claim? claimId = some claim) :
      Step (.reassessing (claimId :: remaining)) (.reassessing remaining)
        [.update (.claim (claim.reassess db))]
  | dispute (request : DisputeRequest) (startedAt : Nat) (row : Attestation)
      (found : db.attestation? request.attestationId = some row)
      (disputable : row.state = .disputed ∨ row.state.canTransition .disputed = true) :
      Step (.begun (.dispute request) startedAt) .done
        [.insert (.dispute
          ⟨given.uuid, row.id, request.reasonCode, request.detail, request.actor, none⟩),
          .update (.attestation (row.enter .disputed))]
  | resolve (request : ResolveRequest) (startedAt : Nat) (row : Dispute)
      (found : db.dispute? request.disputeId = some row) (unresolved : row.resolution = none) :
      Step (.begun (.resolve request) startedAt) (.disputeResolved row request.outcome)
        [.update (.dispute { row with
          resolution := some ⟨startedAt, request.outcome, request.rationale⟩ })]
  | countDisputes (dispute : Dispute) (outcome : DisputeOutcome) :
      Step (.disputeResolved dispute outcome)
        (.disputesCounted dispute outcome (db.unresolvedDisputeCount dispute.attestationId)) []
  | activate (dispute : Dispute) (row : Attestation)
      (found : db.attestation? dispute.attestationId = some row) (disputed : row.state = .disputed) :
      Step (.disputesCounted dispute .dismissed 0) (.disputeSettled dispute .dismissed 0)
        [.update (.attestation (row.enter .active))]
  | settle (dispute : Dispute) (outcome : DisputeOutcome) (remaining : Nat)
      (stays : outcome = .dismissed → remaining = 0 →
        ∀ row, db.attestation? dispute.attestationId = some row → row.state ≠ .disputed) :
      Step (.disputesCounted dispute outcome remaining) (.disputeSettled dispute outcome remaining) []
  | recordConflict (claimId : Uuid) (conflictType : Text) (expectedVersion startedAt : Nat)
      (current : Claim) (found : db.claim? claimId = some current)
      (version : expectedVersion = current.version) :
      Step (.begun (.recordConflict claimId conflictType expectedVersion) startedAt)
        (.conflictRecorded claimId)
        [.update (.claim current), .insert (.conflict ⟨given.uuid, claimId, conflictType, none⟩)]
  | recompute (claimId : Uuid) (claim : Claim) (found : db.claim? claimId = some claim) :
      Step (.conflictRecorded claimId) .done [.update (.claim (claim.recompute db))]
  | addClaim (request : ClaimRequest) (startedAt : Nat) :
      Step (.begun (.addClaim request) startedAt) .done [.insert (.claim (request.row given.uuid))]
  | correctClaim (claimId : Uuid) (expectedVersion startedAt : Nat) (request : ClaimRequest)
      (previous : Claim) (found : db.claim? claimId = some previous)
      (version : expectedVersion = previous.version) (current : previous.supersededByClaimId = none) :
      Step (.begun (.correctClaim claimId expectedVersion request) startedAt) .done
        ([.insert (.claim { request.row given.uuid with projectId := previous.projectId }),
          .update (.claim (previous.supersede given.uuid startedAt))] ++ db.propagateClaim previous)
  | addArtifact (projectId : Uuid) (startedAt : Nat) :
      Step (.begun (.addArtifact projectId) startedAt) .done
        [.insert (.artifact ⟨given.uuid, projectId, none⟩)]
  | revokeArtifact (artifactId : Uuid) (startedAt : Nat) (row : Artifact)
      (found : db.artifact? artifactId = some row) :
      Step (.begun (.revokeArtifact artifactId) startedAt) .done
        [.update (.artifact { row with revokedAt := some startedAt })]
  | addReceipt (projectId : Uuid) (startedAt : Nat) :
      Step (.begun (.addReceipt projectId) startedAt) .done [.insert (.receipt ⟨given.uuid, projectId⟩)]
  | staleClaim (claimId : Uuid) (startedAt : Nat) (current : Claim)
      (found : db.claim? claimId = some current) :
      Step (.begun (.staleClaim claimId) startedAt) .done
        (.update (.claim (current.markStale startedAt)) :: db.propagateClaim current)
  | staleAttestations (ids : List Uuid) (startedAt : Nat) :
      Step (.begun (.staleAttestations ids) startedAt) .done
        (((db.rows.rows.filterMap Row.attestation?).filter fun row =>
          row.state = .active ∧ row.id ∈ ids).map fun row =>
            .update (.attestation (row.enter .staleCandidate)))

end Steps

variable {keccak_256 : Canonical.Bytes → Canonical.Digest}
  {recover : AttestationMessage → Text → Option Text} {db : Db} {given : Given} {stage next : Stage}
  {changes : List (Change Row)}

theorem step_of_begin {request : Request} {startedAt : Nat}
    (h : begin db given startedAt request = .ok (next, changes)) :
    Step keccak_256 recover db given (.begun request startedAt) next changes := by
  cases request with
  | createCase projectId claimIds =>
    obtain ⟨hnonempty, h⟩ := guard_ok.mp h
    obtain ⟨hfound, h⟩ := guard_ok.mp h
    cases h
    exact .readClaims _ _ _ hnonempty (not_not.mp hfound)
  | moveCase request =>
    simp only [begin] at h
    split at h
    · cases h
    · next current hfound =>
      obtain ⟨hmovable, h⟩ := guard_ok.mp h
      obtain ⟨hversion, h⟩ := guard_ok.mp h
      obtain ⟨hmoves, h⟩ := guard_ok.mp h
      cases h
      exact .moveCase _ _ _ hfound (not_not.mp hmovable) (not_not.mp hversion) (by simpa using hmoves)
  | draft request =>
    simp only [begin] at h
    split at h
    · cases h
    · next current hfound =>
      obtain ⟨hdrafting, h⟩ := guard_ok.mp h
      obtain ⟨hnonempty, h⟩ := guard_ok.mp h
      obtain ⟨hscope, h⟩ := guard_ok.mp h
      cases h
      exact .readDraftContext _ _ _ hfound (not_not.mp hdrafting) hnonempty (not_not.mp hscope)
  | requestSignature attestationId =>
    simp only [begin] at h
    split at h
    · cases h
    · next row hfound =>
      obtain ⟨hdraft, h⟩ := guard_ok.mp h
      cases h
      exact .readDraft _ _ _ hfound (not_not.mp hdraft)
  | submit request =>
    simp only [begin] at h
    split at h
    · cases h
    · next row hfound =>
      obtain ⟨⟨hasked, hunused, hvalid⟩, h⟩ := require_ok.mp h
      cases h
      exact .consume _ _ _ hfound hasked hunused hvalid
  | revoke request =>
    simp only [begin] at h
    split at h
    · cases h
    · next row hfound =>
      split at h
      · cases h
      · next current hcase =>
        cases h
        exact .readRevocation _ _ _ _ hfound hcase
  | dispute request =>
    simp only [begin] at h
    split at h
    · cases h
    · next row hfound =>
      obtain ⟨hdisputable, h⟩ := guard_ok.mp h
      cases h
      refine .dispute _ _ _ hfound ?_
      by_cases hdisputed : row.state = .disputed
      · exact .inl hdisputed
      · exact .inr (by simpa [hdisputed] using hdisputable)
  | resolve request =>
    simp only [begin] at h
    split at h
    · cases h
    · next row hfound =>
      split at h
      · cases h
      · next hunresolved =>
        cases h
        exact .resolve _ _ _ hfound hunresolved
  | recordConflict claimId conflictType expectedVersion =>
    simp only [begin] at h
    split at h
    · cases h
    · next current hfound =>
      obtain ⟨hversion, h⟩ := guard_ok.mp h
      cases h
      exact .recordConflict _ _ _ _ _ hfound (not_not.mp hversion)
  | addClaim request =>
    cases h
    exact .addClaim _ _
  | correctClaim claimId expectedVersion request =>
    simp only [begin] at h
    split at h
    · cases h
    · next previous hfound =>
      obtain ⟨hversion, h⟩ := guard_ok.mp h
      split at h
      · cases h
      · next hcurrent =>
        cases h
        exact .correctClaim _ _ _ _ _ hfound (not_not.mp hversion) hcurrent
  | addArtifact projectId =>
    cases h
    exact .addArtifact _ _
  | revokeArtifact artifactId =>
    simp only [begin] at h
    split at h
    · cases h
    · next row hfound =>
      cases h
      exact .revokeArtifact _ _ _ hfound
  | addReceipt projectId =>
    cases h
    exact .addReceipt _ _
  | staleClaim claimId =>
    simp only [begin] at h
    split at h
    · cases h
    · next current hfound =>
      cases h
      exact .staleClaim _ _ _ hfound
  | staleAttestations ids =>
    cases h
    exact .staleAttestations _ _

theorem step_of_statement (h : statement keccak_256 recover db given stage = .ok (next, changes)) :
    Step keccak_256 recover db given stage next changes := by
  cases stage with
  | idle =>
    cases h
    exact .begin
  | begun request startedAt => exact step_of_begin h
  | caseClaimsRead projectId claims =>
    cases h
    exact .readArtifacts _ _
  | caseArtifactsRead projectId claims artifactIds =>
    simp only [statement] at h
    split at h
    · cases h
    · next hash hhash =>
      cases h
      exact .createCase _ _ _ _ _ rfl hhash
  | draftContextRead request projectId startedAt =>
    simp only [statement] at h
    split at h
    · next hfirst =>
      cases h
      exact .draftFirst _ _ _ hfirst
    · next predecessorId hcorrects =>
      obtain ⟨_, hchecked, h⟩ := map_ok.mp h
      cases h
      simp only [assertSupersedable] at hchecked
      split at hchecked
      · cases hchecked
      · next predecessor hfound =>
        obtain ⟨-, hchecked⟩ := guard_ok.mp hchecked
        obtain ⟨hsupersedable, hchecked⟩ := guard_ok.mp hchecked
        obtain ⟨hcovers, -⟩ := guard_ok.mp hchecked
        exact .draftCorrection _ _ _ _ _ hcorrects hfound (by simpa using hsupersedable)
          (not_not.mp hcovers)
  | draftChecked request startedAt =>
    simp only [statement] at h
    split at h
    · cases h
    · next current hfound =>
      cases h
      exact .draft _ _ _ hfound
  | drafted caseId =>
    simp only [statement] at h
    split at h
    · next hmissing =>
      cases h
      exact .keepState _ (by simp [hmissing])
    · next current hfound =>
      split at h
      · next hassigned =>
        cases h
        exact .enterReview _ _ hfound hassigned
      · next hother =>
        cases h
        exact .keepState _ fun row hrow => by
          rw [hfound] at hrow
          exact Option.some.inj hrow ▸ hother
  | draftRead row =>
    cases h
    exact .requestSignature _
  | requestConsumed request signatureRequest startedAt =>
    simp only [statement] at h
    split at h
    · cases h
    · next row hfound =>
      split at h
      · cases h
      · next current hcase =>
        obtain ⟨hunchanged, h⟩ := guard_ok.mp h
        split at h
        · cases h
        · next signer hrecovers =>
          cases h
          exact .accept _ _ _ _ _ _ hfound hcase (not_not.mp hunchanged) hrecovers
  | accepted submission =>
    simp only [statement] at h
    split at h
    · cases h
    · next row hfound =>
      obtain ⟨hpasses, h⟩ := require_ok.mp h
      cases h
      exact .sign _ _ _ hfound rfl hpasses
  | attestationSigned submission =>
    simp only [statement] at h
    split at h
    · cases h
    · next current hfound =>
      cases h
      exact .signCase _ _ hfound
  | caseSigned submission =>
    simp only [statement] at h
    split at h
    · next hfirst =>
      cases h
      exact .firstSigned _ hfirst
    · next predecessorId hcorrects =>
      split at h
      · cases h
      · next predecessor hfound =>
        split at h
        · cases h
        · next current hcase =>
          cases h
          exact .readPredecessor _ _ _ _ hcorrects hfound hcase
  | predecessorRead submission predecessorId caseState =>
    simp only [statement] at h
    split at h
    · cases h
    · next predecessor hfound =>
      obtain ⟨hsupersedable, h⟩ := guard_ok.mp h
      cases h
      exact .supersede _ _ _ _ hfound (by simpa using hsupersedable)
  | predecessorSuperseded submission caseId caseState =>
    simp only [statement] at h
    split at h
    · next hstays =>
      cases h
      exact .keepPredecessorCase _ _ _ hstays
    · next hmoves =>
      split at h
      · cases h
      · next current hfound =>
        cases h
        exact .supersedeCase _ _ _ _ (by simpa using hmoves) hfound
  | revocationRead request caseState =>
    simp only [statement] at h
    split at h
    · cases h
    · next row hfound =>
      obtain ⟨hrevocable, h⟩ := guard_ok.mp h
      cases h
      exact .revoke _ _ _ hfound (by simpa using hrevocable)
  | attestationRevoked request row caseState =>
    simp only [statement] at h
    split at h
    · next hstays =>
      cases h
      exact .keepRevokedCase _ _ _ hstays
    · next hmoves =>
      split at h
      · cases h
      · next current hfound =>
        cases h
        exact .revokeCase _ _ _ _ (by simpa using hmoves) hfound
  | reassessing remaining =>
    cases remaining with
    | nil => cases h
    | cons claimId remaining =>
      simp only [statement] at h
      split at h
      · cases h
      · next claim hfound =>
        cases h
        exact .reassess _ _ _ hfound
  | disputeResolved dispute outcome =>
    cases h
    exact .countDisputes _ _
  | disputesCounted dispute outcome remaining =>
    simp only [statement] at h
    split at h
    · next hlast =>
      obtain ⟨rfl, rfl⟩ := hlast
      split at h
      · next hmissing =>
        cases h
        exact .settle _ _ _ (by simp [hmissing])
      · next row hfound =>
        split at h
        · next hdisputed =>
          cases h
          exact .activate _ _ hfound hdisputed
        · next hother =>
          cases h
          refine .settle _ _ _ fun _ _ found hrow => ?_
          rw [hfound] at hrow
          exact Option.some.inj hrow ▸ hother
    · next hopen =>
      cases h
      exact .settle _ _ _ fun hdismissed hnone => absurd ⟨hdismissed, hnone⟩ hopen
  | conflictRecorded claimId =>
    simp only [statement] at h
    split at h
    · cases h
    · next claim hfound =>
      cases h
      exact .recompute _ _ hfound
  | disputeSettled | done => cases h

/-! ## Runs -/

section Runs

variable (keccak_256 : Canonical.Bytes → Canonical.Digest)
  (recover : AttestationMessage → Text → Option Text)

/-- Any number of workers over tables that start empty. -/
abbrev reviewSystem (W : Type) [DecidableEq W] :
    System (ReadCommitted.State W Db (Point Row Stage)) (ReadCommitted.Action W Given) :=
  (program keccak_256 recover).protocol.system StartsEmpty

end Runs

theorem step_of_program
    (h : (program keccak_256 recover).statement db stage given = .ok (next, changes)) :
    Step keccak_256 recover db given stage next changes :=
  step_of_statement h

/-- A statement that succeeds in its transaction, which sees its own writes. -/
theorem step_of_protocol {p q : Point Row Stage}
    (h : (program keccak_256 recover).protocol.statement db p given = .ok q) :
    ∃ changes writes, Step keccak_256 recover (db.write p.writes) given p.stage q.stage changes ∧
      record Row.uniques Refusal.uniqueViolation (putAll db.rows p.writes) changes = .ok writes ∧
      q = ⟨q.stage, p.writes ++ writes⟩ := by
  obtain ⟨changes, writes, hran, hrecord, hq⟩ := Program.statement_ok h
  exact ⟨changes, writes, step_of_program hran, hrecord, hq⟩

/-! ## Requests of the runs -/

/-- The statements of one request. -/
def script (request : Request) (uuid : Uuid) (steps : Nat) : List Given :=
  List.replicate steps ⟨request, uuid, uuid, 0, 0⟩

def plainDraft (caseId : Uuid) (supersedesId : Option Uuid) : DraftRequest where
  caseId
  assignmentId := units "assignment 1"
  credentialId := units "credential 1"
  schemaId := units "schema 1"
  attestationType := .professionalSignoff
  claimScope := [units "claim 1"]
  payloadHash := units "payload"
  supersedesId

def plainSubmit (attestationId signatureRequestId : Uuid) : SubmitRequest :=
  ⟨attestationId, signatureRequestId, units "0xsigned", some (units "reviewer")⟩

/-- A wallet that has signed everything. -/
def recoverSigned (_ : AttestationMessage) (signature : Text) : Option Text :=
  if signature = units "0xsigned" then some (units "0xreviewer") else none

/-- A claim, a case for it, an attestation and a request for its signature. -/
def readyToSign : List (List Given) := [
  script (.addClaim ⟨units "project 1", units "42", none, none⟩) (units "claim 1") 2,
  script (.createCase (units "project 1") [units "claim 1"]) (units "case 1") 4,
  script (.draft (plainDraft (units "case 1") none)) (units "attestation 1") 5,
  script (.requestSignature (units "attestation 1")) (units "request 1") 3]

/-- What holds of the tables and of the last request's point, once its statements have run
after the other requests. -/
def endsWith (keccak_256 : Canonical.Bytes → Canonical.Digest) (requests : List (List Given))
    (last : List Given) (holds : Db → Point Row Stage → Bool) : Bool :=
  let reviews := (program keccak_256 recoverSigned).protocol
  (reviews.inTurn (fun _ _ => true) (Db.empty 0) requests).any fun db =>
    (reviews.underway db reviews.idle last).any (holds db)

theorem exists_of_endsWith {keccak_256 : Canonical.Bytes → Canonical.Digest}
    {requests : List (List Given)} {last : List Given} {holds : Db → Point Row Stage → Bool}
    (h : endsWith keccak_256 requests last holds = true) :
    ∃ s, (reviewSystem keccak_256 recoverSigned Nat).Reachable s ∧
      holds s.committed (s.point 0) = true := by
  obtain ⟨db, hdb, h⟩ := Option.any_eq_true _ _ |>.mp h
  obtain ⟨p, hp, hholds⟩ := Option.any_eq_true _ _ |>.mp h
  have reached := ReadCommitted.Protocol.reachable_underway StartsEmpty 0 ⟨0, rfl⟩ hdb hp
  refine ⟨_, reached, ?_⟩
  rw [ReadCommitted.Protocol.only_point]
  exact hholds

end MpcRegistry.Verification
