import MpcRegistry.Accounts.Updates

/-!
# The account functions as transactions

Source: packages/db/migrations/0114_email_code_functions.sql:95-644,
0127_subject_suspension.sql:336-431, 0128_suspension_closes_recovery.sql:249-353 and 395-462,
0132_final_review_state_machine.sql:285-712 and 978-1005 and
0133_closed_requests_and_actor_lock.sql:115-160. Each stage is one statement: what it reads is
read when it runs. `now()` is when the transaction started. Left out is what can only refuse: the
rate limits, the organization of an invitation, column checks and the database's tenant.
-/
namespace MpcRegistry.Accounts
open Library WriteSet ReadCommitted Utf16

/-! ## Requests -/

structure StartChallenge where
  purpose : Purpose
  email : Text
  invitationTokenHash : Digest
  challengeId : Uuid
  codeHmac : Digest
  deriving DecidableEq, Repr

structure VerifySignIn where
  email : Text
  codeHmac : Digest
  sessionId : Uuid
  ttlSeconds : Nat
  deriving DecidableEq, Repr

structure Invite where
  tenantId : Uuid
  id : Uuid
  organizationId : Uuid
  email : Text
  invitedBy : Uuid
  tokenHash : Digest
  deriving DecidableEq, Repr

structure RevokeInvitation where
  tenantId : Uuid
  id : Uuid
  revokedBy : Uuid
  expectedVersion : Nat
  deriving DecidableEq, Repr

structure AcceptInvitation where
  tokenHash : Digest
  codeHmac : Digest
  subjectId : Uuid
  sessionId : Uuid
  ttlSeconds : Nat
  deriving DecidableEq, Repr

structure RequestEmailChange where
  tenantId : Uuid
  id : Uuid
  subjectId : Uuid
  newEmail : Text
  requestedBy : Uuid
  deriving DecidableEq, Repr

structure CompleteEmailChange where
  newEmail : Text
  codeHmac : Digest
  deriving DecidableEq, Repr

/-- The kinds of recovery, which `p_side` names. -/
inductive Recovery where
  | emailChange | mfaReset | suspension
  deriving DecidableEq, Repr

/-- A decision on a request; the challenge is for an approved email change. -/
structure Decision where
  kind : Recovery
  tenantId : Uuid
  id : Uuid
  decidedBy : Uuid
  approve : Bool
  expectedVersion : Nat
  challengeId : Uuid
  codeHmac : Digest
  deriving DecidableEq, Repr

/-- The INSERT of a reset, or of a suspension with its action. -/
structure Proposal where
  action : Option SuspensionAction
  tenantId : Uuid
  id : Uuid
  subjectId : Uuid
  requestedBy : Uuid
  deriving DecidableEq, Repr

inductive Request where
  | startChallenge (request : StartChallenge)
  | verifySignIn (request : VerifySignIn)
  | createInvitation (request : Invite)
  | revokeInvitation (request : RevokeInvitation)
  | acceptInvitation (request : AcceptInvitation)
  | requestEmailChange (request : RequestEmailChange)
  | completeEmailChange (request : CompleteEmailChange)
  | propose (proposal : Proposal)
  | decide (decision : Decision)
  deriving DecidableEq, Repr

/-- What the functions answer. -/
inductive Status where
  | issued | invitationInvalid | sessionCreated | codeInvalid | codeExpired | attemptsExhausted
  | created | unavailable | revoked | notFound | versionMismatch | notPending | emailUnavailable
  | subjectInvalid | self | subjectSuspended | noAddress | separationRequired | alreadyOpen
  | selfApproval | selfTarget | completed | proposed | decided
  deriving DecidableEq, Repr

/-- What the functions raise. -/
inductive Refusal where
  | notAPerson
  | actorUnreadable
  | actorSuspended
  | accountSuspended
  | ttl
  | stateConflict
  | separationRequired
  | subjectSuspended
  | notFound
  | versionMismatch
  | alreadyDecided
  | selfApproval
  | selfTarget
  | violation
  | outOfTurn
  deriving DecidableEq, Repr

/-- What a statement is told: the request an idle worker takes up and the time that passes. -/
structure Given where
  request : Request
  time : Nat

/-! ## What the functions read -/

/-- The columns that the three request tables share. -/
inductive RequestRow where
  | emailChange (row : EmailChangeRequest)
  | mfaReset (row : MfaResetRequest)
  | suspension (row : SubjectSuspension)
  deriving DecidableEq, Repr

namespace RequestRow

def row : RequestRow → Row
  | emailChange row => .emailChange row
  | mfaReset row => .mfaReset row
  | suspension row => .suspension row

def tenantId : RequestRow → Uuid
  | emailChange row => row.tenantId
  | mfaReset row => row.tenantId
  | suspension row => row.tenantId

def subjectId : RequestRow → Uuid
  | emailChange row => row.subjectId
  | mfaReset row => row.subjectId
  | suspension row => row.subjectId

def requestedBy : RequestRow → Option Uuid
  | emailChange row => some row.requestedBySubjectId
  | mfaReset row => row.requestedBySubjectId
  | suspension row => some row.requestedBySubjectId

def pending : RequestRow → Bool
  | emailChange row => row.state = .pending
  | mfaReset row => row.state = .pending
  | suspension row => row.state = .pending

def version : RequestRow → Nat
  | emailChange row => row.version
  | mfaReset row => row.version
  | suspension row => row.version

end RequestRow

/-- `p_actor IN (requested_by_subject_id, decided_by_subject_id)` -/
def tookPart (requestedBy decidedBy : Option Uuid) (actor : Uuid) : Bool :=
  requestedBy = some actor || decidedBy = some actor

/-- `GREATEST`, which passes over what is NULL. -/
def greatest (at' : Nat) (others : List (Option Nat)) : Nat :=
  others.foldl (fun latest other => max latest (other.getD 0)) at'

/-- Whether a session of this length can be created. -/
def ttlAllowed (ttlSeconds : Nat) : Bool := 1 ≤ ttlSeconds && ttlSeconds ≤ 28800

namespace Db

variable (db : Db)

def isPerson (subjectId tenantId : Uuid) : Bool :=
  (db.subject? subjectId).any fun row => row.tenantId = tenantId && row.kind = .person

/-- `find_person_by_email` -/
def findPersonByEmail (email : Text) : Option Subject :=
  (db.all Row.subject?).find? fun row =>
    row.email = some email && row.kind = .person && row.suspendedAt = none

def emailOfSubject (email : Text) : Bool :=
  (db.all Row.subject?).any fun row => row.email = some email

/-- The condition of `email_in_use`, once its UPDATEs have run. -/
def emailInUse (email : Text) : Bool :=
  db.emailOfSubject email ||
    ((db.all Row.invitation?).any fun row => row.email = email && row.state = .pending) ||
      (db.all Row.emailChange?).any fun row => row.newEmail = email && row.isOpen

def pendingInvitation (tokenHash : Digest) (now : Nat) : Option Invitation :=
  (db.all Row.invitation?).find? fun row =>
    row.tokenHash = tokenHash && row.state = .pending && now < row.expiresAt

/-- The approved change to an address, within its 72 hours. -/
def approvedChange (email : Text) (now : Nat) : Option EmailChangeRequest :=
  (db.all Row.emailChange?).find? fun row =>
    row.newEmail = email && row.state = .approved && row.decidedAt.any (now < · + hours 72)

def liveChallenge (purpose : Purpose) (email : Text) (invitationId : Option Uuid) :
    Option EmailChallenge :=
  (db.all Row.emailChallenge?).find? fun row =>
    row.purpose = purpose && row.email = email && row.live &&
      (invitationId.isNone || row.invitationId = invitationId)

def openChangeOf (subjectId : Uuid) : Bool :=
  (db.all Row.emailChange?).any fun row => row.subjectId = subjectId && row.isOpen

def request? (decision : Decision) : Option RequestRow :=
  match decision.kind with
  | .emailChange => ((db.emailChange? decision.id).filter (·.tenantId = decision.tenantId)).map .emailChange
  | .mfaReset => ((db.mfaReset? decision.id).filter (·.tenantId = decision.tenantId)).map .mfaReset
  | .suspension => ((db.suspension? decision.id).filter (·.tenantId = decision.tenantId)).map .suspension

variable (subjectId actor : Uuid) (now : Nat)

def recentEmailChangePart : Bool :=
  (db.all Row.emailChange?).any fun row =>
    row.subjectId = subjectId &&
      ((row.state = .pending || row.state = .approved || row.state = .completed) ||
        row.closedReason.isSome) &&
      tookPart (some row.requestedBySubjectId) row.decidedBySubjectId actor &&
      now < greatest row.requestedAt [row.decidedAt, row.completedAt] + days 30

def recentMfaResetPart : Bool :=
  (db.all Row.mfaReset?).any fun row =>
    row.subjectId = subjectId && row.origin = .admin &&
      ((row.state = .pending || row.state = .approved) || row.closedReason.isSome) &&
      tookPart row.requestedBySubjectId row.decidedBySubjectId actor &&
      now < greatest row.requestedAt [row.decidedAt] + days 30

def recentSuspensionPart : Bool :=
  (db.all Row.suspension?).any fun row =>
    row.subjectId = subjectId &&
      ((row.state = .pending || row.state = .approved) || row.closedReason.isSome) &&
      tookPart (some row.requestedBySubjectId) row.decidedBySubjectId actor &&
      now < greatest row.requestedAt [row.decidedAt] + days 30

def recoverySeparationConflict (side : Recovery) : Bool :=
  match side with
  | .mfaReset => db.recentEmailChangePart subjectId actor now || db.recentSuspensionPart subjectId actor now
  | .emailChange => db.recentMfaResetPart subjectId actor now || db.recentSuspensionPart subjectId actor now
  | .suspension => db.recentEmailChangePart subjectId actor now || db.recentMfaResetPart subjectId actor now

/-- `refuse_suspended_actor`, which reads the actor `FOR KEY SHARE`. -/
def actorAllowed : Except Refusal Unit :=
  match db.subject? actor with
  | none => .error .actorUnreadable
  | some row => if row.suspendedAt.isSome then .error .actorSuspended else .ok ()

end Db

/-! ## What the functions write -/

namespace EmailChallenge

def attempted (row : EmailChallenge) : EmailChallenge := { row with attempts := row.attempts + 1 }

def consumed (row : EmailChallenge) (now : Nat) : EmailChallenge :=
  { row.attempted with consumedAt := some now }

end EmailChallenge

/-- A request for an address that `lock_email` guards. -/
inductive AddressRequest where
  | invite (request : Invite)
  | change (request : RequestEmailChange)
  deriving DecidableEq, Repr

namespace AddressRequest

def email : AddressRequest → Text
  | invite request => request.email
  | change request => request.newEmail

def actor : AddressRequest → Uuid
  | invite request => request.invitedBy
  | change request => request.requestedBy

def row (now : Nat) : AddressRequest → Row
  | invite request => .invitation
    { id := request.id, tenantId := request.tenantId, organizationId := request.organizationId
      email := request.email, invitedBySubjectId := request.invitedBy
      tokenHash := request.tokenHash, state := .pending, expiresAt := now + hours 72
      acceptedSubjectId := none, revokedBySubjectId := none, closedReason := none, version := 1 }
  | change request => .emailChange
    { id := request.id, tenantId := request.tenantId, subjectId := request.subjectId
      newEmail := request.newEmail, requestedBySubjectId := request.requestedBy
      requestedAt := now, state := .pending, decidedBySubjectId := none, decidedAt := none
      completedAt := none, previousEmail := none, closedReason := none, version := 1 }

end AddressRequest

def Proposal.side (proposal : Proposal) : Recovery :=
  match proposal.action with
  | none => .mfaReset
  | some _ => .suspension

def Proposal.row (proposal : Proposal) (now : Nat) : Row :=
  match proposal.action with
  | none => .mfaReset
    { id := proposal.id, tenantId := proposal.tenantId, subjectId := proposal.subjectId
      requestedBySubjectId := some proposal.requestedBy, requestedAt := now, state := .pending
      decidedBySubjectId := none, decidedAt := none, enrolmentWindowUntil := none
      origin := .admin, closedReason := none, version := 1 }
  | some action => .suspension
    { id := proposal.id, tenantId := proposal.tenantId, subjectId := proposal.subjectId, action
      requestedBySubjectId := proposal.requestedBy, requestedAt := now, state := .pending
      decidedBySubjectId := none, decidedAt := none, enrolmentWindowUntil := none
      closedReason := none, version := 1 }

def emailCodeSession (id tenantId subjectId challengeId : Uuid) (expiresAt : Nat) : Session where
  id := id
  tenantId := tenantId
  subjectId := subjectId
  firstFactor := .emailCode
  emailChallengeId := some challengeId
  oidcTransactionId := none
  secondFactor := none
  secondFactorProofId := none
  recoveryLimited := false
  expiresAt := expiresAt
  revokedAt := none

/-- `issue_email_challenge` -/
def newChallenge (id : Uuid) (purpose : Purpose) (email : Text)
    (tenantId subjectId invitationId emailChangeId : Option Uuid) (codeHmac : Digest) (now : Nat) :
    EmailChallenge where
  id := id
  purpose := purpose
  email := email
  tenantId := tenantId
  subjectId := subjectId
  invitationId := invitationId
  emailChangeId := emailChangeId
  codeHmac := codeHmac
  attempts := 0
  expiresAt := now + minutes 10
  consumedAt := none
  supersededAt := none

def Decision.state (decision : Decision) : DecisionState :=
  if decision.approve then .approved else .rejected

def Decision.emailChangeState (decision : Decision) : EmailChangeState :=
  if decision.approve then .approved else .rejected

/-- The request as it is decided. -/
def RequestRow.decide (request : RequestRow) (decision : Decision) (now : Nat) : Row :=
  match request with
  | emailChange row => .emailChange
    { row with
      state := decision.emailChangeState, decidedBySubjectId := some decision.decidedBy
      decidedAt := some now, version := row.version + 1 }
  | mfaReset row => .mfaReset
    { row with
      state := decision.state, decidedBySubjectId := some decision.decidedBy, decidedAt := some now
      enrolmentWindowUntil := if decision.approve then some (now + hours 24) else none
      version := row.version + 1 }
  | suspension row => .suspension
    { row with
      state := decision.state, decidedBySubjectId := some decision.decidedBy, decidedAt := some now
      enrolmentWindowUntil :=
        if decision.approve && row.action = .reinstate then some (now + hours 24) else none
      version := row.version + 1 }

def Subject.suspend (row : Subject) (suspendedAt : Option Nat) : Subject :=
  { row with suspendedAt, version := row.version + 1 }

/-- What an approved suspension closes and revokes. -/
def suspensionUpdates (subject : Subject) : List Update :=
  [.supersedeChanges .subject subject.id, .closeChanges .subject subject.id,
    .closeResets .subject subject.id,
    .supersedeChanges .proposer subject.id, .closeChanges .proposer subject.id,
    .closeResets .proposer subject.id, .closeSuspensions subject.id,
    .supersedeChanges .approver subject.id, .closeChanges .approver subject.id,
    .closeResets .approver subject.id,
    .supersedeInvitations subject.id, .closeInvitations subject.id,
    .revokeCredentials subject.id subject.tenantId, .revokeTotps subject.id subject.tenantId,
    .voidCodes subject.id subject.tenantId, .revokeIdentities subject.id subject.tenantId,
    .deleteTransactions subject.id, .deleteWebauthnChallenges subject.id subject.tenantId] ++
    (subject.email.map (.supersede .signIn)).toList ++
    [.revokeSessions subject.id subject.tenantId]

/-- What an approved reset revokes. -/
def resetUpdates (subjectId tenantId : Uuid) : List Update :=
  [.revokeCredentials subjectId tenantId, .revokeTotps subjectId tenantId,
    .voidCodes subjectId tenantId, .revokeIdentities subjectId tenantId,
    .revokeSessions subjectId tenantId]

/-- The change as it is completed, from the address that the person had. -/
def EmailChangeRequest.complete (row : EmailChangeRequest) (previousEmail : Option Text) (now : Nat) :
    EmailChangeRequest :=
  { row with state := .completed, completedAt := some now, previousEmail, version := row.version + 1 }

def Subject.move (row : Subject) (email : Text) : Subject :=
  { row with email := some email, version := row.version + 1 }

/-- What ends with a completed change. -/
def completionUpdates (change : EmailChangeRequest) (previousEmail : Option Text) : List Update :=
  .revokeIdentities change.subjectId change.tenantId ::
    (previousEmail.map (.supersede .signIn)).toList ++
    [.revokeSessions change.subjectId change.tenantId]

def Update.references : Update → Locks
  | issue challenge => (challenge.subjectId.map (shareOf .subjects)).toList
  | _ => []

/-! ## Transactions -/

/-- What a request does next, with what it has read. `held` are the locks taken besides those
of the written rows; an `ending` transaction still has its last UPDATEs to run. -/
inductive Stage where
  | idle
  | begun (request : Request) (now : Nat)
  | codeConsumed (request : VerifySignIn) (challenge : EmailChallenge) (now : Nat)
  | holderRead (request : VerifySignIn) (challengeId subjectId tenantId : Uuid) (now : Nat)
  | sessionAdmitted (request : VerifySignIn) (challengeId subjectId tenantId : Uuid) (now : Nat)
  | addressWanted (request : AddressRequest) (held : Locks) (now : Nat)
  | addressLocked (request : AddressRequest) (held : Locks) (now : Nat)
  | invitationsExpired (request : AddressRequest) (held : Locks) (now : Nat)
  | changesExpired (request : AddressRequest) (held : Locks) (now : Nat)
  | addressFree (request : AddressRequest) (held : Locks) (now : Nat)
  | invitationLocked (request : RevokeInvitation) (invitation : Invitation) (now : Nat)
  | acceptanceLocked (request : AcceptInvitation) (invitation : Invitation) (now : Nat)
  | acceptanceConsumed (request : AcceptInvitation) (invitation : Invitation)
      (challenge : EmailChallenge) (now : Nat)
  | acceptanceAddressLocked (request : AcceptInvitation) (invitation : Invitation)
      (challenge : EmailChallenge) (now : Nat)
  | acceptanceFree (request : AcceptInvitation) (invitation : Invitation)
      (challenge : EmailChallenge) (now : Nat)
  | changeWanted (request : RequestEmailChange) (now : Nat)
  | staleExpired (request : RequestEmailChange) (now : Nat)
  | changeSubjectLocked (request : RequestEmailChange) (now : Nat)
  | changeSeparated (request : RequestEmailChange) (now : Nat)
  | decisionRead (decision : Decision) (subjectId : Option Uuid) (now : Nat)
  | decisionSubjectLocked (decision : Decision) (held : Locks) (now : Nat)
  | requestLocked (decision : Decision) (request : RequestRow) (held : Locks) (now : Nat)
  | decisionChecked (decision : Decision) (request : RequestRow) (held : Locks) (now : Nat)
  | decisionSeparated (decision : Decision) (request : RequestRow) (held : Locks) (now : Nat)
  | completionRead (request : CompleteEmailChange) (subjectId : Option Uuid) (now : Nat)
  | completionSubjectLocked (request : CompleteEmailChange) (held : Locks) (now : Nat)
  | completionConsumed (request : CompleteEmailChange) (challenge : EmailChallenge) (held : Locks)
      (now : Nat)
  | changeLocked (request : CompleteEmailChange) (change : EmailChangeRequest) (held : Locks)
      (now : Nat)
  | changeHolderLocked (request : CompleteEmailChange) (change : EmailChangeRequest) (held : Locks)
      (now : Nat)
  | completionAddressLocked (request : CompleteEmailChange) (change : EmailChangeRequest)
      (held : Locks) (now : Nat)
  | completionFree (request : CompleteEmailChange) (change : EmailChangeRequest) (held : Locks)
      (now : Nat)
  | proposerLocked (proposal : Proposal) (now : Nat)
  | proposalChecked (proposal : Proposal) (now : Nat)
  | proposalSeparated (proposal : Proposal) (now : Nat)
  | ending (held : Locks) (now : Nat) (status : Status) (updates : List Update)
  deriving DecidableEq

def RequestEmailChange.locks (request : RequestEmailChange) : Locks :=
  [lockOf .subjects request.subjectId]

def Proposal.locks (proposal : Proposal) : Locks :=
  [lockOf .subjects proposal.subjectId, shareOf .subjects proposal.requestedBy]

/-- The locks besides those of the written rows. -/
def Stage.held : Stage → Locks
  | .sessionAdmitted .. => []
  | .addressWanted _ held _ => held
  | .addressLocked _ held _ => held
  | .invitationsExpired _ held _ => held
  | .changesExpired _ held _ => held
  | .addressFree _ held _ => held
  | .invitationLocked _ invitation _ => [lockOf .invitations invitation.id]
  | .acceptanceLocked _ invitation _ => [lockOf .invitations invitation.id]
  | .acceptanceConsumed _ invitation _ _ => [lockOf .invitations invitation.id]
  | .acceptanceAddressLocked _ invitation _ _ =>
    [advisory (.emailLock invitation.email), lockOf .invitations invitation.id]
  | .acceptanceFree _ invitation _ _ =>
    [advisory (.emailLock invitation.email), lockOf .invitations invitation.id]
  | .changeSubjectLocked request _ => request.locks
  | .changeSeparated request _ => request.locks
  | .decisionSubjectLocked _ held _ => held
  | .requestLocked _ _ held _ => held
  | .decisionChecked _ _ held _ => held
  | .decisionSeparated _ _ held _ => held
  | .completionSubjectLocked _ held _ => held
  | .completionConsumed _ _ held _ => held
  | .changeLocked _ _ held _ => held
  | .changeHolderLocked _ _ held _ => held
  | .completionAddressLocked _ _ held _ => held
  | .completionFree _ _ held _ => held
  | .proposerLocked proposal _ => [shareOf .subjects proposal.requestedBy]
  | .proposalChecked proposal _ => proposal.locks
  | .proposalSeparated proposal _ => proposal.locks
  | .ending held _ _ _ => held
  | _ => []

abbrev Answer := Except Refusal (Stage × List (Change Row))

/-- The function answers, with nothing more to write. -/
def answer (held : Locks) (now : Nat) (status : Status) : Answer :=
  .ok (.ending held now status [], [])

section Statements

variable (db : Db) (now : Nat)

def startEmailChallenge (request : StartChallenge) : Answer :=
  match request.purpose with
  | .invitation =>
    match db.pendingInvitation request.invitationTokenHash now with
    | none => answer [] now .invitationInvalid
    | some row => .ok (.ending [lockOf .invitations row.id] now .issued
        [.supersede .invitation row.email,
          .issue (newChallenge request.challengeId .invitation row.email (some row.tenantId) none
            (some row.id) none request.codeHmac now)], [])
  | .signIn =>
    let person := db.findPersonByEmail request.email
    .ok (.ending [] now .issued
      [.supersede .signIn request.email,
        .issue (newChallenge request.challengeId .signIn request.email (person.map (·.tenantId))
          (person.map (·.id)) none none request.codeHmac now)], [])
  | .emailChange =>
    let change := db.approvedChange request.email now
    .ok (.ending [] now .issued
      [.supersede .emailChange request.email,
        .issue (newChallenge request.challengeId .emailChange request.email
          (change.map (·.tenantId)) (change.map (·.subjectId)) none (change.map (·.id))
          request.codeHmac now)], [])

/-- `consume_email_challenge`: every comparison raises the attempts, and a right code is
consumed. -/
def consumeEmailChallenge (purpose : Purpose) (email : Text) (invitationId : Option Uuid)
    (codeHmac : Digest) (held : Locks) (next : EmailChallenge → Stage) : Answer :=
  match db.liveChallenge purpose email invitationId with
  | none => answer held now .codeInvalid
  | some row =>
    let held := lockOf .emailChallenges row.id :: held
    if row.expiresAt ≤ now then answer held now .codeExpired
    else if 5 ≤ row.attempts then answer held now .attemptsExhausted
    else if row.codeHmac ≠ codeHmac ∨ row.subjectId = none ∧ row.purpose ≠ .invitation then
      .ok (.ending held now .codeInvalid [], [.update (.emailChallenge row.attempted)])
    else .ok (next row, [.update (.emailChallenge (row.consumed now))])

/-- Whether the person of the challenge holds the address, read without a lock. -/
def readHolder (request : VerifySignIn) (challenge : EmailChallenge) : Answer :=
  match challenge.subjectId, challenge.tenantId with
  | some subjectId, some tenantId =>
    if (db.subject? subjectId).any (fun row => row.tenantId = tenantId && row.kind = .person &&
        row.email = some request.email && row.suspendedAt = none) = true then
      .ok (.holderRead request challenge.id subjectId tenantId now, [])
    else answer [] now .codeInvalid
  | _, _ => answer [] now .codeInvalid

/-- The TTL and the trigger `sessions_a_refuse_suspended`. -/
def admitSession (request : VerifySignIn) (challengeId subjectId tenantId : Uuid) : Answer :=
  if ttlAllowed request.ttlSeconds = false then .error .ttl
  else if (db.subject? subjectId).any (·.suspendedAt.isSome) = true then .error .accountSuspended
  else .ok (.sessionAdmitted request challengeId subjectId tenantId now, [])

def revokeInvitation (request : RevokeInvitation) : Answer :=
  match (db.invitation? request.id).filter (·.tenantId = request.tenantId) with
  | none => answer [] now .notFound
  | some row =>
    if row.version ≠ request.expectedVersion then
      answer [lockOf .invitations row.id] now .versionMismatch
    else if row.state ≠ .pending ∨ row.expiresAt ≤ now then
      answer [lockOf .invitations row.id] now .notPending
    else .ok (.invitationLocked request row now, [])

def Invitation.revoke (row : Invitation) (revokedBy : Uuid) : Invitation :=
  { row with state := .revoked, revokedBySubjectId := some revokedBy, version := row.version + 1 }

def Invitation.accept (row : Invitation) (subjectId : Uuid) : Invitation :=
  { row with state := .accepted, acceptedSubjectId := some subjectId, version := row.version + 1 }

/-- The person that an acceptance creates. -/
def invitedSubject (id : Uuid) (invitation : Invitation) : Subject where
  id := id
  tenantId := invitation.tenantId
  kind := .person
  email := some invitation.email
  suspendedAt := none
  createdAt := now
  version := 1

/-- The person, the accepted invitation, the challenge and the session. -/
def acceptInvitation (request : AcceptInvitation) (invitation : Invitation)
    (challenge : EmailChallenge) : List (Change Row) :=
  [.insert (.subject (invitedSubject now request.subjectId invitation)),
    .update (.invitation (invitation.accept request.subjectId)),
    .update (.emailChallenge { challenge.consumed now with subjectId := some request.subjectId }),
    .insert (.session (emailCodeSession request.sessionId invitation.tenantId request.subjectId
      challenge.id (now + request.ttlSeconds)))]

/-- A request that is refused: a status for an email change, an error for the others. -/
def Decision.refuse (decision : Decision) (held : Locks) (status : Status) (refusal : Refusal) : Answer :=
  match decision.kind with
  | .emailChange => answer held now status
  | _ => .error refusal

def lockRequest (decision : Decision) (held : Locks) : Answer :=
  match db.request? decision with
  | none => decision.refuse now held .notFound .notFound
  | some request =>
    let held := (.row request.row.key, .exclusive) :: held
    if request.version ≠ decision.expectedVersion then
      decision.refuse now held .versionMismatch .versionMismatch
    else if request.pending = false then decision.refuse now held .notPending .alreadyDecided
    else if request.requestedBy = some decision.decidedBy then
      decision.refuse now held .selfApproval .selfApproval
    else if request.subjectId = decision.decidedBy then
      decision.refuse now held .selfTarget .selfTarget
    else .ok (.requestLocked decision request held now, [])

/-- The person is locked again and checked: not suspended, or as the action of a suspension
finds them. -/
def checkSubject (decision : Decision) (request : RequestRow) (held : Locks) : Answer :=
  let held' := lockOf .subjects request.subjectId :: held
  let suspended := (db.subject? request.subjectId).any (·.suspendedAt.isSome)
  if decision.approve = false then .ok (.decisionSeparated decision request held' now, [])
  else
    match request with
    | .suspension row =>
      if decide (row.action = .suspend) = suspended then .error .stateConflict
      else .ok (.decisionChecked decision request held' now, [])
    | _ =>
      if suspended = true then decision.refuse now held' .subjectSuspended .subjectSuspended
      else .ok (.decisionChecked decision request held' now, [])

/-- Neither the decider nor the proposer took part in another recent recovery of the person. -/
def checkSeparation (decision : Decision) (request : RequestRow) (held : Locks) : Answer :=
  if (db.recoverySeparationConflict request.subjectId decision.decidedBy now decision.kind ||
      request.requestedBy.any fun actor =>
        db.recoverySeparationConflict request.subjectId actor now decision.kind) = true then
    decision.refuse now held .separationRequired .separationRequired
  else .ok (.decisionSeparated decision request held now, [])

/-- The decision is written, and what follows from it is left to do. -/
def writeDecision (decision : Decision) (request : RequestRow) (held : Locks) : Answer :=
  (db.actorAllowed decision.decidedBy).bind fun _ =>
    let held := shareOf .subjects decision.decidedBy :: held
    let decided := Change.update (request.decide decision now)
    if decision.approve = false then .ok (.ending held now .decided [], [decided])
    else
      match request with
      | .emailChange row => .ok (.ending held now .decided
          [.supersede .emailChange row.newEmail,
            .issue (newChallenge decision.challengeId .emailChange row.newEmail (some row.tenantId)
              (some row.subjectId) none (some row.id) decision.codeHmac now)], [decided])
      | .mfaReset row => .ok (.ending held now .decided (resetUpdates row.subjectId row.tenantId), [decided])
      | .suspension row =>
        match db.subject? row.subjectId with
        | none => .error .notAPerson
        | some subject =>
          match row.action with
          | .suspend => .ok (.ending held now .decided (suspensionUpdates subject),
              [decided, .update (.subject (subject.suspend (some now)))])
          | .reinstate => .ok (.ending held now .decided [],
              [decided, .update (.subject (subject.suspend none))])

/-- The approved change that a consumed code completes. -/
def lockChange (request : CompleteEmailChange) (challenge : EmailChallenge) (held : Locks) : Answer :=
  match (challenge.emailChangeId.bind db.emailChange?).filter fun row =>
      row.state = .approved ∧ row.decidedAt.any (now < · + hours 72) = true with
  | none => answer held now .codeInvalid
  | some row => .ok (.changeLocked request row (lockOf .emailChanges row.id :: held) now, [])

def lockChangeHolder (request : CompleteEmailChange) (change : EmailChangeRequest) (held : Locks) :
    Answer :=
  let held := lockOf .subjects change.subjectId :: held
  if (db.subject? change.subjectId).any (·.suspendedAt.isSome) = true then
    answer held now .codeInvalid
  else .ok (.changeHolderLocked request change held now, [])

/-- The address moves, and what ends with it is left to do. -/
def completeEmailChange (request : CompleteEmailChange) (change : EmailChangeRequest) (held : Locks) :
    Answer :=
  match db.subject? change.subjectId with
  | none => .error .notAPerson
  | some subject => .ok (.ending held now .completed (completionUpdates change subject.email),
      [.update (.subject (subject.move request.newEmail)),
        .update (.emailChange (change.complete subject.email now))])

/-- The triggers of a proposal lock the person and check them. -/
def checkProposal (proposal : Proposal) : Answer :=
  match (db.subject? proposal.subjectId).filter (·.tenantId = proposal.tenantId) with
  | none => .error .notAPerson
  | some row =>
    match proposal.action with
    | none =>
      if row.suspendedAt.isSome then .error .subjectSuspended
      else .ok (.proposalChecked proposal now, [])
    | some action =>
      if row.kind ≠ .person then .error .notAPerson
      else if decide (action = .suspend) = row.suspendedAt.isSome then .error .stateConflict
      else .ok (.proposalChecked proposal now, [])

def begin (request : Request) : Answer :=
  match request with
  | .startChallenge request => startEmailChallenge db now request
  | .verifySignIn request =>
    consumeEmailChallenge db now .signIn request.email none request.codeHmac [] fun row =>
      .codeConsumed request row now
  | .createInvitation request =>
    if db.isPerson request.invitedBy request.tenantId = true then
      .ok (.addressWanted (.invite request) [] now, [])
    else .error .notAPerson
  | .revokeInvitation request => revokeInvitation db now request
  | .acceptInvitation request =>
    match db.pendingInvitation request.tokenHash now with
    | none => answer [] now .invitationInvalid
    | some row => .ok (.acceptanceLocked request row now, [])
  | .requestEmailChange request =>
    if db.isPerson request.subjectId request.tenantId = false then answer [] now .subjectInvalid
    else if request.subjectId = request.requestedBy then answer [] now .self
    else .ok (.changeWanted request now, [])
  | .completeEmailChange request =>
    .ok (.completionRead request
      ((db.liveChallenge .emailChange request.newEmail none).bind (·.subjectId)) now, [])
  | .propose proposal =>
    (db.actorAllowed proposal.requestedBy).bind fun _ => .ok (.proposerLocked proposal now, [])
  | .decide decision =>
    .ok (.decisionRead decision ((db.request? decision).map (·.subjectId)) now, [])

end Statements

def statement (db : Db) (stage : Stage) (given : Given) : Answer :=
  match stage with
  | .idle => .ok (.begun given.request db.now, [])
  | .begun request now => begin db now request
  | .codeConsumed request challenge now => readHolder db now request challenge
  | .holderRead request challengeId subjectId tenantId now =>
    admitSession db now request challengeId subjectId tenantId
  | .sessionAdmitted request challengeId subjectId tenantId now =>
    .ok (.ending [shareOf .subjects subjectId] now .sessionCreated [],
      [.insert (.session (emailCodeSession request.sessionId tenantId subjectId challengeId
        (now + request.ttlSeconds)))])
  | .addressWanted request held now =>
    .ok (.addressLocked request (advisory (.emailLock request.email) :: held) now, [])
  | .addressLocked request held now =>
    .ok (.invitationsExpired request held now, (Update.expireInvitations request.email).changes now db)
  | .invitationsExpired request held now =>
    .ok (.changesExpired request held now, (Update.expireChangesTo request.email).changes now db)
  | .changesExpired request held now =>
    if db.emailInUse request.email = true then answer held now .unavailable
    else .ok (.addressFree request held now, [])
  | .addressFree request held now =>
    (db.actorAllowed request.actor).bind fun _ =>
      .ok (.ending (shareOf .subjects request.actor :: held) now .created [],
        [.insert (request.row now)])
  | .invitationLocked request invitation now =>
    (db.actorAllowed request.revokedBy).bind fun _ =>
      .ok (.ending [shareOf .subjects request.revokedBy, lockOf .invitations invitation.id] now
        .revoked [.supersedeInvitation invitation.id],
        [.update (.invitation (invitation.revoke request.revokedBy))])
  | .acceptanceLocked request invitation now =>
    consumeEmailChallenge db now .invitation invitation.email (some invitation.id) request.codeHmac
      [lockOf .invitations invitation.id] fun row => .acceptanceConsumed request invitation row now
  | .acceptanceConsumed request invitation challenge now =>
    .ok (.acceptanceAddressLocked request invitation challenge now, [])
  | .acceptanceAddressLocked request invitation challenge now =>
    if db.emailOfSubject invitation.email = true then
      .ok (.ending [advisory (.emailLock invitation.email), lockOf .invitations invitation.id] now
        .emailUnavailable [], [.update (.invitation (invitation.close none))])
    else .ok (.acceptanceFree request invitation challenge now, [])
  | .acceptanceFree request invitation challenge now =>
    if ttlAllowed request.ttlSeconds = false then .error .ttl
    else .ok (.ending [advisory (.emailLock invitation.email), lockOf .invitations invitation.id] now
      .sessionCreated [], acceptInvitation now request invitation challenge)
  | .changeWanted request now =>
    .ok (.staleExpired request now, (Update.expireChangesOf request.subjectId).changes now db)
  | .staleExpired request now =>
    match db.subject? request.subjectId with
    | none => answer [] now .noAddress
    | some row =>
      if row.suspendedAt.isSome then answer request.locks now .subjectSuspended
      else if row.email = none then answer request.locks now .noAddress
      else .ok (.changeSubjectLocked request now, [])
  | .changeSubjectLocked request now =>
    if db.recoverySeparationConflict request.subjectId request.requestedBy now .emailChange = true then
      answer request.locks now .separationRequired
    else .ok (.changeSeparated request now, [])
  | .changeSeparated request now =>
    if db.openChangeOf request.subjectId = true then answer request.locks now .alreadyOpen
    else .ok (.addressWanted (.change request) request.locks now, [])
  | .decisionRead decision subjectId now =>
    .ok (.decisionSubjectLocked decision (subjectId.map (lockOf .subjects)).toList now, [])
  | .decisionSubjectLocked decision held now => lockRequest db now decision held
  | .requestLocked decision request held now => checkSubject db now decision request held
  | .decisionChecked decision request held now => checkSeparation db now decision request held
  | .decisionSeparated decision request held now => writeDecision db now decision request held
  | .completionRead request subjectId now =>
    .ok (.completionSubjectLocked request (subjectId.map (lockOf .subjects)).toList now, [])
  | .completionSubjectLocked request held now =>
    consumeEmailChallenge db now .emailChange request.newEmail none request.codeHmac held fun row =>
      .completionConsumed request row held now
  | .completionConsumed request challenge held now => lockChange db now request challenge held
  | .changeLocked request change held now => lockChangeHolder db now request change held
  | .changeHolderLocked request change held now =>
    .ok (.completionAddressLocked request change
      (advisory (.emailLock request.newEmail) :: held) now, [])
  | .completionAddressLocked request change held now =>
    if db.emailOfSubject request.newEmail = true then
      .ok (.ending held now .emailUnavailable [], [.update (.emailChange (change.close none))])
    else .ok (.completionFree request change held now, [])
  | .completionFree request change held now => completeEmailChange db now request change held
  | .proposerLocked proposal now => checkProposal db now proposal
  | .proposalChecked proposal now =>
    if db.recoverySeparationConflict proposal.subjectId proposal.requestedBy now proposal.side = true then
      .error .separationRequired
    else .ok (.proposalSeparated proposal now, [])
  | .proposalSeparated proposal now =>
    if proposal.action.isSome = true ∧ proposal.requestedBy = proposal.subjectId then .error .violation
    else .ok (.ending proposal.locks now .proposed [], [.insert (proposal.row now)])
  | .ending held now status (update :: rest) =>
    .ok (.ending (update.references ++ held) now status rest, update.changes now db)
  | .ending _ _ _ [] => .error .outOfTurn

def program : Program Row.key Stage Given Refusal UniqueEntry where
  idle := .idle
  statement := statement
  done
    | .ending _ _ _ [] => true
    | _ => false
  held := Stage.held
  uniques := Row.uniques
  violation := .violation
  elapsed := (·.time)
  held_idle := rfl

/-- Workers that run the account functions, from tables that meet a condition. -/
def accounts (W : Type) [DecidableEq W] (start : Db → Prop) :
    System (State W Db (Point Row Stage)) (Action W Given) :=
  program.protocol.system start

end MpcRegistry.Accounts
