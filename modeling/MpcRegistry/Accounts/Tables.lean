import MpcRegistry.Library.Utf16
import MpcRegistry.Library.WriteSet

/-!
# The tables of accounts

Source: packages/db/migrations/0112_account_email.sql, 0113_email_challenges_and_invitations.sql,
0115_mfa_authenticators.sql, 0116_session_second_factor.sql:55-80,
0118_account_recovery_hardening.sql:60-102, 0120_external_identities.sql,
0127_subject_suspension.sql:20-75 and the closed reasons of 0128 and 0132. Addresses are as
`normalize_email` gives them. Columns that no modelled function reads are left out, and so are
the queued mail, the rate limits and the audit trail; tables lose no rows here: what is deleted
is marked. Times are seconds.
-/
namespace MpcRegistry.Accounts
open Library WriteSet ReadCommitted Utf16

abbrev Uuid := Nat

/-- Hashes, which are only compared. -/
abbrev Digest := Nat

abbrev minutes (n : Nat) : Nat := 60 * n
abbrev hours (n : Nat) : Nat := 3600 * n
abbrev days (n : Nat) : Nat := 86400 * n

/-! ## Rows -/

inductive SubjectKind where
  | person | service
  deriving DecidableEq, Repr

/-- `core.subjects` -/
structure Subject where
  id : Uuid
  tenantId : Uuid
  kind : SubjectKind
  email : Option Text
  suspendedAt : Option Nat
  createdAt : Nat
  version : Nat
  deriving DecidableEq, Repr

inductive FirstFactor where
  | emailCode | google | microsoft
  deriving DecidableEq, Repr

inductive SecondFactor where
  | passkey | totp | recoveryCode
  deriving DecidableEq, Repr

/-- `core.sessions` -/
structure Session where
  id : Uuid
  tenantId : Uuid
  subjectId : Uuid
  firstFactor : FirstFactor
  emailChallengeId : Option Uuid
  oidcTransactionId : Option Uuid
  secondFactor : Option SecondFactor
  secondFactorProofId : Option Uuid
  recoveryLimited : Bool
  expiresAt : Nat
  revokedAt : Option Nat
  deriving DecidableEq, Repr

inductive Purpose where
  | signIn | invitation | emailChange
  deriving DecidableEq, Repr

/-- `core.email_challenges` -/
structure EmailChallenge where
  id : Uuid
  purpose : Purpose
  email : Text
  tenantId : Option Uuid
  subjectId : Option Uuid
  invitationId : Option Uuid
  emailChangeId : Option Uuid
  codeHmac : Digest
  attempts : Nat
  expiresAt : Nat
  consumedAt : Option Nat
  supersededAt : Option Nat
  deriving DecidableEq, Repr

inductive ClosedReason where
  | subjectSuspended | proposerSuspended | approverSuspended | inviterSuspended
  deriving DecidableEq, Repr

inductive InvitationState where
  | pending | accepted | revoked | expired
  deriving DecidableEq, Repr

/-- `core.invitations` -/
structure Invitation where
  id : Uuid
  tenantId : Uuid
  organizationId : Uuid
  email : Text
  invitedBySubjectId : Uuid
  tokenHash : Digest
  state : InvitationState
  expiresAt : Nat
  acceptedSubjectId : Option Uuid
  revokedBySubjectId : Option Uuid
  closedReason : Option ClosedReason
  version : Nat
  deriving DecidableEq, Repr

inductive EmailChangeState where
  | pending | approved | rejected | completed | expired
  deriving DecidableEq, Repr

/-- `core.email_change_requests` -/
structure EmailChangeRequest where
  id : Uuid
  tenantId : Uuid
  subjectId : Uuid
  newEmail : Text
  requestedBySubjectId : Uuid
  requestedAt : Nat
  state : EmailChangeState
  decidedBySubjectId : Option Uuid
  decidedAt : Option Nat
  completedAt : Option Nat
  previousEmail : Option Text
  closedReason : Option ClosedReason
  version : Nat
  deriving DecidableEq, Repr

/-- `core.mfa_reset_state` -/
inductive DecisionState where
  | pending | approved | rejected
  deriving DecidableEq, Repr

inductive ResetOrigin where
  | admin | bootstrap
  deriving DecidableEq, Repr

/-- `core.mfa_reset_requests` -/
structure MfaResetRequest where
  id : Uuid
  tenantId : Uuid
  subjectId : Uuid
  requestedBySubjectId : Option Uuid
  requestedAt : Nat
  state : DecisionState
  decidedBySubjectId : Option Uuid
  decidedAt : Option Nat
  enrolmentWindowUntil : Option Nat
  origin : ResetOrigin
  closedReason : Option ClosedReason
  version : Nat
  deriving DecidableEq, Repr

inductive SuspensionAction where
  | suspend | reinstate
  deriving DecidableEq, Repr

/-- `core.subject_suspensions` -/
structure SubjectSuspension where
  id : Uuid
  tenantId : Uuid
  subjectId : Uuid
  action : SuspensionAction
  requestedBySubjectId : Uuid
  requestedAt : Nat
  state : DecisionState
  decidedBySubjectId : Option Uuid
  decidedAt : Option Nat
  enrolmentWindowUntil : Option Nat
  closedReason : Option ClosedReason
  version : Nat
  deriving DecidableEq, Repr

inductive Provider where
  | google | microsoft
  deriving DecidableEq, Repr

/-- `core.external_identities` -/
structure ExternalIdentity where
  id : Uuid
  tenantId : Uuid
  subjectId : Uuid
  provider : Provider
  issuer : Text
  subjectKey : Text
  revokedAt : Option Nat
  deriving DecidableEq, Repr

inductive OidcPurpose where
  | signIn | link | invitationAccept
  deriving DecidableEq, Repr

inductive OidcOutcome where
  | session | linked | notFound | unavailable | providerAlreadyLinked | emailMismatch
  | emailUnavailable | invitationInvalid | stepUpRequired
  deriving DecidableEq, Repr

/-- `core.oidc_login_transactions` -/
structure OidcTransaction where
  id : Uuid
  provider : Provider
  purpose : OidcPurpose
  stateHash : Digest
  bindingHash : Digest
  tenantId : Option Uuid
  subjectId : Option Uuid
  sessionId : Option Uuid
  invitationId : Option Uuid
  identityId : Option Uuid
  expiresAt : Nat
  claimedAt : Option Nat
  completedAt : Option Nat
  outcome : Option OidcOutcome
  deleted : Bool
  deriving DecidableEq, Repr

/-- `core.webauthn_credentials` -/
structure WebauthnCredential where
  id : Uuid
  tenantId : Uuid
  subjectId : Uuid
  credentialId : Text
  signCount : Nat
  revokedAt : Option Nat
  deriving DecidableEq, Repr

/-- `core.totp_authenticators` -/
structure TotpAuthenticator where
  id : Uuid
  tenantId : Uuid
  subjectId : Uuid
  pendingExpiresAt : Nat
  confirmedAt : Option Nat
  lastUsedStep : Option Nat
  failedAttempts : Nat
  failureWindowStartedAt : Option Nat
  revokedAt : Option Nat
  deriving DecidableEq, Repr

/-- `core.recovery_codes` -/
structure RecoveryCode where
  id : Uuid
  tenantId : Uuid
  subjectId : Uuid
  setId : Uuid
  codeHash : Digest
  consumedAt : Option Nat
  consumedBySessionId : Option Uuid
  voidedAt : Option Nat
  deriving DecidableEq, Repr

inductive WebauthnPurpose where
  | registration | authentication
  deriving DecidableEq, Repr

/-- `core.webauthn_challenges` -/
structure WebauthnChallenge where
  id : Uuid
  tenantId : Uuid
  subjectId : Uuid
  sessionId : Uuid
  purpose : WebauthnPurpose
  challenge : Text
  expiresAt : Nat
  consumedAt : Option Nat
  consumedBySessionId : Option Uuid
  deleted : Bool
  deriving DecidableEq, Repr

/-- What a proof of a second factor rests on. -/
inductive Evidence where
  | passkey (challengeId credentialId : Uuid)
  | totp (authenticatorId : Uuid) (step : Nat)
  | recoveryCode (codeId : Uuid)
  deriving DecidableEq, Repr

def Evidence.factor : Evidence → SecondFactor
  | passkey _ _ => .passkey
  | totp _ _ => .totp
  | recoveryCode _ => .recoveryCode

/-- `core.session_factor_proofs` -/
structure FactorProof where
  id : Uuid
  tenantId : Uuid
  subjectId : Uuid
  sessionId : Uuid
  evidence : Evidence
  deriving DecidableEq, Repr

inductive Row where
  | subject (row : Subject)
  | session (row : Session)
  | emailChallenge (row : EmailChallenge)
  | invitation (row : Invitation)
  | emailChange (row : EmailChangeRequest)
  | mfaReset (row : MfaResetRequest)
  | suspension (row : SubjectSuspension)
  | identity (row : ExternalIdentity)
  | transaction (row : OidcTransaction)
  | credential (row : WebauthnCredential)
  | totp (row : TotpAuthenticator)
  | recoveryCode (row : RecoveryCode)
  | webauthnChallenge (row : WebauthnChallenge)
  | proof (row : FactorProof)
  deriving DecidableEq, Repr

inductive TableName where
  | subjects | sessions | emailChallenges | invitations | emailChanges | mfaResets | suspensions
  | identities | transactions | credentials | totps | recoveryCodes | webauthnChallenges | proofs
  deriving DecidableEq, Repr

abbrev Key := TableName × Uuid

def Row.key : Row → Key
  | subject row => (.subjects, row.id)
  | session row => (.sessions, row.id)
  | emailChallenge row => (.emailChallenges, row.id)
  | invitation row => (.invitations, row.id)
  | emailChange row => (.emailChanges, row.id)
  | mfaReset row => (.mfaResets, row.id)
  | suspension row => (.suspensions, row.id)
  | identity row => (.identities, row.id)
  | transaction row => (.transactions, row.id)
  | credential row => (.credentials, row.id)
  | totp row => (.totps, row.id)
  | recoveryCode row => (.recoveryCodes, row.id)
  | webauthnChallenge row => (.webauthnChallenges, row.id)
  | proof row => (.proofs, row.id)

/-! ## Unique indexes and advisory locks -/

/-- The entries of the unique indexes, and the keys of the advisory locks, which no row has. -/
inductive UniqueEntry where
  | subjectEmail (email : Text)
  | sessionOfChallenge (challengeId : Uuid)
  | sessionOfTransaction (transactionId : Uuid)
  | liveChallenge (purpose : Purpose) (email : Text)
  | invitationToken (tokenHash : Digest)
  | pendingInvitation (email : Text)
  | openChangeOf (subjectId : Uuid)
  | openChangeTo (email : Text)
  | pendingReset (subjectId : Uuid)
  | pendingSuspension (subjectId : Uuid)
  | liveIdentity (provider : Provider) (issuer subjectKey : Text)
  | identityOf (subjectId : Uuid) (provider : Provider)
  | oidcState (stateHash : Digest)
  | credentialId (credentialId : Text)
  | activeTotp (subjectId : Uuid)
  | pendingTotp (subjectId : Uuid)
  | codeInSet (setId : Uuid) (codeHash : Digest)
  | webauthnChallenge (challenge : Text)
  | proofOfChallenge (challengeId : Uuid)
  | proofOfStep (authenticatorId : Uuid) (step : Nat)
  | proofOfCode (codeId : Uuid)
  | emailLock (email : Text)
  | identityLock (provider : Provider) (issuer subjectKey : Text)
  deriving DecidableEq, Repr

def EmailChallenge.live (row : EmailChallenge) : Bool :=
  row.consumedAt.isNone && row.supersededAt.isNone

/-- Pending or approved. -/
def EmailChangeRequest.isOpen (row : EmailChangeRequest) : Bool :=
  row.state = .pending || row.state = .approved

def Row.uniques : Row → List UniqueEntry
  | subject row => (row.email.map .subjectEmail).toList
  | session row =>
    (row.emailChallengeId.map .sessionOfChallenge).toList ++
      (row.oidcTransactionId.map .sessionOfTransaction).toList
  | emailChallenge row => if row.live then [.liveChallenge row.purpose row.email] else []
  | invitation row => .invitationToken row.tokenHash ::
    if row.state = .pending then [.pendingInvitation row.email] else []
  | emailChange row =>
    if row.isOpen then [.openChangeOf row.subjectId, .openChangeTo row.newEmail] else []
  | mfaReset row => if row.state = .pending then [.pendingReset row.subjectId] else []
  | suspension row => if row.state = .pending then [.pendingSuspension row.subjectId] else []
  | identity row =>
    if row.revokedAt = none then
      [.liveIdentity row.provider row.issuer row.subjectKey, .identityOf row.subjectId row.provider]
    else []
  | transaction row => [.oidcState row.stateHash]
  | credential row => [.credentialId row.credentialId]
  | totp row =>
    if row.revokedAt.isSome then []
    else if row.confirmedAt.isSome then [.activeTotp row.subjectId] else [.pendingTotp row.subjectId]
  | recoveryCode row => [.codeInSet row.setId row.codeHash]
  | webauthnChallenge row => [.webauthnChallenge row.challenge]
  | proof row =>
    match row.evidence with
    | .passkey challengeId _ => [.proofOfChallenge challengeId]
    | .totp authenticatorId step => [.proofOfStep authenticatorId step]
    | .recoveryCode codeId => [.proofOfCode codeId]

abbrev Db := Database Row.key

abbrev Locks := List (Lock Key UniqueEntry × LockMode)

/-- `FOR UPDATE` -/
def lockOf (table : TableName) (id : Uuid) : Lock Key UniqueEntry × LockMode :=
  (.row (table, id), .exclusive)

/-- `FOR KEY SHARE`, which a reference to a subject takes. -/
def shareOf (table : TableName) (id : Uuid) : Lock Key UniqueEntry × LockMode :=
  (.row (table, id), .share)

/-- `pg_advisory_xact_lock` -/
def advisory (entry : UniqueEntry) : Lock Key UniqueEntry × LockMode := (.unique entry, .exclusive)

/-! ## Reads -/

namespace Row

def subject? : Row → Option Subject
  | subject row => some row
  | _ => none

def session? : Row → Option Session
  | session row => some row
  | _ => none

def emailChallenge? : Row → Option EmailChallenge
  | emailChallenge row => some row
  | _ => none

def invitation? : Row → Option Invitation
  | invitation row => some row
  | _ => none

def emailChange? : Row → Option EmailChangeRequest
  | emailChange row => some row
  | _ => none

def mfaReset? : Row → Option MfaResetRequest
  | mfaReset row => some row
  | _ => none

def suspension? : Row → Option SubjectSuspension
  | suspension row => some row
  | _ => none

end Row

namespace Db

/-- The rows of a table. -/
def all {ρ : Type} (db : Db) (table : Row → Option ρ) : List ρ := db.rows.rows.filterMap table

def subject? (db : Db) (id : Uuid) : Option Subject :=
  (db.rows.lookup (.subjects, id)).bind Row.subject?

def emailChallenge? (db : Db) (id : Uuid) : Option EmailChallenge :=
  (db.rows.lookup (.emailChallenges, id)).bind Row.emailChallenge?

def invitation? (db : Db) (id : Uuid) : Option Invitation :=
  (db.rows.lookup (.invitations, id)).bind Row.invitation?

def emailChange? (db : Db) (id : Uuid) : Option EmailChangeRequest :=
  (db.rows.lookup (.emailChanges, id)).bind Row.emailChange?

def mfaReset? (db : Db) (id : Uuid) : Option MfaResetRequest :=
  (db.rows.lookup (.mfaResets, id)).bind Row.mfaReset?

def suspension? (db : Db) (id : Uuid) : Option SubjectSuspension :=
  (db.rows.lookup (.suspensions, id)).bind Row.suspension?

end Db

end MpcRegistry.Accounts
