import MpcRegistry.Accounts.Tables

/-!
# The UPDATE statements of the account functions

Source: packages/db/migrations/0114_email_code_functions.sql:95-135 and 200-235,
0118_account_recovery_hardening.sql:640-655, 0123_recovery_revokes_identities.sql:144-163 and
0132_final_review_state_machine.sql:347-375, 545-575 and 679-890. A loop over addresses that
supersedes the code of each is one statement here. What a suspension closes besides (role
requests, registry proposals and drafts, elevations, wallet challenges) no modelled function
reads.
-/
namespace MpcRegistry.Accounts
open Library WriteSet ReadCommitted Utf16

/-- The part that a suspended person has in a request: it is about them, they proposed it or
they approved it. -/
inductive Part where
  | subject | proposer | approver
  deriving DecidableEq, Repr

def Part.closedReason : Part → ClosedReason
  | subject => .subjectSuspended
  | proposer => .proposerSuspended
  | approver => .approverSuspended

/-- The open email changes in which a person has a part. -/
def EmailChangeRequest.openBy (row : EmailChangeRequest) (part : Part) (subjectId : Uuid) : Bool :=
  match part with
  | .subject => row.subjectId = subjectId && row.isOpen
  | .proposer => row.requestedBySubjectId = subjectId && row.isOpen
  | .approver => row.decidedBySubjectId = some subjectId && row.state = .approved

/-- Approved 72 hours ago or longer. -/
def EmailChangeRequest.stale (row : EmailChangeRequest) (now : Nat) : Bool :=
  row.state = .approved && row.decidedAt.any (· + hours 72 ≤ now)

inductive Update where
  /-- `supersede_email_challenge` -/
  | supersede (purpose : Purpose) (email : Text)
  /-- the INSERT of `issue_email_challenge` -/
  | issue (challenge : EmailChallenge)
  | expireInvitations (email : Text)
  | expireChangesTo (email : Text)
  | expireChangesOf (subjectId : Uuid)
  | supersedeInvitation (invitationId : Uuid)
  | supersedeChanges (part : Part) (subjectId : Uuid)
  | closeChanges (part : Part) (subjectId : Uuid)
  | closeResets (part : Part) (subjectId : Uuid)
  | closeSuspensions (subjectId : Uuid)
  | supersedeInvitations (subjectId : Uuid)
  | closeInvitations (subjectId : Uuid)
  | revokeCredentials (subjectId tenantId : Uuid)
  | revokeTotps (subjectId tenantId : Uuid)
  | voidCodes (subjectId tenantId : Uuid)
  /-- `revoke_subject_identities` -/
  | revokeIdentities (subjectId tenantId : Uuid)
  | deleteTransactions (subjectId : Uuid)
  | deleteWebauthnChallenges (subjectId tenantId : Uuid)
  /-- `revoke_subject_sessions` -/
  | revokeSessions (subjectId tenantId : Uuid)
  deriving DecidableEq, Repr

section Rows

variable (now : Nat)

def EmailChallenge.supersede (row : EmailChallenge) : EmailChallenge :=
  { row with supersededAt := some now }

def EmailChangeRequest.close (row : EmailChangeRequest) (reason : Option ClosedReason) :
    EmailChangeRequest :=
  { row with state := .expired, closedReason := reason, version := row.version + 1 }

def MfaResetRequest.reject (row : MfaResetRequest) (reason : ClosedReason) : MfaResetRequest :=
  { row with
    state := .rejected, closedReason := some reason, decidedAt := some now
    version := row.version + 1 }

/-- The decision stays as made; only its window no longer counts. -/
def MfaResetRequest.closeWindow (row : MfaResetRequest) : MfaResetRequest :=
  { row with closedReason := some .approverSuspended, version := row.version + 1 }

def SubjectSuspension.reject (row : SubjectSuspension) (reason : ClosedReason) : SubjectSuspension :=
  { row with
    state := .rejected, closedReason := some reason, decidedAt := some now
    version := row.version + 1 }

def Invitation.close (row : Invitation) (reason : Option ClosedReason) : Invitation :=
  { row with state := .expired, closedReason := reason, version := row.version + 1 }

variable (db : Db)

/-- What an UPDATE makes of a row, where its condition holds. An INSERT changes no row. -/
def Update.row : Update → Row → Option Row
  | supersede purpose email, .emailChallenge row =>
    if row.purpose = purpose ∧ row.email = email ∧ row.live = true then
      some (.emailChallenge (row.supersede now))
    else none
  | expireInvitations email, .invitation row =>
    if row.email = email ∧ row.state = .pending ∧ row.expiresAt ≤ now then
      some (.invitation (row.close none))
    else none
  | expireChangesTo email, .emailChange row =>
    if row.newEmail = email ∧ row.stale now = true then some (.emailChange (row.close none)) else none
  | expireChangesOf subjectId, .emailChange row =>
    if row.subjectId = subjectId ∧ row.stale now = true then some (.emailChange (row.close none))
    else none
  | supersedeInvitation invitationId, .emailChallenge row =>
    if row.invitationId = some invitationId ∧ row.live = true then
      some (.emailChallenge (row.supersede now))
    else none
  | supersedeChanges part subjectId, .emailChallenge row =>
    if row.purpose = .emailChange ∧ row.live = true ∧
        ((db.all Row.emailChange?).any fun change =>
          change.openBy part subjectId && change.newEmail = row.email) = true then
      some (.emailChallenge (row.supersede now))
    else none
  | closeChanges part subjectId, .emailChange row =>
    if row.openBy part subjectId = true then
      some (.emailChange (row.close (some part.closedReason)))
    else none
  | closeResets .subject subjectId, .mfaReset row =>
    if row.subjectId = subjectId ∧ row.state = .pending then
      some (.mfaReset (row.reject now .subjectSuspended))
    else none
  | closeResets .proposer subjectId, .mfaReset row =>
    if row.requestedBySubjectId = some subjectId ∧ row.state = .pending then
      some (.mfaReset (row.reject now .proposerSuspended))
    else none
  | closeResets .approver subjectId, .mfaReset row =>
    if row.decidedBySubjectId = some subjectId ∧ row.state = .approved ∧ row.closedReason = none ∧
        row.enrolmentWindowUntil.any (now < ·) = true then
      some (.mfaReset row.closeWindow)
    else none
  | closeSuspensions subjectId, .suspension row =>
    if row.requestedBySubjectId = subjectId ∧ row.state = .pending then
      some (.suspension (row.reject now .proposerSuspended))
    else none
  | supersedeInvitations subjectId, .emailChallenge row =>
    if row.live = true ∧ ((db.all Row.invitation?).any fun invitation =>
        invitation.invitedBySubjectId = subjectId && invitation.state = .pending &&
          row.invitationId = some invitation.id) = true then
      some (.emailChallenge (row.supersede now))
    else none
  | closeInvitations subjectId, .invitation row =>
    if row.invitedBySubjectId = subjectId ∧ row.state = .pending then
      some (.invitation (row.close (some .inviterSuspended)))
    else none
  | revokeCredentials subjectId tenantId, .credential row =>
    if row.subjectId = subjectId ∧ row.tenantId = tenantId ∧ row.revokedAt = none then
      some (.credential { row with revokedAt := some now })
    else none
  | revokeTotps subjectId tenantId, .totp row =>
    if row.subjectId = subjectId ∧ row.tenantId = tenantId ∧ row.revokedAt = none then
      some (.totp { row with revokedAt := some now })
    else none
  | voidCodes subjectId tenantId, .recoveryCode row =>
    if row.subjectId = subjectId ∧ row.tenantId = tenantId ∧ row.consumedAt = none ∧
        row.voidedAt = none then
      some (.recoveryCode { row with voidedAt := some now })
    else none
  | revokeIdentities subjectId tenantId, .identity row =>
    if row.subjectId = subjectId ∧ row.tenantId = tenantId ∧ row.revokedAt = none then
      some (.identity { row with revokedAt := some now })
    else none
  | deleteTransactions subjectId, .transaction row =>
    if row.completedAt = none ∧ row.deleted = false ∧
        ((db.all Row.session?).any fun session =>
          session.subjectId = subjectId && row.sessionId = some session.id) = true then
      some (.transaction { row with deleted := true })
    else none
  | deleteWebauthnChallenges subjectId tenantId, .webauthnChallenge row =>
    if row.subjectId = subjectId ∧ row.tenantId = tenantId ∧ row.consumedAt = none ∧
        row.deleted = false then
      some (.webauthnChallenge { row with deleted := true })
    else none
  | revokeSessions subjectId tenantId, .session row =>
    if row.subjectId = subjectId ∧ row.tenantId = tenantId ∧ row.revokedAt = none then
      some (.session { row with revokedAt := some now })
    else none
  | _, _ => none

def Update.changes (update : Update) : List (Change Row) :=
  match update with
  | issue challenge => [.insert (.emailChallenge challenge)]
  | _ => (db.rows.rows.filterMap (update.row now db)).map .update

end Rows

/-! ## What an UPDATE leaves -/

section Lemmas

variable {now : Nat} {db : Db} {update : Update} {row new : Row} {change : Change Row}

theorem Update.changes_cases (h : change ∈ update.changes now db) :
    (∃ challenge, update = .issue challenge ∧ change = .insert (.emailChallenge challenge)) ∨
      ∃ row ∈ db.rows, ∃ new, update.row now db row = some new ∧ change = .update new := by
  unfold Update.changes at h
  split at h
  · exact .inl ⟨_, rfl, List.mem_singleton.mp h⟩
  · obtain ⟨new, hnew, rfl⟩ := List.mem_map.mp h
    obtain ⟨row, hrow, hchanged⟩ := List.mem_filterMap.mp hnew
    exact .inr ⟨row, hrow, new, hchanged, rfl⟩

theorem Update.mem_changes (hrow : row ∈ db.rows) (h : update.row now db row = some new) :
    Change.update new ∈ update.changes now db := by
  cases update with
  | issue challenge => cases row <;> cases h
  | _ => exact List.mem_map_of_mem (List.mem_filterMap.mpr ⟨row, hrow, h⟩)

/-- What these statements do to rows: they end what is live and change nothing else. -/
inductive Ends (now : Nat) : Row → Row → Prop where
  | challenge (row : EmailChallenge) (live : row.live = true) :
    Ends now (.emailChallenge row) (.emailChallenge (row.supersede now))
  | change (row : EmailChangeRequest) (reason : Option ClosedReason) (isOpen : row.isOpen = true) :
    Ends now (.emailChange row) (.emailChange (row.close reason))
  | reset (row : MfaResetRequest) (reason : ClosedReason) (pending : row.state = .pending) :
    Ends now (.mfaReset row) (.mfaReset (row.reject now reason))
  | window (row : MfaResetRequest) (approved : row.state = .approved) :
    Ends now (.mfaReset row) (.mfaReset row.closeWindow)
  | suspension (row : SubjectSuspension) (reason : ClosedReason) (pending : row.state = .pending) :
    Ends now (.suspension row) (.suspension (row.reject now reason))
  | invitation (row : Invitation) (reason : Option ClosedReason) (pending : row.state = .pending) :
    Ends now (.invitation row) (.invitation (row.close reason))
  | credential (row : WebauthnCredential) :
    Ends now (.credential row) (.credential { row with revokedAt := some now })
  | totp (row : TotpAuthenticator) : Ends now (.totp row) (.totp { row with revokedAt := some now })
  | code (row : RecoveryCode) :
    Ends now (.recoveryCode row) (.recoveryCode { row with voidedAt := some now })
  | identity (row : ExternalIdentity) :
    Ends now (.identity row) (.identity { row with revokedAt := some now })
  | transaction (row : OidcTransaction) :
    Ends now (.transaction row) (.transaction { row with deleted := true })
  | webauthnChallenge (row : WebauthnChallenge) :
    Ends now (.webauthnChallenge row) (.webauthnChallenge { row with deleted := true })
  | session (row : Session) :
    Ends now (.session row) (.session { row with revokedAt := some now })

theorem EmailChangeRequest.isOpen_of_openBy {row : EmailChangeRequest} {part : Part}
    {subjectId : Uuid} (h : row.openBy part subjectId = true) : row.isOpen = true := by
  cases part with
  | subject => exact (Bool.and_eq_true_iff.mp h).2
  | proposer => exact (Bool.and_eq_true_iff.mp h).2
  | approver =>
    have hstate := of_decide_eq_true (Bool.and_eq_true_iff.mp h).2
    simp [isOpen, hstate]

theorem EmailChangeRequest.isOpen_of_stale {row : EmailChangeRequest} (h : row.stale now = true) :
    row.isOpen = true := by
  have hstate := of_decide_eq_true (Bool.and_eq_true_iff.mp h).1
  simp [isOpen, hstate]

theorem Update.ends_of_row (h : update.row now db row = some new) : Ends now row new := by
  unfold Update.row at h
  split at h
  case h_21 => cases h
  all_goals
    obtain ⟨holds, h⟩ := Option.ite_none_right_eq_some.mp h
    obtain rfl := Option.some.inj h
  case h_1 => exact .challenge _ holds.2.2
  case h_2 => exact .invitation _ _ holds.2.1
  case h_3 => exact .change _ _ (EmailChangeRequest.isOpen_of_stale holds.2)
  case h_4 => exact .change _ _ (EmailChangeRequest.isOpen_of_stale holds.2)
  case h_5 => exact .challenge _ holds.2
  case h_6 => exact .challenge _ holds.2.1
  case h_7 => exact .change _ _ (EmailChangeRequest.isOpen_of_openBy holds)
  case h_8 => exact .reset _ _ holds.2
  case h_9 => exact .reset _ _ holds.2
  case h_10 => exact .window _ holds.2.1
  case h_11 => exact .suspension _ _ holds.2
  case h_12 => exact .challenge _ holds.1
  case h_13 => exact .invitation _ _ holds.2
  case h_14 => exact .credential _
  case h_15 => exact .totp _
  case h_16 => exact .code _
  case h_17 => exact .identity _
  case h_18 => exact .transaction _
  case h_19 => exact .webauthnChallenge _
  case h_20 => exact .session _

theorem Ends.key_eq (h : Ends now row new) : new.key = row.key := by
  cases h <;> rfl

end Lemmas

end MpcRegistry.Accounts
