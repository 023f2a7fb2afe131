import MpcRegistry.Accounts.Transactions

/-!
# What the account functions do in one statement

A statement that succeeds makes one of the moves listed here. A refusal with a status is one
kind of move, wherever it is made, and so is a code that was compared and found wrong.
-/
namespace MpcRegistry.Accounts
open Library WriteSet ReadCommitted Utf16 Outcome

/-- The statuses of a request that did what it asked for. -/
def Status.succeeds : Status → Bool
  | issued | sessionCreated | created | revoked | completed | proposed | decided => true
  | _ => false

/-- The right code for a live challenge, in time and with attempts left. -/
structure RightCode (db : Db) (now : Nat) (purpose : Purpose) (email : Text)
    (invitationId : Option Uuid) (codeHmac : Digest) (row : EmailChallenge) : Prop where
  found : db.liveChallenge purpose email invitationId = some row
  unexpired : now < row.expiresAt
  attempts : row.attempts < 5
  code : row.codeHmac = codeHmac
  account : row.subjectId ≠ none ∨ row.purpose = .invitation

/-- The person is there and not suspended. -/
def Db.Active (db : Db) (subjectId : Uuid) : Prop :=
  ∃ row, db.subject? subjectId = some row ∧ row.suspendedAt = none

/-- The person is there, in the tenant. -/
def Db.Member (db : Db) (subjectId tenantId : Uuid) : Prop :=
  ∃ row, db.subject? subjectId = some row ∧ row.tenantId = tenantId

/-- What the challenge of a request to start is issued for. -/
inductive Started (db : Db) (now : Nat) (request : StartChallenge) :
    Locks → List Update → Prop where
  | invitation (row : Invitation)
      (found : db.pendingInvitation request.invitationTokenHash now = some row) :
    Started db now request [lockOf .invitations row.id]
      [.supersede .invitation row.email,
        .issue (newChallenge request.challengeId .invitation row.email (some row.tenantId) none
          (some row.id) none request.codeHmac now)]
  | signIn (person : Option Subject) (found : db.findPersonByEmail request.email = person) :
    Started db now request []
      [.supersede .signIn request.email,
        .issue (newChallenge request.challengeId .signIn request.email (person.map (·.tenantId))
          (person.map (·.id)) none none request.codeHmac now)]
  | emailChange (change : Option EmailChangeRequest)
      (found : db.approvedChange request.email now = change) :
    Started db now request []
      [.supersede .emailChange request.email,
        .issue (newChallenge request.challengeId .emailChange request.email
          (change.map (·.tenantId)) (change.map (·.subjectId)) none (change.map (·.id))
          request.codeHmac now)]

/-- What an approval leaves to do, besides the decided request. -/
inductive Approved (db : Db) (now : Nat) (decision : Decision) :
    RequestRow → List Update → List (Change Row) → Prop where
  | emailChange (row : EmailChangeRequest) :
    Approved db now decision (.emailChange row)
      [.supersede .emailChange row.newEmail,
        .issue (newChallenge decision.challengeId .emailChange row.newEmail (some row.tenantId)
          (some row.subjectId) none (some row.id) decision.codeHmac now)] []
  | mfaReset (row : MfaResetRequest) :
    Approved db now decision (.mfaReset row) (resetUpdates row.subjectId row.tenantId) []
  | suspend (row : SubjectSuspension) (subject : Subject)
      (found : db.subject? row.subjectId = some subject) (action : row.action = .suspend) :
    Approved db now decision (.suspension row) (suspensionUpdates subject)
      [.update (.subject (subject.suspend (some now)))]
  | reinstate (row : SubjectSuspension) (subject : Subject)
      (found : db.subject? row.subjectId = some subject) (action : row.action = .reinstate) :
    Approved db now decision (.suspension row) [] [.update (.subject (subject.suspend none))]

inductive Moves (db : Db) : Stage → Stage → List (Change Row) → Prop where
  | taken (request : Request) : Moves db .idle (.begun request db.now) []
  | refused (stage : Stage) (held : Locks) (now : Nat) (status : Status)
      (fails : status.succeeds = false) (holds : stage.held ⊆ held) :
    Moves db stage (.ending held now status []) []
  | compared (stage : Stage) (held : Locks) (now : Nat) (purpose : Purpose) (email : Text)
      (invitationId : Option Uuid) (row : EmailChallenge)
      (found : db.liveChallenge purpose email invitationId = some row) (attempts : row.attempts < 5)
      (holds : stage.held ⊆ held) :
    Moves db stage (.ending held now .codeInvalid []) [.update (.emailChallenge row.attempted)]
  | started (request : StartChallenge) (now : Nat) (held : Locks) (updates : List Update)
      (started : Started db now request held updates) :
    Moves db (.begun (.startChallenge request) now) (.ending held now .issued updates) []
  | signInConsumed (request : VerifySignIn) (now : Nat) (row : EmailChallenge)
      (right : RightCode db now .signIn request.email none request.codeHmac row) :
    Moves db (.begun (.verifySignIn request) now) (.codeConsumed request row now)
      [.update (.emailChallenge (row.consumed now))]
  | holderRead (request : VerifySignIn) (challenge : EmailChallenge) (now : Nat) (subject : Subject)
      (found : db.subject? subject.id = some subject) (holder : challenge.subjectId = some subject.id)
      (email : subject.email = some request.email) (active : subject.suspendedAt = none) :
    Moves db (.codeConsumed request challenge now)
      (.holderRead request challenge.id subject.id subject.tenantId now) []
  | sessionAdmitted (request : VerifySignIn) (challengeId subjectId tenantId : Uuid) (now : Nat)
      (active : (db.subject? subjectId).any (·.suspendedAt.isSome) = false) :
    Moves db (.holderRead request challengeId subjectId tenantId now)
      (.sessionAdmitted request challengeId subjectId tenantId now) []
  | sessionOpened (request : VerifySignIn) (challengeId subjectId tenantId : Uuid) (now : Nat) :
    Moves db (.sessionAdmitted request challengeId subjectId tenantId now)
      (.ending [shareOf .subjects subjectId] now .sessionCreated [])
      [.insert (.session (emailCodeSession request.sessionId tenantId subjectId challengeId
        (now + request.ttlSeconds)))]
  | invitationWanted (request : Invite) (now : Nat) :
    Moves db (.begun (.createInvitation request) now) (.addressWanted (.invite request) [] now) []
  | addressLocked (request : AddressRequest) (held : Locks) (now : Nat) :
    Moves db (.addressWanted request held now)
      (.addressLocked request (advisory (.emailLock request.email) :: held) now) []
  | invitationsExpired (request : AddressRequest) (held : Locks) (now : Nat) :
    Moves db (.addressLocked request held now) (.invitationsExpired request held now)
      ((Update.expireInvitations request.email).changes now db)
  | changesExpired (request : AddressRequest) (held : Locks) (now : Nat) :
    Moves db (.invitationsExpired request held now) (.changesExpired request held now)
      ((Update.expireChangesTo request.email).changes now db)
  | addressFree (request : AddressRequest) (held : Locks) (now : Nat)
      (free : db.emailInUse request.email = false) :
    Moves db (.changesExpired request held now) (.addressFree request held now) []
  | addressTaken (request : AddressRequest) (held : Locks) (now : Nat)
      (active : db.Active request.actor) :
    Moves db (.addressFree request held now)
      (.ending (shareOf .subjects request.actor :: held) now .created []) [.insert (request.row now)]
  | invitationFound (request : RevokeInvitation) (now : Nat) (row : Invitation)
      (found : db.invitation? row.id = some row) (pending : row.state = .pending) :
    Moves db (.begun (.revokeInvitation request) now) (.invitationLocked request row now) []
  | invitationRevoked (request : RevokeInvitation) (invitation : Invitation) (now : Nat) :
    Moves db (.invitationLocked request invitation now)
      (.ending [shareOf .subjects request.revokedBy, lockOf .invitations invitation.id] now .revoked
        [.supersedeInvitation invitation.id])
      [.update (.invitation (invitation.revoke request.revokedBy))]
  | acceptanceLocked (request : AcceptInvitation) (now : Nat) (row : Invitation)
      (found : db.pendingInvitation request.tokenHash now = some row) :
    Moves db (.begun (.acceptInvitation request) now) (.acceptanceLocked request row now) []
  | acceptanceConsumed (request : AcceptInvitation) (invitation : Invitation) (now : Nat)
      (row : EmailChallenge)
      (right : RightCode db now .invitation invitation.email (some invitation.id) request.codeHmac row) :
    Moves db (.acceptanceLocked request invitation now)
      (.acceptanceConsumed request invitation row now) [.update (.emailChallenge (row.consumed now))]
  | acceptanceAddressLocked (request : AcceptInvitation) (invitation : Invitation)
      (challenge : EmailChallenge) (now : Nat) :
    Moves db (.acceptanceConsumed request invitation challenge now)
      (.acceptanceAddressLocked request invitation challenge now) []
  | acceptanceTaken (request : AcceptInvitation) (invitation : Invitation)
      (challenge : EmailChallenge) (now : Nat) :
    Moves db (.acceptanceAddressLocked request invitation challenge now)
      (.ending [advisory (.emailLock invitation.email), lockOf .invitations invitation.id] now
        .emailUnavailable []) [.update (.invitation (invitation.close none))]
  | acceptanceFree (request : AcceptInvitation) (invitation : Invitation)
      (challenge : EmailChallenge) (now : Nat) (free : db.emailOfSubject invitation.email = false) :
    Moves db (.acceptanceAddressLocked request invitation challenge now)
      (.acceptanceFree request invitation challenge now) []
  | invitationAccepted (request : AcceptInvitation) (invitation : Invitation)
      (challenge : EmailChallenge) (now : Nat) :
    Moves db (.acceptanceFree request invitation challenge now)
      (.ending [advisory (.emailLock invitation.email), lockOf .invitations invitation.id] now
        .sessionCreated []) (acceptInvitation now request invitation challenge)
  | changeWanted (request : RequestEmailChange) (now : Nat)
      (member : db.Member request.subjectId request.tenantId)
      (other : request.subjectId ≠ request.requestedBy) :
    Moves db (.begun (.requestEmailChange request) now) (.changeWanted request now) []
  | staleExpired (request : RequestEmailChange) (now : Nat) :
    Moves db (.changeWanted request now) (.staleExpired request now)
      ((Update.expireChangesOf request.subjectId).changes now db)
  | changeSubjectLocked (request : RequestEmailChange) (now : Nat)
      (active : db.Active request.subjectId) :
    Moves db (.staleExpired request now) (.changeSubjectLocked request now) []
  | changeSeparated (request : RequestEmailChange) (now : Nat) :
    Moves db (.changeSubjectLocked request now) (.changeSeparated request now) []
  | changeAddressWanted (request : RequestEmailChange) (now : Nat) :
    Moves db (.changeSeparated request now) (.addressWanted (.change request) request.locks now) []
  | decisionRead (decision : Decision) (now : Nat) (subjectId : Option Uuid) :
    Moves db (.begun (.decide decision) now) (.decisionRead decision subjectId now) []
  | decisionSubjectLocked (decision : Decision) (subjectId : Option Uuid) (now : Nat) :
    Moves db (.decisionRead decision subjectId now)
      (.decisionSubjectLocked decision (subjectId.map (lockOf .subjects)).toList now) []
  | requestLocked (decision : Decision) (request : RequestRow) (held : Locks) (now : Nat)
      (found : db.request? decision = some request) (pending : request.pending = true)
      (proposer : request.requestedBy ≠ some decision.decidedBy)
      (target : request.subjectId ≠ decision.decidedBy) :
    Moves db (.decisionSubjectLocked decision held now)
      (.requestLocked decision request ((.row request.row.key, .exclusive) :: held) now) []
  | decisionRejected (decision : Decision) (request : RequestRow) (held : Locks) (now : Nat)
      (rejects : decision.approve = false) :
    Moves db (.requestLocked decision request held now)
      (.decisionSeparated decision request (lockOf .subjects request.subjectId :: held) now) []
  | decisionChecked (decision : Decision) (request : RequestRow) (held : Locks) (now : Nat) :
    Moves db (.requestLocked decision request held now)
      (.decisionChecked decision request (lockOf .subjects request.subjectId :: held) now) []
  | decisionSeparated (decision : Decision) (request : RequestRow) (held : Locks) (now : Nat)
      (decider : db.recoverySeparationConflict request.subjectId decision.decidedBy now
        decision.kind = false)
      (proposer : request.requestedBy.any (fun actor =>
        db.recoverySeparationConflict request.subjectId actor now decision.kind) = false) :
    Moves db (.decisionChecked decision request held now)
      (.decisionSeparated decision request held now) []
  | rejected (decision : Decision) (request : RequestRow) (held : Locks) (now : Nat)
      (rejects : decision.approve = false) (active : db.Active decision.decidedBy) :
    Moves db (.decisionSeparated decision request held now)
      (.ending (shareOf .subjects decision.decidedBy :: held) now .decided [])
      [.update (request.decide decision now)]
  | approved (decision : Decision) (request : RequestRow) (held : Locks) (now : Nat)
      (updates : List Update) (changes : List (Change Row)) (approves : decision.approve = true)
      (active : db.Active decision.decidedBy)
      (approved : Approved db now decision request updates changes) :
    Moves db (.decisionSeparated decision request held now)
      (.ending (shareOf .subjects decision.decidedBy :: held) now .decided updates)
      (.update (request.decide decision now) :: changes)
  | completionRead (request : CompleteEmailChange) (now : Nat) (subjectId : Option Uuid) :
    Moves db (.begun (.completeEmailChange request) now) (.completionRead request subjectId now) []
  | completionSubjectLocked (request : CompleteEmailChange) (subjectId : Option Uuid) (now : Nat) :
    Moves db (.completionRead request subjectId now)
      (.completionSubjectLocked request (subjectId.map (lockOf .subjects)).toList now) []
  | completionConsumed (request : CompleteEmailChange) (held : Locks) (now : Nat)
      (row : EmailChallenge)
      (right : RightCode db now .emailChange request.newEmail none request.codeHmac row) :
    Moves db (.completionSubjectLocked request held now)
      (.completionConsumed request row held now) [.update (.emailChallenge (row.consumed now))]
  | changeLocked (request : CompleteEmailChange) (challenge : EmailChallenge) (held : Locks)
      (now : Nat) (row : EmailChangeRequest) (ofCode : challenge.emailChangeId = some row.id)
      (found : db.emailChange? row.id = some row) (approved : row.state = .approved) :
    Moves db (.completionConsumed request challenge held now)
      (.changeLocked request row (lockOf .emailChanges row.id :: held) now) []
  | changeHolderLocked (request : CompleteEmailChange) (change : EmailChangeRequest) (held : Locks)
      (now : Nat) (active : (db.subject? change.subjectId).any (·.suspendedAt.isSome) = false) :
    Moves db (.changeLocked request change held now)
      (.changeHolderLocked request change (lockOf .subjects change.subjectId :: held) now) []
  | completionAddressLocked (request : CompleteEmailChange) (change : EmailChangeRequest)
      (held : Locks) (now : Nat) :
    Moves db (.changeHolderLocked request change held now)
      (.completionAddressLocked request change
        (advisory (.emailLock request.newEmail) :: held) now) []
  | completionTaken (request : CompleteEmailChange) (change : EmailChangeRequest) (held : Locks)
      (now : Nat) :
    Moves db (.completionAddressLocked request change held now)
      (.ending held now .emailUnavailable []) [.update (.emailChange (change.close none))]
  | completionFree (request : CompleteEmailChange) (change : EmailChangeRequest) (held : Locks)
      (now : Nat) (free : db.emailOfSubject request.newEmail = false) :
    Moves db (.completionAddressLocked request change held now)
      (.completionFree request change held now) []
  | changeCompleted (request : CompleteEmailChange) (change : EmailChangeRequest) (held : Locks)
      (now : Nat) (subject : Subject) (found : db.subject? change.subjectId = some subject) :
    Moves db (.completionFree request change held now)
      (.ending held now .completed (completionUpdates change subject.email))
      [.update (.subject (subject.move request.newEmail)),
        .update (.emailChange (change.complete subject.email now))]
  | proposerLocked (proposal : Proposal) (now : Nat) (active : db.Active proposal.requestedBy) :
    Moves db (.begun (.propose proposal) now) (.proposerLocked proposal now) []
  | proposalChecked (proposal : Proposal) (now : Nat)
      (member : db.Member proposal.subjectId proposal.tenantId)
      (active : proposal.action = none → db.Active proposal.subjectId) :
    Moves db (.proposerLocked proposal now) (.proposalChecked proposal now) []
  | proposalSeparated (proposal : Proposal) (now : Nat) :
    Moves db (.proposalChecked proposal now) (.proposalSeparated proposal now) []
  | proposed (proposal : Proposal) (now : Nat)
      (other : proposal.action.isSome = true → proposal.requestedBy ≠ proposal.subjectId) :
    Moves db (.proposalSeparated proposal now) (.ending proposal.locks now .proposed [])
      [.insert (proposal.row now)]
  | ended (held : Locks) (now : Nat) (status : Status) (update : Update) (rest : List Update) :
    Moves db (.ending held now status (update :: rest))
      (.ending (update.references ++ held) now status rest) (update.changes now db)

section Cases

variable {db : Db} {now : Nat} {stage next : Stage} {changes : List (Change Row)} {given : Given}

theorem moves_of_answer {held : Locks} {status : Status} (fails : status.succeeds = false)
    (holds : stage.held ⊆ held) (h : answer held now status = .ok (next, changes)) :
    Moves db stage next changes := by
  cases h
  exact .refused _ _ _ _ fails holds

/-- A code is compared, or it is not and nothing is written. -/
theorem moves_of_consume (stage : Stage) {purpose : Purpose} {email : Text} {invitationId : Option Uuid}
    {codeHmac : Digest} {held : Locks} {consumed : EmailChallenge → Stage}
    (holds : stage.held ⊆ held) (h : consumeEmailChallenge db now purpose email invitationId codeHmac held consumed =
      .ok (next, changes)) :
    Moves db stage next changes ∨
      ∃ row, RightCode db now purpose email invitationId codeHmac row ∧ next = consumed row ∧
        changes = [.update (.emailChallenge (row.consumed now))] := by
  unfold consumeEmailChallenge at h
  split at h
  · exact .inl (moves_of_answer rfl holds h)
  next row found =>
    have holds' := List.subset_cons_of_subset (lockOf .emailChallenges row.id) holds
    dsimp only at h
    split at h
    · exact .inl (moves_of_answer rfl holds' h)
    next unexpired =>
      split at h
      · exact .inl (moves_of_answer rfl holds' h)
      next attempts =>
        split at h
        · cases h
          exact .inl (.compared _ _ _ _ _ _ _ found (by omega) holds')
        next right =>
          cases h
          rw [not_or, not_and_or, not_not, not_not] at right
          exact .inr ⟨row, ⟨found, by omega, by omega, right.1, right.2⟩, rfl, rfl⟩

theorem moves_of_refuse {decision : Decision} {held : Locks} {status : Status} {refusal : Refusal}
    (fails : status.succeeds = false) (holds : stage.held ⊆ held)
    (h : decision.refuse now held status refusal = .ok (next, changes)) :
    Moves db stage next changes := by
  unfold Decision.refuse at h
  split at h
  · exact moves_of_answer fails holds h
  · cases h

theorem actorAllowed_bind {actor : Uuid} {rest : Unit → Answer}
    (h : (db.actorAllowed actor).bind rest = .ok (next, changes)) :
    db.Active actor ∧ rest () = .ok (next, changes) := by
  obtain ⟨_, hallowed, h⟩ := bind_ok.mp h
  refine ⟨?_, h⟩
  unfold Db.actorAllowed at hallowed
  split at hallowed
  · cases hallowed
  next row found =>
    obtain ⟨active, -⟩ := guard_ok.mp hallowed
    exact ⟨row, found, by simpa using active⟩

theorem moves_of_start {request : StartChallenge}
    (h : startEmailChallenge db now request = .ok (next, changes)) :
    Moves db (.begun (.startChallenge request) now) next changes := by
  unfold startEmailChallenge at h
  split at h
  · split at h
    · exact moves_of_answer rfl (List.nil_subset _) h
    next row found =>
      cases h
      exact .started _ _ _ _ (.invitation row found)
  · cases h
    exact .started _ _ _ _ (.signIn _ rfl)
  · cases h
    exact .started _ _ _ _ (.emailChange _ rfl)

theorem Db.subject?_eq_some {id : Uuid} {row : Subject} (h : db.subject? id = some row) :
    db.rows.lookup (.subjects, id) = some (.subject row) := by
  obtain ⟨found, hfound, hrow⟩ := Option.bind_eq_some_iff.mp h
  cases found with
  | subject => exact Option.some.inj hrow ▸ hfound
  | _ => cases hrow

theorem Db.subject?_id {id : Uuid} {row : Subject} (h : db.subject? id = some row) : row.id = id :=
  congrArg Prod.snd (Table.lookup_eq_some.mp (Db.subject?_eq_some h)).2

theorem Db.invitation?_eq_some {id : Uuid} {row : Invitation} (h : db.invitation? id = some row) :
    db.rows.lookup (.invitations, id) = some (.invitation row) := by
  obtain ⟨found, hfound, hrow⟩ := Option.bind_eq_some_iff.mp h
  cases found with
  | invitation => exact Option.some.inj hrow ▸ hfound
  | _ => cases hrow

theorem Db.emailChange?_eq_some {id : Uuid} {row : EmailChangeRequest}
    (h : db.emailChange? id = some row) :
    db.rows.lookup (.emailChanges, id) = some (.emailChange row) := by
  obtain ⟨found, hfound, hrow⟩ := Option.bind_eq_some_iff.mp h
  cases found with
  | emailChange => exact Option.some.inj hrow ▸ hfound
  | _ => cases hrow

theorem moves_of_readHolder {request : VerifySignIn} {challenge : EmailChallenge}
    (h : readHolder db now request challenge = .ok (next, changes)) :
    Moves db (.codeConsumed request challenge now) next changes := by
  unfold readHolder at h
  split at h
  next subjectId tenantId hsubject _ =>
    split at h
    next holds =>
      cases h
      obtain ⟨subject, hfound, hchecked⟩ := (Option.any_eq_true _ _).mp holds
      obtain rfl := Db.subject?_id hfound
      simp only [Bool.and_eq_true, decide_eq_true_eq] at hchecked
      obtain ⟨⟨⟨rfl, -⟩, hemail⟩, hactive⟩ := hchecked
      exact .holderRead _ _ _ _ hfound hsubject hemail hactive
    · exact moves_of_answer rfl (List.nil_subset _) h
  · exact moves_of_answer rfl (List.nil_subset _) h

theorem moves_of_admitSession {request : VerifySignIn} {challengeId subjectId tenantId : Uuid}
    (h : admitSession db now request challengeId subjectId tenantId = .ok (next, changes)) :
    Moves db (.holderRead request challengeId subjectId tenantId now) next changes := by
  obtain ⟨-, h⟩ := guard_ok.mp h
  obtain ⟨active, h⟩ := guard_ok.mp h
  cases h
  exact .sessionAdmitted _ _ _ _ _ (Bool.eq_false_iff.mpr active)

theorem moves_of_revokeInvitation {request : RevokeInvitation}
    (h : revokeInvitation db now request = .ok (next, changes)) :
    Moves db (.begun (.revokeInvitation request) now) next changes := by
  unfold revokeInvitation at h
  split at h
  · exact moves_of_answer rfl (List.nil_subset _) h
  next row found =>
    split at h
    · exact moves_of_answer rfl (List.nil_subset _) h
    · split at h
      · exact moves_of_answer rfl (List.nil_subset _) h
      next pending =>
        cases h
        rw [not_or, not_not] at pending
        have hfound := (Option.filter_eq_some_iff.mp found).1
        have hid : row.id = request.id :=
          congrArg Prod.snd (Table.lookup_eq_some.mp (Db.invitation?_eq_some hfound)).2
        exact .invitationFound _ _ row (hid ▸ hfound) pending.1

theorem moves_of_lockRequest {decision : Decision} {held : Locks}
    (h : lockRequest db now decision held = .ok (next, changes)) :
    Moves db (.decisionSubjectLocked decision held now) next changes := by
  unfold lockRequest at h
  split at h
  · exact moves_of_refuse rfl (List.Subset.refl _) h
  next request found =>
    have holds := List.subset_cons_of_subset
      ((.row request.row.key, .exclusive) : Lock Key UniqueEntry × LockMode) (List.Subset.refl held)
    dsimp only at h
    split at h
    · exact moves_of_refuse rfl holds h
    split at h
    · exact moves_of_refuse rfl holds h
    next pending =>
      split at h
      · exact moves_of_refuse rfl holds h
      next proposer =>
        split at h
        · exact moves_of_refuse rfl holds h
        next target =>
          cases h
          exact .requestLocked _ _ _ _ found (Bool.not_eq_false _ ▸ pending) proposer target

theorem moves_of_checkSubject {decision : Decision} {request : RequestRow} {held : Locks}
    (h : checkSubject db now decision request held = .ok (next, changes)) :
    Moves db (.requestLocked decision request held now) next changes := by
  unfold checkSubject at h
  dsimp only at h
  split at h
  next rejects =>
    cases h
    exact .decisionRejected _ _ _ _ rejects
  · split at h
    · split at h
      · cases h
      · cases h
        exact .decisionChecked _ _ _ _
    · split at h
      · exact moves_of_refuse rfl (List.subset_cons_of_subset _ (List.Subset.refl _)) h
      next active =>
        cases h
        exact .decisionChecked _ _ _ _

theorem moves_of_checkSeparation {decision : Decision} {request : RequestRow} {held : Locks}
    (h : checkSeparation db now decision request held = .ok (next, changes)) :
    Moves db (.decisionChecked decision request held now) next changes := by
  unfold checkSeparation at h
  split at h
  · exact moves_of_refuse rfl (List.Subset.refl _) h
  next clear =>
    cases h
    rw [Bool.not_eq_true, Bool.or_eq_false_iff] at clear
    exact .decisionSeparated _ _ _ _ clear.1 clear.2

theorem moves_of_writeDecision {decision : Decision} {request : RequestRow} {held : Locks}
    (h : writeDecision db now decision request held = .ok (next, changes)) :
    Moves db (.decisionSeparated decision request held now) next changes := by
  obtain ⟨active, h⟩ := actorAllowed_bind h
  dsimp only at h
  split at h
  next rejects =>
    cases h
    exact .rejected _ _ _ _ rejects active
  next approves =>
    replace approves := Bool.not_eq_false _ ▸ approves
    split at h
    · cases h
      exact .approved _ _ _ _ _ _ approves active (.emailChange _)
    · cases h
      exact .approved _ _ _ _ _ _ approves active (.mfaReset _)
    · split at h
      · cases h
      next subject found =>
        split at h
        next action =>
          cases h
          exact .approved _ _ _ _ _ _ approves active (.suspend _ _ found action)
        next action =>
          cases h
          exact .approved _ _ _ _ _ _ approves active (.reinstate _ _ found action)

theorem moves_of_lockChange {request : CompleteEmailChange} {challenge : EmailChallenge}
    {held : Locks} (h : lockChange db now request challenge held = .ok (next, changes)) :
    Moves db (.completionConsumed request challenge held now) next changes := by
  unfold lockChange at h
  split at h
  · exact moves_of_answer rfl (List.Subset.refl _) h
  next row found =>
    cases h
    obtain ⟨hfound, hopen⟩ := Option.filter_eq_some_iff.mp found
    obtain ⟨id, hid, hrow⟩ := Option.bind_eq_some_iff.mp hfound
    obtain rfl : row.id = id :=
      congrArg Prod.snd (Table.lookup_eq_some.mp (Db.emailChange?_eq_some hrow)).2
    exact .changeLocked _ _ _ _ row hid hrow (of_decide_eq_true hopen).1

theorem moves_of_lockChangeHolder {request : CompleteEmailChange} {change : EmailChangeRequest}
    {held : Locks} (h : lockChangeHolder db now request change held = .ok (next, changes)) :
    Moves db (.changeLocked request change held now) next changes := by
  unfold lockChangeHolder at h
  dsimp only at h
  split at h
  · exact moves_of_answer rfl (List.subset_cons_of_subset _ (List.Subset.refl _)) h
  next active =>
    cases h
    exact .changeHolderLocked _ _ _ _ (Bool.eq_false_iff.mpr active)

theorem moves_of_completeEmailChange {request : CompleteEmailChange} {change : EmailChangeRequest}
    {held : Locks} (h : completeEmailChange db now request change held = .ok (next, changes)) :
    Moves db (.completionFree request change held now) next changes := by
  unfold completeEmailChange at h
  split at h
  · cases h
  next subject found =>
    cases h
    exact .changeCompleted _ _ _ _ subject found

theorem Db.active_of_subject? {id : Uuid} {row : Subject} (found : db.subject? id = some row)
    (active : ¬ row.suspendedAt.isSome = true) : db.Active id :=
  ⟨row, found, by simpa using active⟩

theorem Db.member_of_isPerson {subjectId tenantId : Uuid}
    (h : db.isPerson subjectId tenantId = true) : db.Member subjectId tenantId := by
  obtain ⟨row, found, hrow⟩ := (Option.any_eq_true _ _).mp h
  exact ⟨row, found, of_decide_eq_true (Bool.and_eq_true_iff.mp hrow).1⟩

theorem moves_of_checkProposal {proposal : Proposal}
    (h : checkProposal db now proposal = .ok (next, changes)) :
    Moves db (.proposerLocked proposal now) next changes := by
  unfold checkProposal at h
  split at h
  · cases h
  next row found =>
    obtain ⟨hfound, htenant⟩ := Option.filter_eq_some_iff.mp found
    have member : db.Member proposal.subjectId proposal.tenantId :=
      ⟨row, hfound, of_decide_eq_true htenant⟩
    split at h
    · obtain ⟨active, h⟩ := guard_ok.mp h
      cases h
      exact .proposalChecked _ _ member fun _ => Db.active_of_subject? hfound active
    next action hsome =>
      obtain ⟨-, h⟩ := guard_ok.mp h
      obtain ⟨-, h⟩ := guard_ok.mp h
      cases h
      exact .proposalChecked _ _ member fun hnone => by simp [hnone] at hsome

theorem moves_of_begin {request : Request} (h : begin db now request = .ok (next, changes)) :
    Moves db (.begun request now) next changes := by
  cases request with
  | startChallenge request => exact moves_of_start h
  | verifySignIn request =>
    rcases moves_of_consume (.begun (.verifySignIn request) now) (List.Subset.refl _) h with h | ⟨row, right, rfl, rfl⟩
    · exact h
    · exact .signInConsumed _ _ _ right
  | createInvitation request =>
    obtain ⟨-, h⟩ := require_ok.mp h
    cases h
    exact .invitationWanted _ _
  | revokeInvitation request => exact moves_of_revokeInvitation h
  | acceptInvitation request =>
    simp only [begin] at h
    split at h
    · exact moves_of_answer rfl (List.nil_subset _) h
    next row found =>
      cases h
      exact .acceptanceLocked _ _ _ found
  | requestEmailChange request =>
    simp only [begin] at h
    split at h
    · exact moves_of_answer rfl (List.nil_subset _) h
    next person =>
      split at h
      · exact moves_of_answer rfl (List.nil_subset _) h
      next other =>
        cases h
        exact .changeWanted _ _ (Db.member_of_isPerson (Bool.not_eq_false _ ▸ person)) other
  | completeEmailChange request =>
    cases h
    exact .completionRead _ _ _
  | propose proposal =>
    obtain ⟨active, h⟩ := actorAllowed_bind h
    cases h
    exact .proposerLocked _ _ active
  | decide decision =>
    cases h
    exact .decisionRead _ _ _

/-- A statement that succeeds makes one of the moves. -/
theorem moves_of_statement (h : statement db stage given = .ok (next, changes)) :
    Moves db stage next changes := by
  unfold statement at h
  split at h
  case h_1 => cases h; exact .taken _
  case h_2 => exact moves_of_begin h
  case h_3 => exact moves_of_readHolder h
  case h_4 => exact moves_of_admitSession h
  case h_5 => cases h; exact .sessionOpened _ _ _ _ _
  case h_6 => cases h; exact .addressLocked _ _ _
  case h_7 => cases h; exact .invitationsExpired _ _ _
  case h_8 => cases h; exact .changesExpired _ _ _
  case h_9 =>
    split at h
    · exact moves_of_answer rfl (List.Subset.refl _) h
    next free =>
      cases h
      exact .addressFree _ _ _ (Bool.eq_false_iff.mpr free)
  case h_10 =>
    obtain ⟨active, h⟩ := actorAllowed_bind h
    cases h
    exact .addressTaken _ _ _ active
  case h_11 =>
    obtain ⟨-, h⟩ := actorAllowed_bind h
    cases h
    exact .invitationRevoked _ _ _
  case h_12 =>
    rcases moves_of_consume (.acceptanceLocked _ _ _) (List.Subset.refl _) h with h | ⟨row, right, rfl, rfl⟩
    · exact h
    · exact .acceptanceConsumed _ _ _ _ right
  case h_13 => cases h; exact .acceptanceAddressLocked _ _ _ _
  case h_14 =>
    split at h
    · cases h; exact .acceptanceTaken _ _ _ _
    next free =>
      cases h
      exact .acceptanceFree _ _ _ _ (Bool.eq_false_iff.mpr free)
  case h_15 =>
    obtain ⟨-, h⟩ := guard_ok.mp h
    cases h
    exact .invitationAccepted _ _ _ _
  case h_16 => cases h; exact .staleExpired _ _
  case h_17 =>
    split at h
    · exact moves_of_answer rfl (List.nil_subset _) h
    next row found =>
      split at h
      · exact moves_of_answer rfl (List.nil_subset _) h
      next active =>
        split at h
        · exact moves_of_answer rfl (List.nil_subset _) h
        cases h
        exact .changeSubjectLocked _ _ (Db.active_of_subject? found active)
  case h_18 =>
    split at h
    · exact moves_of_answer rfl (List.Subset.refl _) h
    · cases h; exact .changeSeparated _ _
  case h_19 =>
    split at h
    · exact moves_of_answer rfl (List.Subset.refl _) h
    · cases h; exact .changeAddressWanted _ _
  case h_20 => cases h; exact .decisionSubjectLocked _ _ _
  case h_21 => exact moves_of_lockRequest h
  case h_22 => exact moves_of_checkSubject h
  case h_23 => exact moves_of_checkSeparation h
  case h_24 => exact moves_of_writeDecision h
  case h_25 => cases h; exact .completionSubjectLocked _ _ _
  case h_26 =>
    rcases moves_of_consume (.completionSubjectLocked _ _ _) (List.Subset.refl _) h with h | ⟨row, right, rfl, rfl⟩
    · exact h
    · exact .completionConsumed _ _ _ _ right
  case h_27 => exact moves_of_lockChange h
  case h_28 => exact moves_of_lockChangeHolder h
  case h_29 => cases h; exact .completionAddressLocked _ _ _ _
  case h_30 =>
    split at h
    · cases h; exact .completionTaken _ _ _ _
    next free =>
      cases h
      exact .completionFree _ _ _ _ (Bool.eq_false_iff.mpr free)
  case h_31 => exact moves_of_completeEmailChange h
  case h_32 => exact moves_of_checkProposal h
  case h_33 =>
    obtain ⟨-, h⟩ := guard_ok.mp h
    cases h
    exact .proposalSeparated _ _
  case h_34 =>
    obtain ⟨hother, h⟩ := guard_ok.mp h
    cases h
    exact .proposed _ _ fun hsome hself => hother ⟨hsome, hself⟩
  case h_35 => cases h; exact .ended _ _ _ _ _
  case h_36 => cases h

end Cases

end MpcRegistry.Accounts
