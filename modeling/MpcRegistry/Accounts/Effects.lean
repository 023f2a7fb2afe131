import MpcRegistry.Accounts.Steps
import MpcRegistry.Library.LockedFacts

/-!
# What a statement writes over what

A stage goes on with rows that its transaction has locked or written, so that they are still
there. So every row that a statement writes is one of those listed here, over the row listed
with it.
-/
namespace MpcRegistry.Accounts
open Library WriteSet ReadCommitted Utf16

def RequestRow.kind : RequestRow → Recovery
  | emailChange _ => .emailChange
  | mfaReset _ => .mfaReset
  | suspension _ => .suspension

/-- The locks with which a request for an address begins. -/
def AddressRequest.locks : AddressRequest → Locks
  | invite _ => []
  | change request => request.locks

/-- No one asks for a change of their own address. -/
def AddressRequest.ByOther : AddressRequest → Prop
  | invite _ => True
  | change request => request.subjectId ≠ request.requestedBy

/-- The rows that a stage goes on with. -/
def Stage.captured : Stage → List Row
  | .codeConsumed _ challenge now => [.emailChallenge (challenge.consumed now)]
  | .invitationLocked _ invitation _ => [.invitation invitation]
  | .acceptanceLocked _ invitation _ => [.invitation invitation]
  | .acceptanceConsumed _ invitation challenge now =>
    [.invitation invitation, .emailChallenge (challenge.consumed now)]
  | .acceptanceAddressLocked _ invitation challenge now =>
    [.invitation invitation, .emailChallenge (challenge.consumed now)]
  | .acceptanceFree _ invitation challenge now =>
    [.invitation invitation, .emailChallenge (challenge.consumed now)]
  | .requestLocked _ request _ _ => [request.row]
  | .decisionChecked _ request _ _ => [request.row]
  | .decisionSeparated _ request _ _ => [request.row]
  | .completionConsumed _ challenge _ now => [.emailChallenge (challenge.consumed now)]
  | .changeLocked _ change _ _ => [.emailChange change]
  | .changeHolderLocked _ change _ _ => [.emailChange change]
  | .completionAddressLocked _ change _ _ => [.emailChange change]
  | .completionFree _ change _ _ => [.emailChange change]
  | _ => []

/-- What a request for an address begins with. -/
structure AddressRequest.Begun (request : AddressRequest) (held : Locks) : Prop where
  locks : request.locks ⊆ held
  byOther : request.ByOther

/-- What an acceptance has found, and compared the code with. -/
structure Acceptable (invitation : Invitation) (challenge : EmailChallenge) : Prop where
  pending : invitation.state = .pending
  live : challenge.live = true
  purpose : challenge.purpose = .invitation
  email : challenge.email = invitation.email
  unbound : challenge.subjectId = none

/-- What a decision has found of the request, which it has locked. -/
structure Undecided (decision : Decision) (request : RequestRow) (held : Locks) : Prop where
  kind : request.kind = decision.kind
  pending : request.pending = true
  proposer : request.requestedBy ≠ some decision.decidedBy
  target : request.subjectId ≠ decision.decidedBy
  locked : (.row request.row.key, .exclusive) ∈ held

/-- What a completion has found of the change, which it has locked with its holder. -/
structure Completable (change : EmailChangeRequest) (held : Locks) : Prop where
  approved : change.state = .approved
  locked : lockOf .emailChanges change.id ∈ held
  holder : lockOf .subjects change.subjectId ∈ held

/-- What the transaction has checked and locked on its way to a stage. -/
def Stage.Checked : Stage → Prop
  | .codeConsumed request challenge _ =>
    challenge.live = true ∧ challenge.purpose = .signIn ∧ challenge.email = request.email
  | .addressWanted request held _ => request.Begun held
  | .addressLocked request held _ => request.Begun held ∧ advisory (.emailLock request.email) ∈ held
  | .invitationsExpired request held _ =>
    request.Begun held ∧ advisory (.emailLock request.email) ∈ held
  | .changesExpired request held _ => request.Begun held ∧ advisory (.emailLock request.email) ∈ held
  | .addressFree request held _ => request.Begun held ∧ advisory (.emailLock request.email) ∈ held
  | .invitationLocked _ invitation _ => invitation.state = .pending
  | .acceptanceLocked _ invitation _ => invitation.state = .pending
  | .acceptanceConsumed _ invitation challenge _ => Acceptable invitation challenge
  | .acceptanceAddressLocked _ invitation challenge _ => Acceptable invitation challenge
  | .acceptanceFree _ invitation challenge _ => Acceptable invitation challenge
  | .changeWanted request _ => request.subjectId ≠ request.requestedBy
  | .staleExpired request _ => request.subjectId ≠ request.requestedBy
  | .changeSubjectLocked request _ => request.subjectId ≠ request.requestedBy
  | .changeSeparated request _ => request.subjectId ≠ request.requestedBy
  | .requestLocked decision request held _ => Undecided decision request held
  | .decisionChecked decision request held _ =>
    Undecided decision request held ∧ lockOf .subjects request.subjectId ∈ held
  | .decisionSeparated decision request held _ =>
    Undecided decision request held ∧ lockOf .subjects request.subjectId ∈ held
  | .completionConsumed request challenge _ _ =>
    challenge.live = true ∧ challenge.purpose = .emailChange ∧ challenge.email = request.newEmail
  | .changeLocked _ change held _ => change.state = .approved ∧ lockOf .emailChanges change.id ∈ held
  | .changeHolderLocked _ change held _ => Completable change held
  | .completionAddressLocked request change held _ =>
    Completable change held ∧ advisory (.emailLock request.newEmail) ∈ held
  | .completionFree request change held _ =>
    Completable change held ∧ advisory (.emailLock request.newEmail) ∈ held
  | _ => True

/-- Who asks for something about a person, and who decides on it. -/
structure Apart (subjectId : Uuid) (requestedBy decidedBy : Option Uuid) : Prop where
  proposer : ∀ actor, decidedBy = some actor → requestedBy ≠ some actor
  subject : decidedBy ≠ some subjectId

/-- No one has decided on it, and nothing has closed it. -/
def Untouched (decidedBy : Option Uuid) (closedReason : Option ClosedReason) : Prop :=
  decidedBy = none ∧ closedReason = none

/-- What holds of every row by itself. -/
def Row.Ok : Row → Prop
  | .emailChallenge row => row.attempts ≤ 5 ∧
    (row.purpose = .invitation → row.consumedAt = none → row.subjectId = none) ∧
    (row.purpose ≠ .invitation → row.consumedAt ≠ none → row.subjectId ≠ none)
  | .emailChange row => row.subjectId ≠ row.requestedBySubjectId ∧
    Apart row.subjectId (some row.requestedBySubjectId) row.decidedBySubjectId ∧
    (row.state = .pending → Untouched row.decidedBySubjectId row.closedReason)
  | .mfaReset row => Apart row.subjectId row.requestedBySubjectId row.decidedBySubjectId ∧
    (row.state = .pending → Untouched row.decidedBySubjectId row.closedReason)
  | .suspension row => row.subjectId ≠ row.requestedBySubjectId ∧
    Apart row.subjectId (some row.requestedBySubjectId) row.decidedBySubjectId ∧
    (row.state = .pending → Untouched row.decidedBySubjectId row.closedReason)
  | _ => True

/-- A row that a statement writes with others, over the row that it finds. -/
inductive Effect (view : Db) (changes : List (Change Row)) : Stage → Stage → Option Row → Row → Prop
  where
  | issued (challenge : EmailChallenge) (held : Locks) (now : Nat) (status : Status)
      (rest : List Update) :
    Effect view changes (.ending held now status (.issue challenge :: rest))
      (.ending ((Update.issue challenge).references ++ held) now status rest) none
      (.emailChallenge challenge)
  | ended (stage next : Stage) (now : Nat) (old new : Row) (ends : Ends now old new) :
    Effect view changes stage next (some old) new
  | attempted (stage next : Stage) (row : EmailChallenge) (live : row.live = true)
      (attempts : row.attempts < 5) :
    Effect view changes stage next (some (.emailChallenge row)) (.emailChallenge row.attempted)
  | consumed (stage next : Stage) (now : Nat) (row : EmailChallenge) (live : row.live = true)
      (attempts : row.attempts < 5) (account : row.subjectId ≠ none ∨ row.purpose = .invitation) :
    Effect view changes stage next (some (.emailChallenge row)) (.emailChallenge (row.consumed now))
  | sessionOpened (request : VerifySignIn) (challengeId subjectId tenantId : Uuid) (now : Nat) :
    Effect view changes (.sessionAdmitted request challengeId subjectId tenantId now)
      (.ending [shareOf .subjects subjectId] now .sessionCreated []) none
      (.session (emailCodeSession request.sessionId tenantId subjectId challengeId
        (now + request.ttlSeconds)))
  | addressTaken (request : AddressRequest) (held : Locks) (now : Nat)
      (active : view.Active request.actor) :
    Effect view changes (.addressFree request held now)
      (.ending (shareOf .subjects request.actor :: held) now .created []) none (request.row now)
  | invitationRevoked (request : RevokeInvitation) (invitation : Invitation) (now : Nat) (next : Stage) :
    Effect view changes (.invitationLocked request invitation now) next (some (.invitation invitation))
      (.invitation (invitation.revoke request.revokedBy))
  | personInvited (request : AcceptInvitation) (invitation : Invitation) (challenge : EmailChallenge)
      (now : Nat) (together : changes = acceptInvitation now request invitation challenge) :
    Effect view changes (.acceptanceFree request invitation challenge now)
      (.ending [advisory (.emailLock invitation.email), lockOf .invitations invitation.id] now
        .sessionCreated []) none (.subject (invitedSubject now request.subjectId invitation))
  | invitationAccepted (request : AcceptInvitation) (invitation : Invitation)
      (challenge : EmailChallenge) (now : Nat) (next : Stage) :
    Effect view changes (.acceptanceFree request invitation challenge now) next
      (some (.invitation invitation)) (.invitation (invitation.accept request.subjectId))
  | codeBound (request : AcceptInvitation) (invitation : Invitation) (challenge : EmailChallenge)
      (now : Nat) (next : Stage) :
    Effect view changes (.acceptanceFree request invitation challenge now) next
      (some (.emailChallenge (challenge.consumed now)))
      (.emailChallenge { challenge.consumed now with subjectId := some request.subjectId })
  | sessionAccepted (request : AcceptInvitation) (invitation : Invitation)
      (challenge : EmailChallenge) (now : Nat)
      (together : changes = acceptInvitation now request invitation challenge) :
    Effect view changes (.acceptanceFree request invitation challenge now)
      (.ending [advisory (.emailLock invitation.email), lockOf .invitations invitation.id] now
        .sessionCreated []) none
      (.session (emailCodeSession request.sessionId invitation.tenantId request.subjectId
        challenge.id (now + request.ttlSeconds)))
  | rejected (decision : Decision) (request : RequestRow) (held : Locks) (now : Nat) (next : Stage)
      (rejects : decision.approve = false) :
    Effect view changes (.decisionSeparated decision request held now) next (some request.row)
      (request.decide decision now)
  | approved (decision : Decision) (request : RequestRow) (held : Locks) (now : Nat)
      (updates : List Update) (more : List (Change Row)) (approves : decision.approve = true)
      (active : view.Active decision.decidedBy)
      (approved : Approved view now decision request updates more) :
    Effect view changes (.decisionSeparated decision request held now)
      (.ending (shareOf .subjects decision.decidedBy :: held) now .decided updates)
      (some request.row) (request.decide decision now)
  | suspended (decision : Decision) (row : SubjectSuspension) (held : Locks) (now : Nat)
      (subject : Subject) (action : row.action = .suspend) (id : subject.id = row.subjectId) :
    Effect view changes (.decisionSeparated decision (.suspension row) held now)
      (.ending (shareOf .subjects decision.decidedBy :: held) now .decided
        (suspensionUpdates subject)) (some (.subject subject))
      (.subject (subject.suspend (some now)))
  | reinstated (decision : Decision) (row : SubjectSuspension) (held : Locks) (now : Nat)
      (subject : Subject) (action : row.action = .reinstate) (id : subject.id = row.subjectId) :
    Effect view changes (.decisionSeparated decision (.suspension row) held now)
      (.ending (shareOf .subjects decision.decidedBy :: held) now .decided [])
      (some (.subject subject)) (.subject (subject.suspend none))
  | moved (request : CompleteEmailChange) (change : EmailChangeRequest) (held : Locks) (now : Nat)
      (subject : Subject) (id : subject.id = change.subjectId)
      (together : changes = [.update (.subject (subject.move request.newEmail)),
        .update (.emailChange (change.complete subject.email now))]) :
    Effect view changes (.completionFree request change held now)
      (.ending held now .completed (completionUpdates change subject.email))
      (some (.subject subject)) (.subject (subject.move request.newEmail))
  | completed (request : CompleteEmailChange) (change : EmailChangeRequest) (held : Locks)
      (now : Nat) (next : Stage) (previousEmail : Option Text) :
    Effect view changes (.completionFree request change held now) next (some (.emailChange change))
      (.emailChange (change.complete previousEmail now))
  | proposed (proposal : Proposal) (now : Nat)
      (other : proposal.action.isSome = true → proposal.requestedBy ≠ proposal.subjectId) :
    Effect view changes (.proposalSeparated proposal now) (.ending proposal.locks now .proposed []) none
      (proposal.row now)

section Reads

variable {db view : Db} {stage next : Stage} {changes : List (Change Row)} {change : Change Row}

theorem Db.mem_all_iff {ρ : Type} {table : Row → Option ρ} {make : ρ → Row}
    (inverse : ∀ r row, table r = some row ↔ r = make row) {row : ρ} :
    row ∈ db.all table ↔ make row ∈ db.rows := by
  rw [Db.all, List.mem_filterMap]
  constructor
  · rintro ⟨r, hr, hrow⟩
    exact (inverse r row).mp hrow ▸ hr
  · exact fun h => ⟨make row, h, (inverse _ row).mpr rfl⟩

theorem Row.emailChallenge?_eq_some (r : Row) (row : EmailChallenge) :
    r.emailChallenge? = some row ↔ r = .emailChallenge row := by
  cases r <;> simp [Row.emailChallenge?]

theorem Row.invitation?_eq_some (r : Row) (row : Invitation) :
    r.invitation? = some row ↔ r = .invitation row := by
  cases r <;> simp [Row.invitation?]

theorem Row.emailChange?_eq_some (r : Row) (row : EmailChangeRequest) :
    r.emailChange? = some row ↔ r = .emailChange row := by
  cases r <;> simp [Row.emailChange?]

theorem Row.mfaReset?_eq_some (r : Row) (row : MfaResetRequest) :
    r.mfaReset? = some row ↔ r = .mfaReset row := by
  cases r <;> simp [Row.mfaReset?]

theorem Row.suspension?_eq_some (r : Row) (row : SubjectSuspension) :
    r.suspension? = some row ↔ r = .suspension row := by
  cases r <;> simp [Row.suspension?]

theorem Row.subject?_eq_some (r : Row) (row : Subject) : r.subject? = some row ↔ r = .subject row := by
  cases r <;> simp [Row.subject?]

/-- What is looked up under a key is the row with it. -/
theorem Db.mem_of_lookup {k : Key} {row : Row} (h : db.rows.lookup k = some row) : row ∈ db.rows :=
  (Table.lookup_eq_some.mp h).1

theorem Db.liveChallenge_eq_some {purpose : Purpose} {email : Text} {invitationId : Option Uuid}
    {row : EmailChallenge} (h : db.liveChallenge purpose email invitationId = some row) :
    .emailChallenge row ∈ db.rows ∧ row.purpose = purpose ∧ row.email = email ∧ row.live = true ∧
      (invitationId.isNone = true ∨ row.invitationId = invitationId) := by
  have hmem := (Db.mem_all_iff Row.emailChallenge?_eq_some).mp (List.mem_of_find?_eq_some h)
  have hfound := List.find?_some h
  simp only [Bool.and_eq_true, Bool.or_eq_true, decide_eq_true_eq] at hfound
  obtain ⟨⟨⟨hpurpose, hemail⟩, hlive⟩, hinvitation⟩ := hfound
  exact ⟨hmem, hpurpose, hemail, hlive, hinvitation⟩

theorem Db.pendingInvitation_eq_some {tokenHash : Digest} {now : Nat} {row : Invitation}
    (h : db.pendingInvitation tokenHash now = some row) :
    .invitation row ∈ db.rows ∧ row.state = .pending := by
  have hmem := (Db.mem_all_iff Row.invitation?_eq_some).mp (List.mem_of_find?_eq_some h)
  have hfound := List.find?_some h
  simp only [Bool.and_eq_true, decide_eq_true_eq] at hfound
  exact ⟨hmem, hfound.1.2⟩

theorem Db.approvedChange_eq_some {email : Text} {now : Nat} {row : EmailChangeRequest}
    (h : db.approvedChange email now = some row) :
    .emailChange row ∈ db.rows ∧ row.newEmail = email := by
  have hmem := (Db.mem_all_iff Row.emailChange?_eq_some).mp (List.mem_of_find?_eq_some h)
  have hfound := List.find?_some h
  simp only [Bool.and_eq_true, decide_eq_true_eq] at hfound
  exact ⟨hmem, hfound.1.1⟩

theorem Db.mfaReset?_eq_some {id : Uuid} {row : MfaResetRequest} (h : db.mfaReset? id = some row) :
    db.rows.lookup (.mfaResets, id) = some (.mfaReset row) := by
  obtain ⟨found, hfound, hrow⟩ := Option.bind_eq_some_iff.mp h
  cases found with
  | mfaReset => exact Option.some.inj hrow ▸ hfound
  | _ => cases hrow

theorem Db.suspension?_eq_some {id : Uuid} {row : SubjectSuspension}
    (h : db.suspension? id = some row) :
    db.rows.lookup (.suspensions, id) = some (.suspension row) := by
  obtain ⟨found, hfound, hrow⟩ := Option.bind_eq_some_iff.mp h
  cases found with
  | suspension => exact Option.some.inj hrow ▸ hfound
  | _ => cases hrow

/-- A decision finds a request of its kind. -/
theorem Db.request?_eq_some {decision : Decision} {request : RequestRow}
    (h : db.request? decision = some request) :
    request.row ∈ db.rows ∧ request.kind = decision.kind := by
  unfold Db.request? at h
  split at h
  next hkind =>
    obtain ⟨row, hrow, rfl⟩ := Option.map_eq_some_iff.mp h
    have hfound := Db.emailChange?_eq_some (Option.filter_eq_some_iff.mp hrow).1
    exact ⟨Db.mem_of_lookup hfound, hkind.symm⟩
  next hkind =>
    obtain ⟨row, hrow, rfl⟩ := Option.map_eq_some_iff.mp h
    have hfound := Db.mfaReset?_eq_some (Option.filter_eq_some_iff.mp hrow).1
    exact ⟨Db.mem_of_lookup hfound, hkind.symm⟩
  next hkind =>
    obtain ⟨row, hrow, rfl⟩ := Option.map_eq_some_iff.mp h
    have hfound := Db.suspension?_eq_some (Option.filter_eq_some_iff.mp hrow).1
    exact ⟨Db.mem_of_lookup hfound, hkind.symm⟩

/-- A transaction keeps its locks. -/
theorem Moves.held_subset (h : Moves view stage next changes) : stage.held ⊆ next.held := by
  cases h with
  | refused _ _ _ _ _ holds => exact holds
  | compared _ _ _ _ _ _ _ _ _ holds => exact holds
  | _ => simp [Stage.held, RequestEmailChange.locks, Proposal.locks]

/-- What a stage goes on with has been checked. -/
theorem Moves.checked (h : Moves view stage next changes) (hchecked : stage.Checked)
    (hok : ∀ r ∈ view.rows, r.Ok) : next.Checked := by
  cases h with
  | signInConsumed _ _ _ right =>
    obtain ⟨-, hpurpose, hemail, hlive, -⟩ := Db.liveChallenge_eq_some right.found
    exact ⟨hlive, hpurpose, hemail⟩
  | invitationWanted _ _ => exact ⟨List.nil_subset _, trivial⟩
  | addressLocked _ _ _ =>
    exact ⟨⟨List.subset_cons_of_subset _ hchecked.locks, hchecked.byOther⟩, List.mem_cons_self⟩
  | invitationsExpired _ _ _ => exact hchecked
  | changesExpired _ _ _ => exact hchecked
  | addressFree _ _ _ _ => exact hchecked
  | invitationFound _ _ _ _ pending => exact pending
  | acceptanceLocked _ _ _ found => exact (Db.pendingInvitation_eq_some found).2
  | acceptanceConsumed _ _ _ _ right =>
    obtain ⟨hrow, hpurpose, hemail, hlive, -⟩ := Db.liveChallenge_eq_some right.found
    have hunconsumed := Option.isNone_iff_eq_none.mp (Bool.and_eq_true_iff.mp hlive).1
    exact ⟨hchecked, hlive, hpurpose, hemail, (hok _ hrow).2.1 hpurpose hunconsumed⟩
  | acceptanceAddressLocked _ _ _ _ => exact hchecked
  | acceptanceFree _ _ _ _ _ => exact hchecked
  | changeWanted _ _ _ other => exact other
  | staleExpired _ _ => exact hchecked
  | changeSubjectLocked _ _ _ => exact hchecked
  | changeSeparated _ _ => exact hchecked
  | changeAddressWanted _ _ => exact ⟨List.Subset.refl _, hchecked⟩
  | requestLocked _ _ _ _ found pending proposer target =>
    exact ⟨(Db.request?_eq_some found).2, pending, proposer, target, List.mem_cons_self⟩
  | decisionRejected _ _ _ _ _ =>
    exact ⟨⟨hchecked.kind, hchecked.pending, hchecked.proposer, hchecked.target,
      List.mem_cons_of_mem _ hchecked.locked⟩, List.mem_cons_self⟩
  | decisionChecked _ _ _ _ =>
    exact ⟨⟨hchecked.kind, hchecked.pending, hchecked.proposer, hchecked.target,
      List.mem_cons_of_mem _ hchecked.locked⟩, List.mem_cons_self⟩
  | decisionSeparated _ _ _ _ _ _ => exact hchecked
  | completionConsumed _ _ _ _ right =>
    obtain ⟨-, hpurpose, hemail, hlive, -⟩ := Db.liveChallenge_eq_some right.found
    exact ⟨hlive, hpurpose, hemail⟩
  | changeLocked _ _ _ _ _ _ _ approved => exact ⟨approved, List.mem_cons_self⟩
  | changeHolderLocked _ _ _ _ _ =>
    exact ⟨hchecked.1, List.mem_cons_of_mem _ hchecked.2, List.mem_cons_self⟩
  | completionAddressLocked _ _ _ _ =>
    exact ⟨⟨hchecked.approved, List.mem_cons_of_mem _ hchecked.locked,
      List.mem_cons_of_mem _ hchecked.holder⟩, List.mem_cons_self⟩
  | completionFree _ _ _ _ _ => exact hchecked
  | _ => trivial

/-! ## Rows that a statement writes -/

theorem sublist_map_filterMap {α β κ : Type} {f : α → Option β} {g : α → κ} {g' : β → κ}
    (same : ∀ a b, f a = some b → g' b = g a) (xs : List α) :
    ((xs.filterMap f).map g').Sublist (xs.map g) := by
  induction xs with
  | nil => exact .slnil
  | cons a rest ih =>
    cases hfa : f a with
    | none =>
      rw [List.filterMap_cons_none hfa]
      exact .cons _ ih
    | some b =>
      rw [List.filterMap_cons_some hfa, List.map_cons, List.map_cons, same a b hfa]
      exact .cons_cons _ ih

theorem Update.changes_distinct (update : Update) (now : Nat) :
    ((update.changes now db).map fun change => change.row.key).Nodup := by
  unfold Update.changes
  split
  · exact List.nodup_singleton _
  · rw [List.map_map]
    exact (sublist_map_filterMap (fun _ _ h => (Update.ends_of_row h).key_eq) _).nodup
      db.rows.distinct

theorem RequestRow.decide_key (request : RequestRow) (decision : Decision) (now : Nat) :
    (request.decide decision now).key = request.row.key := by
  cases request <;> rfl

/-- A statement takes up a row once. -/
theorem Moves.distinct (h : Moves view stage next changes) :
    (changes.map fun change => change.row.key).Nodup := by
  cases h with
  | invitationsExpired _ _ _ => exact Update.changes_distinct _ _
  | changesExpired _ _ _ => exact Update.changes_distinct _ _
  | staleExpired _ _ => exact Update.changes_distinct _ _
  | ended _ _ _ _ _ => exact Update.changes_distinct _ _
  | invitationAccepted _ _ _ _ => simp [acceptInvitation, Change.row, Row.key]
  | changeCompleted _ _ _ _ _ _ => simp [Change.row, Row.key]
  | approved _ _ _ _ _ _ _ _ approved =>
    cases approved <;> simp [Change.row, RequestRow.decide, Row.key]
  | _ => simp

theorem lookup_of_mem {r : Row} (h : r ∈ view.rows) : view.rows.lookup r.key = some r :=
  Table.mem_iff_lookup.mp h

theorem Update.effect_of_changes {update : Update} {now : Nat} {old : Option Row}
    (hissue : ∀ challenge, update ≠ .issue challenge)
    (hmem : change ∈ update.changes now view) (hold : old = view.rows.lookup change.row.key) :
    Effect view changes stage next old change.row := by
  rcases Update.changes_cases hmem with ⟨challenge, hupdate, -⟩ | ⟨row, hrow, new, hnew, rfl⟩
  · exact absurd hupdate (hissue challenge)
  · have hends := Update.ends_of_row hnew
    rw [Change.row, hends.key_eq, lookup_of_mem hrow] at hold
    exact hold ▸ .ended _ _ _ _ _ hends

theorem Change.old_of_insert {row : Row} {old : Option Row}
    (hfinds : (Change.insert row).finds old = true) : old = none :=
  Option.isNone_iff_eq_none.mp hfinds

/-- Every change of a statement is one of those listed, over what it finds. -/
theorem Moves.effect (h : Moves view stage next changes) (hchecked : stage.Checked)
    (hcaptured : ∀ row ∈ stage.captured, row ∈ view.rows) {old : Option Row}
    (hmem : change ∈ changes) (hold : old = view.rows.lookup change.row.key)
    (hfinds : change.finds old = true) : Effect view changes stage next old change.row := by
  have hfound : ∀ {r : Row}, r ∈ stage.captured → r.key = change.row.key → old = some r :=
    fun hr hkey => by rw [hold, ← hkey, lookup_of_mem (hcaptured _ hr)]
  cases h with
  | compared _ _ _ _ _ _ row found attempts _ =>
    obtain rfl := List.mem_singleton.mp hmem
    obtain ⟨hrow, -, -, hlive, -⟩ := Db.liveChallenge_eq_some found
    rw [show old = some (.emailChallenge row) from hold.trans (lookup_of_mem hrow)]
    exact .attempted _ _ _ hlive attempts
  | signInConsumed _ _ row right =>
    obtain rfl := List.mem_singleton.mp hmem
    obtain ⟨hrow, -, -, hlive, -⟩ := Db.liveChallenge_eq_some right.found
    rw [show old = some (.emailChallenge row) from hold.trans (lookup_of_mem hrow)]
    exact .consumed _ _ _ _ hlive right.attempts right.account
  | acceptanceConsumed _ _ _ row right =>
    obtain rfl := List.mem_singleton.mp hmem
    obtain ⟨hrow, -, -, hlive, -⟩ := Db.liveChallenge_eq_some right.found
    rw [show old = some (.emailChallenge row) from hold.trans (lookup_of_mem hrow)]
    exact .consumed _ _ _ _ hlive right.attempts right.account
  | completionConsumed _ _ _ row right =>
    obtain rfl := List.mem_singleton.mp hmem
    obtain ⟨hrow, -, -, hlive, -⟩ := Db.liveChallenge_eq_some right.found
    rw [show old = some (.emailChallenge row) from hold.trans (lookup_of_mem hrow)]
    exact .consumed _ _ _ _ hlive right.attempts right.account
  | sessionOpened _ _ _ _ _ =>
    obtain rfl := List.mem_singleton.mp hmem
    rw [Change.old_of_insert hfinds]
    exact .sessionOpened _ _ _ _ _
  | invitationsExpired _ _ _ => exact Update.effect_of_changes (fun _ h => by cases h) hmem hold
  | changesExpired _ _ _ => exact Update.effect_of_changes (fun _ h => by cases h) hmem hold
  | staleExpired _ _ => exact Update.effect_of_changes (fun _ h => by cases h) hmem hold
  | addressTaken _ _ _ active =>
    obtain rfl := List.mem_singleton.mp hmem
    rw [Change.old_of_insert hfinds]
    exact .addressTaken _ _ _ active
  | invitationRevoked request invitation _ =>
    obtain rfl := List.mem_singleton.mp hmem
    rw [hfound (r := .invitation invitation) List.mem_cons_self rfl]
    exact .invitationRevoked _ _ _ _
  | acceptanceTaken _ invitation _ _ =>
    obtain rfl := List.mem_singleton.mp hmem
    rw [hfound (r := .invitation invitation) List.mem_cons_self rfl]
    exact .ended _ _ 0 _ _ (.invitation _ _ hchecked.pending)
  | invitationAccepted request invitation challenge now =>
    simp only [acceptInvitation, List.mem_cons, List.not_mem_nil, or_false] at hmem
    rcases hmem with rfl | rfl | rfl | rfl
    · rw [Change.old_of_insert hfinds]
      exact .personInvited _ _ _ _ rfl
    · rw [hfound (r := .invitation invitation) List.mem_cons_self rfl]
      exact .invitationAccepted _ _ _ _ _
    · rw [hfound (r := .emailChallenge (challenge.consumed now))
        (List.mem_cons_of_mem _ List.mem_cons_self) rfl]
      exact .codeBound _ _ _ _ _
    · rw [Change.old_of_insert hfinds]
      exact .sessionAccepted _ _ _ _ rfl
  | rejected _ request _ _ rejects _ =>
    obtain rfl := List.mem_singleton.mp hmem
    rw [hfound (r := request.row) List.mem_cons_self (request.decide_key _ _).symm]
    exact .rejected _ _ _ _ _ rejects
  | approved decision request held now updates changes approves active approved =>
    rcases List.mem_cons.mp hmem with rfl | hmore
    · rw [hfound (r := request.row) List.mem_cons_self (request.decide_key _ _).symm]
      exact .approved _ _ _ _ _ _ approves active approved
    · cases approved with
      | emailChange _ => exact absurd hmore List.not_mem_nil
      | mfaReset _ => exact absurd hmore List.not_mem_nil
      | suspend row subject found action =>
        obtain rfl := List.mem_singleton.mp hmore
        have hid := Db.subject?_id found
        have hsubject := Db.subject?_eq_some found
        rw [show old = some (.subject subject) by rw [hold, ← hsubject, ← hid]; rfl]
        exact .suspended _ _ _ _ _ action hid
      | reinstate row subject found action =>
        obtain rfl := List.mem_singleton.mp hmore
        have hid := Db.subject?_id found
        have hsubject := Db.subject?_eq_some found
        rw [show old = some (.subject subject) by rw [hold, ← hsubject, ← hid]; rfl]
        exact .reinstated _ _ _ _ _ action hid
  | completionTaken _ change _ _ =>
    obtain rfl := List.mem_singleton.mp hmem
    rw [hfound (r := .emailChange change) List.mem_cons_self rfl]
    have hopen : change.isOpen = true := by simp [EmailChangeRequest.isOpen, hchecked.1.approved]
    exact .ended _ _ 0 _ _ (.change _ _ hopen)
  | changeCompleted _ change _ _ subject found =>
    rcases List.mem_cons.mp hmem with rfl | hmem
    · have hid := Db.subject?_id found
      have hsubject := Db.subject?_eq_some found
      rw [show old = some (.subject subject) by rw [hold, ← hsubject, ← hid]; rfl]
      exact .moved _ _ _ _ _ hid rfl
    · obtain rfl := List.mem_singleton.mp hmem
      rw [hfound (r := .emailChange change) List.mem_cons_self rfl]
      exact .completed _ _ _ _ _ _
  | proposed _ _ other =>
    obtain rfl := List.mem_singleton.mp hmem
    rw [Change.old_of_insert hfinds]
    exact .proposed _ _ other
  | ended held now status update rest =>
    rcases Update.changes_cases hmem with ⟨challenge, rfl, rfl⟩ | ⟨row, hrow, new, hnew, rfl⟩
    · rw [Change.old_of_insert hfinds]
      exact .issued _ _ _ _ _
    · have hends := Update.ends_of_row hnew
      rw [Change.row, hends.key_eq, lookup_of_mem hrow] at hold
      exact hold ▸ .ended _ _ _ _ _ hends
  | _ => exact absurd hmem List.not_mem_nil

/-- A row that a stage goes on with was there and is left alone, or has been locked, or is
the one that is written. -/
theorem Moves.captured (h : Moves view stage next changes) {r : Row} (hr : r ∈ next.captured) :
    (r ∈ stage.captured ∧ ∀ change ∈ changes, change.row.key ≠ r.key) ∨
      (r ∈ view.rows ∧ changes = [] ∧ (.row r.key, .exclusive) ∈ next.held) ∨
      changes = [.update r] := by
  cases h with
  | signInConsumed _ _ _ _ =>
    obtain rfl := List.mem_singleton.mp hr
    exact .inr (.inr rfl)
  | invitationFound _ _ _ found _ =>
    obtain rfl := List.mem_singleton.mp hr
    exact .inr (.inl ⟨Db.mem_of_lookup (Db.invitation?_eq_some found), rfl, List.mem_cons_self⟩)
  | acceptanceLocked _ _ _ found =>
    obtain rfl := List.mem_singleton.mp hr
    exact .inr (.inl ⟨(Db.pendingInvitation_eq_some found).1, rfl, List.mem_cons_self⟩)
  | acceptanceConsumed _ _ _ _ _ =>
    rcases List.mem_cons.mp hr with rfl | hr
    · exact .inl ⟨List.mem_cons_self, by simp [Change.row, Row.key]⟩
    · obtain rfl := List.mem_singleton.mp hr
      exact .inr (.inr rfl)
  | requestLocked _ _ _ _ found _ _ _ =>
    obtain rfl := List.mem_singleton.mp hr
    exact .inr (.inl ⟨(Db.request?_eq_some found).1, rfl, List.mem_cons_self⟩)
  | completionConsumed _ _ _ _ _ =>
    obtain rfl := List.mem_singleton.mp hr
    exact .inr (.inr rfl)
  | changeLocked _ _ _ _ _ _ found _ =>
    obtain rfl := List.mem_singleton.mp hr
    exact .inr (.inl ⟨Db.mem_of_lookup (Db.emailChange?_eq_some found), rfl, List.mem_cons_self⟩)
  | acceptanceAddressLocked _ _ _ _ => exact .inl ⟨hr, by simp⟩
  | acceptanceFree _ _ _ _ _ => exact .inl ⟨hr, by simp⟩
  | decisionRejected _ _ _ _ _ => exact .inl ⟨hr, by simp⟩
  | decisionChecked _ _ _ _ => exact .inl ⟨hr, by simp⟩
  | decisionSeparated _ _ _ _ _ _ => exact .inl ⟨hr, by simp⟩
  | changeHolderLocked _ _ _ _ _ => exact .inl ⟨hr, by simp⟩
  | completionAddressLocked _ _ _ _ => exact .inl ⟨hr, by simp⟩
  | completionFree _ _ _ _ _ => exact .inl ⟨hr, by simp⟩
  | _ => exact absurd hr List.not_mem_nil

end Reads

/-! ## Transactions between two statements -/

section Ok

variable {view : Db} {stage next : Stage} {changes : List (Change Row)} {new : Row}

theorem Apart.undecided {subjectId : Uuid} {requestedBy : Option Uuid} :
    Apart subjectId requestedBy none where
  proposer _ h := by cases h
  subject h := by cases h

theorem Undecided.apart {decision : Decision} {request : RequestRow} {held : Locks}
    (h : Undecided decision request held) :
    Apart request.subjectId request.requestedBy (some decision.decidedBy) where
  proposer _ hactor := Option.some.inj hactor ▸ h.proposer
  subject hself := h.target (Option.some.inj hself).symm

theorem Ends.ok {now : Nat} {old : Row} (h : Ends now old new) (hok : old.Ok) : new.Ok := by
  cases h with
  | change _ _ _ => exact ⟨hok.1, hok.2.1, nofun⟩
  | reset _ _ _ => exact ⟨hok.1, nofun⟩
  | window row approved => exact ⟨hok.1, fun hpending => by cases approved.symm.trans hpending⟩
  | suspension _ _ _ => exact ⟨hok.1, hok.2.1, nofun⟩
  | _ => exact hok

theorem Decision.state_ne_pending (decision : Decision) : decision.state ≠ .pending := by
  unfold Decision.state
  split <;> nofun

theorem Decision.emailChangeState_ne_pending (decision : Decision) :
    decision.emailChangeState ≠ .pending := by
  unfold Decision.emailChangeState
  split <;> nofun

theorem RequestRow.decide_ok {decision : Decision} {request : RequestRow} {held : Locks} {now : Nat}
    (h : Undecided decision request held) (hok : request.row.Ok) :
    (request.decide decision now).Ok := by
  cases request with
  | emailChange row =>
    exact ⟨hok.1, h.apart, fun hpending => absurd hpending decision.emailChangeState_ne_pending⟩
  | mfaReset row => exact ⟨h.apart, fun hpending => absurd hpending decision.state_ne_pending⟩
  | suspension row =>
    exact ⟨hok.1, h.apart, fun hpending => absurd hpending decision.state_ne_pending⟩

theorem newChallenge_ok {id codeHmac now : Nat} {purpose : Purpose} {email : Text}
    {tenantId subjectId invitationId emailChangeId : Option Uuid}
    (h : purpose = .invitation → subjectId = none) :
    (Row.emailChallenge (newChallenge id purpose email tenantId subjectId invitationId emailChangeId
      codeHmac now)).Ok :=
  ⟨Nat.zero_le _, fun hpurpose _ => h hpurpose, fun _ hconsumed => absurd rfl hconsumed⟩

/-- Every challenge that a stage still has to issue is well-formed. -/
def Stage.IssuesOk : Stage → Prop
  | .ending _ _ _ updates => ∀ challenge, .issue challenge ∈ updates → (Row.emailChallenge challenge).Ok
  | _ => True

/-- Rows that are well-formed are written over with well-formed rows. -/
theorem Effect.ok {old : Option Row} (h : Effect view changes stage next old new) (hchecked : stage.Checked)
    (hissues : stage.IssuesOk) (hok : ∀ r ∈ old, r.Ok) : new.Ok := by
  cases h with
  | issued challenge => exact hissues challenge List.mem_cons_self
  | ended _ _ _ _ _ ends => exact ends.ok (hok _ rfl)
  | attempted _ _ row live attempts =>
    obtain ⟨-, hunbound, hbound⟩ := hok _ rfl
    exact ⟨attempts, hunbound, hbound⟩
  | consumed _ _ _ row live attempts account =>
    exact ⟨attempts, fun _ => nofun, fun hpurpose _ => account.resolve_right hpurpose⟩
  | addressTaken request _ _ _ =>
    cases request with
    | invite _ => trivial
    | change _ => exact ⟨hchecked.1.byOther, .undecided, fun _ => ⟨rfl, rfl⟩⟩
  | codeBound _ _ challenge _ _ =>
    obtain ⟨hattempts, -, -⟩ := hok _ rfl
    exact ⟨hattempts, fun _ => nofun, fun _ _ => nofun⟩
  | rejected _ _ _ _ _ _ => exact RequestRow.decide_ok hchecked.1 (hok _ rfl)
  | approved _ _ _ _ _ _ _ _ _ => exact RequestRow.decide_ok hchecked.1 (hok _ rfl)
  | completed _ change _ _ _ _ =>
    obtain ⟨hother, hapart, -⟩ := hok (.emailChange change) rfl
    exact ⟨hother, hapart, nofun⟩
  | proposed proposal _ other =>
    unfold Proposal.row
    split
    · exact ⟨.undecided, fun _ => ⟨rfl, rfl⟩⟩
    next action haction =>
      refine ⟨fun hself => other ?_ hself.symm, .undecided, fun _ => ⟨rfl, rfl⟩⟩
      simp [haction]
  | _ => trivial

end Ok

/-- What a transaction has checked and has yet to issue, and the rows it goes on with, in what
it sees. -/
structure Reads (t : Table Row.key) (p : Point Row Stage) : Prop where
  checked : p.stage.Checked
  issues : p.stage.IssuesOk
  captured : ∀ r ∈ p.stage.captured, r ∈ putAll t p.writes ∧
    (.row r.key, .exclusive) ∈ program.protocol.locks p
  ok : ∀ r ∈ putAll t p.writes, r.Ok

/-- A statement that succeeds, with what it writes. -/
structure Ran (db : Db) (p : Point Row Stage) (next : Stage) (changes : List (Change Row))
    (writes : List (Write Row)) : Prop where
  reads : Reads db.rows p
  moves : Moves (db.write p.writes) p.stage next changes
  recorded : record Row.uniques Refusal.violation (putAll db.rows p.writes) changes = .ok writes
  /-- What is left to do is done in turn. -/
  ends : ∀ held now status update rest, p.stage = .ending held now status (update :: rest) →
    next = .ending (update.references ++ held) now status rest ∧
      changes = update.changes now (db.write p.writes)

section Reads

variable {db : Db} {p q : Point Row Stage} {stage next : Stage} {changes : List (Change Row)}
  {writes : List (Write Row)} {given : Given}

theorem Reads.ran (h : Reads db.rows p)
    (ran : statement (db.write p.writes) p.stage given = .ok (next, changes))
    (hrecord : record Row.uniques Refusal.violation (putAll db.rows p.writes) changes = .ok writes) :
    Ran db p next changes writes := by
  refine ⟨h, moves_of_statement ran, hrecord, fun held now status update rest hstage => ?_⟩
  rw [hstage] at ran
  cases ran
  exact ⟨rfl, rfl⟩

theorem Ran.fits (h : Ran db p next changes writes) : Fits (putAll db.rows p.writes) writes :=
  (record_fits h.recorded).1

theorem Ran.effects (h : Ran db p next changes writes) : ∀ write ∈ writes,
    Effect (db.write p.writes) changes p.stage next write.old write.new := by
  intro write hwrite
  obtain ⟨change, hmem, hrow, hfound, hfinds⟩ :=
    record_old h.recorded h.moves.distinct write hwrite
  rw [← hrow] at hfound ⊢
  exact h.moves.effect h.reads.checked (fun r hr => (h.reads.captured r hr).1) hmem hfound hfinds

/-- What is written over is there before. -/
theorem Ran.old_mem (h : Ran db p next changes writes) {write : Write Row} (hwrite : write ∈ writes)
    {old : Row} (hold : old ∈ write.old) : old ∈ putAll db.rows p.writes := by
  obtain ⟨_, _, _, hfound, -⟩ := record_old h.recorded h.moves.distinct write hwrite
  exact (Table.lookup_eq_some.mp (hfound.symm.trans hold)).1

/-- What is written is there after. -/
theorem Ran.new_mem (h : Ran db p next changes writes) :
    ∀ change ∈ changes, change.row ∈ putAll (putAll db.rows p.writes) writes :=
  record_mem h.recorded h.moves.distinct

/-- A row that an UPDATE ends is there as the UPDATE leaves it. -/
theorem Ran.ended (h : Ran db p next changes writes) {held : Locks} {now : Nat} {status : Status}
    {update : Update} {rest : List Update}
    (hstage : p.stage = .ending held now status (update :: rest)) {r s new : Row}
    (hr : r ∈ putAll db.rows p.writes) (hs : s ∈ putAll (putAll db.rows p.writes) writes)
    (hkey : r.key = s.key) (hnew : update.row now (db.write p.writes) r = some new) : s = new := by
  obtain ⟨-, hchanges⟩ := h.ends _ _ _ _ _ hstage
  have hwritten := h.new_mem (.update new) (hchanges ▸ Update.mem_changes hr hnew)
  refine Table.eq_of_key hs hwritten ?_
  rw [← hkey]
  exact (Update.ends_of_row hnew).key_eq.symm

/-- What has been locked stays locked. -/
theorem Ran.locks_subset (h : Ran db p next changes writes) :
    ∀ lock ∈ program.protocol.locks p, lock ∈ program.protocol.locks ⟨next, p.writes ++ writes⟩ := by
  intro lock hlock
  rcases List.mem_append.mp hlock with hlock | hlock
  · exact List.mem_append_left _ (h.moves.held_subset hlock)
  · refine List.mem_append_right _ ?_
    rw [List.flatMap_append]
    exact List.mem_append_left _ hlock

theorem Moves.issues {view : Db} (h : Moves view stage next changes) (hissues : stage.IssuesOk) :
    next.IssuesOk := by
  cases h with
  | started _ _ _ _ started =>
    intro challenge hmem
    cases started <;>
      (simp only [List.mem_cons, reduceCtorEq, Update.issue.injEq, List.not_mem_nil, or_false,
        false_or] at hmem
       subst hmem
       exact newChallenge_ok (by simp))
  | approved _ _ _ _ _ _ _ _ approved =>
    intro challenge hmem
    cases approved with
    | emailChange row =>
      simp only [List.mem_cons, reduceCtorEq, Update.issue.injEq, List.not_mem_nil, or_false,
        false_or] at hmem
      subst hmem
      exact newChallenge_ok (by simp)
    | mfaReset row => simp [resetUpdates] at hmem
    | suspend row subject _ _ =>
      cases hemail : subject.email <;> simp [suspensionUpdates, hemail] at hmem
    | reinstate row subject _ _ => simp at hmem
  | changeCompleted _ change _ _ subject _ =>
    intro challenge hmem
    cases hemail : subject.email <;> simp [completionUpdates, hemail] at hmem
  | ended held now status update rest =>
    exact fun challenge hmem => hissues challenge (List.mem_cons_of_mem _ hmem)
  | refused _ _ _ _ _ _ => exact fun _ hmem => absurd hmem List.not_mem_nil
  | compared _ _ _ _ _ _ _ _ _ _ => exact fun _ hmem => absurd hmem List.not_mem_nil
  | sessionOpened _ _ _ _ _ => exact fun _ hmem => absurd hmem List.not_mem_nil
  | addressTaken _ _ _ _ => exact fun _ hmem => absurd hmem List.not_mem_nil
  | invitationRevoked _ _ _ => exact fun _ hmem => by simp at hmem
  | acceptanceTaken _ _ _ _ => exact fun _ hmem => absurd hmem List.not_mem_nil
  | invitationAccepted _ _ _ _ => exact fun _ hmem => absurd hmem List.not_mem_nil
  | rejected _ _ _ _ _ _ => exact fun _ hmem => absurd hmem List.not_mem_nil
  | completionTaken _ _ _ _ => exact fun _ hmem => absurd hmem List.not_mem_nil
  | proposed _ _ _ => exact fun _ hmem => absurd hmem List.not_mem_nil
  | _ => trivial

theorem Ran.reads_next (h : Ran db p next changes writes) :
    Reads db.rows ⟨next, p.writes ++ writes⟩ := by
  refine ⟨h.moves.checked h.reads.checked h.reads.ok, h.moves.issues h.reads.issues,
    fun r hr => ?_, ?_⟩
  · rw [putAll_append]
    rcases h.moves.captured hr with ⟨hbefore, hother⟩ | ⟨hview, hnone, hlocked⟩ | hone
    · obtain ⟨hmem, hlocked⟩ := h.reads.captured r hbefore
      refine ⟨(mem_putAll_of_not_mem fun write hwrite => ?_).mpr hmem, h.locks_subset _ hlocked⟩
      obtain ⟨change, hchange, hrow, -⟩ := record_rows h.recorded write hwrite
      exact hrow ▸ hother change hchange
    · obtain rfl := record_nil.mp (hnone ▸ h.recorded)
      exact ⟨hview, List.mem_append_left _ hlocked⟩
    · obtain ⟨old, -, rfl⟩ := record_update_single (hone ▸ h.recorded)
      have hwrite : (⟨some old, r⟩ : Write Row) ∈ p.writes ++ [⟨some old, r⟩] :=
        List.mem_append_right _ List.mem_cons_self
      have hlocked := Program.mem_locks_row (P := program) (p := ⟨next, _⟩) hwrite
      exact ⟨Table.mem_put_self, hlocked⟩
  · rw [putAll_append]
    intro r hr
    rcases mem_of_mem_putAll hr with hr | ⟨write, hwrite, rfl⟩
    · exact h.reads.ok r hr
    · exact (h.effects write hwrite).ok h.reads.checked h.reads.issues
        fun old hold => h.reads.ok old (h.old_mem hwrite hold)

theorem Reads.stable (h : Reads db.rows p) (hq : Reads db.rows q)
    (apart : program.protocol.Compatible p q) : Reads (putAll db.rows q.writes) p where
  checked := h.checked
  issues := h.issues
  captured r hr := by
    obtain ⟨hmem, hlocked⟩ := h.captured r hr
    exact ⟨(mem_view_locked apart hlocked).mpr hmem, hlocked⟩
  ok r hr := by
    rcases mem_view_cases apart hr with hr | ⟨-, hr, -⟩
    · exact h.ok r hr
    · exact hq.ok r hr

variable {W : Type}

theorem reads_maintain {ok : State W Db (Point Row Stage) → Action W Given → Prop} :
    program.protocol.Maintains ok (fun db => ∀ r ∈ db.rows, r.Ok) (fun db p => Reads db.rows p) := by
  constructor
  case idle =>
    intro db hok
    refine ⟨trivial, trivial, fun r hr => ?_, hok⟩
    cases hr
  case statement =>
    intro s w input q sound _ ran
    obtain ⟨changes, writes, hran, hrecord, hq⟩ := Program.statement_ok ran
    rw [hq]
    exact ((sound.relies w).ran hran hrecord).reads_next
  case commit =>
    intro s w f sound _ done
    obtain ⟨-, rfl⟩ := Program.effect_some done
    exact (sound.relies w).ok
  case stable =>
    intro s w v f sound _ hne done
    obtain ⟨-, rfl⟩ := Program.effect_some done
    exact (sound.relies v).stable (sound.relies w) (sound.compatible v w hne)
  case outside =>
    intro s input db sound moved
    cases moved
    exact ⟨sound.committed, sound.relies⟩

/-- What holds of every run: unique entries stay distinct, rows well-formed, and what a
transaction has written and read is as it left it. -/
theorem base_maintains :
    program.protocol.Maintains (fun (_ : State W Db (Point Row Stage)) (_ : Action W Given) => True)
      (fun db => Distinct Row.uniques db.rows ∧ ∀ r ∈ db.rows, r.Ok)
      (fun db p => program.Fitting db p ∧ Reads db.rows p) :=
  Program.writes_maintains.and reads_maintain

end Reads

end MpcRegistry.Accounts
