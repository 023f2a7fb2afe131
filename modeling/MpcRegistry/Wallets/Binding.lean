import MpcRegistry.Library.Utf16
import MpcRegistry.Library.WriteSet

/-!
# Signing wallets

Source: packages/db/migrations/0130_single_signing_wallet.sql:247-628,
0118_account_recovery_hardening.sql:600-638 and the disable route of
apps/api/src/routes/admin.ts:420-545. Statements on rows that their transaction has locked
are taken together. The strength of a session can only refuse a request, as an abort does;
it is left out, and so are the assurance levels and what is answered for the audit. Tables
lose no rows here: what is deleted is marked.
-/
namespace MpcRegistry.Wallets
open Library WriteSet ReadCommitted Utf16

/-! ## Rows -/

abbrev Uuid := Nat

/-- `core.sessions` -/
structure Session where
  id : Uuid
  tenantId : Uuid
  subjectId : Uuid
  expiresAt : Nat
  revokedAt : Option Nat
  deriving DecidableEq, Repr

/-- `core.wallet_identities` -/
structure WalletIdentity where
  id : Uuid
  tenantId : Uuid
  subjectId : Option Uuid
  walletAddress : Text
  chainId : Nat
  disabledAt : Option Nat
  version : Nat
  deriving DecidableEq, Repr

inductive ReasonCode where
  | keyLost | keyCompromised | rotation | offboarding | replaced | consolidatedSingleWallet
  deriving DecidableEq, Repr

/-- The reasons that a person gives. -/
def ReasonCode.personal : List ReasonCode := [keyLost, keyCompromised, rotation, offboarding]

inductive ReplaceCause where
  | rotation | keyLost | keyCompromised
  deriving DecidableEq, Repr

/-- `core.wallet_disable_events` -/
structure DisableEvent where
  id : Uuid
  walletIdentityId : Uuid
  reasonCode : ReasonCode
  replaceCause : Option ReplaceCause
  disabledBySubjectId : Option Uuid
  deriving DecidableEq, Repr

/-- `core.wallet_binding_challenges` -/
structure BindingChallenge where
  id : Uuid
  tenantId : Uuid
  subjectId : Uuid
  sessionId : Uuid
  walletAddress : Text
  chainId : Nat
  expiresAt : Nat
  consumedAt : Option Nat
  walletIdentityId : Option Uuid
  replacesWalletId : Option Uuid
  deleted : Bool
  deriving DecidableEq, Repr

inductive Row where
  | session (row : Session)
  | wallet (row : WalletIdentity)
  | disableEvent (row : DisableEvent)
  | challenge (row : BindingChallenge)
  deriving DecidableEq, Repr

/-- Subjects are only locked. -/
inductive TableName where
  | subjects | sessions | wallets | disableEvents | challenges
  deriving DecidableEq, Repr

def Row.key : Row → TableName × Uuid
  | session row => (.sessions, row.id)
  | wallet row => (.wallets, row.id)
  | disableEvent row => (.disableEvents, row.id)
  | challenge row => (.challenges, row.id)

/-- The two partial unique indexes. -/
inductive UniqueEntry where
  | activeAddress (walletAddress : Text) (chainId : Nat)
  | activeOf (subjectId : Uuid)
  deriving DecidableEq, Repr

def Row.uniques : Row → List UniqueEntry
  | wallet row =>
    if row.disabledAt = none then
      .activeAddress row.walletAddress row.chainId :: (row.subjectId.map .activeOf).toList
    else []
  | _ => []

abbrev Db := Database Row.key

/-! ## Reads -/

def Row.session? : Row → Option Session
  | session row => some row
  | _ => none

def Row.wallet? : Row → Option WalletIdentity
  | wallet row => some row
  | _ => none

def Row.disableEvent? : Row → Option DisableEvent
  | disableEvent row => some row
  | _ => none

def Row.challenge? : Row → Option BindingChallenge
  | challenge row => some row
  | _ => none

namespace Db

def session? (db : Db) (id : Uuid) : Option Session :=
  (db.rows.lookup (.sessions, id)).bind Row.session?

def wallet? (db : Db) (id : Uuid) : Option WalletIdentity :=
  (db.rows.lookup (.wallets, id)).bind Row.wallet?

def challenge? (db : Db) (id : Uuid) : Option BindingChallenge :=
  (db.rows.lookup (.challenges, id)).bind Row.challenge?

/-- The live session that `mfa_lock_session` answers. -/
def liveSession (db : Db) (tenantId sessionId : Uuid) (now : Nat) : Option Session :=
  (db.session? sessionId).filter fun row =>
    row.tenantId = tenantId ∧ row.revokedAt = none ∧ now < row.expiresAt

/-- The active wallet of a subject in its tenant. -/
def activeWallet (db : Db) (tenantId subjectId : Uuid) : Option WalletIdentity :=
  (db.rows.rows.filterMap Row.wallet?).find? fun row =>
    row.subjectId = some subjectId ∧ row.tenantId = tenantId ∧ row.disabledAt = none

/-- `LEFT JOIN core.wallet_disable_events` -/
def eventsOf (db : Db) (wallet : WalletIdentity) : List (Option DisableEvent) :=
  match (db.rows.rows.filterMap Row.disableEvent?).filter (·.walletIdentityId = wallet.id) with
  | [] => [none]
  | events => events.map some

end Db

/-- Whether a disabled wallet with this event keeps its address from the subject: compromised
or disabled by somebody else, from everybody; lost, consolidated or without an event, from
everybody but who held it. -/
def bars (wallet : WalletIdentity) (event : Option DisableEvent) (subjectId : Option Uuid) : Bool :=
  event.any (·.reasonCode = .keyCompromised) ||
    event.any (·.replaceCause = some .keyCompromised) ||
    event.any (fun row => row.reasonCode ≠ .consolidatedSingleWallet ∧
      row.disabledBySubjectId ≠ wallet.subjectId) ||
    ((event.isNone || event.any (·.reasonCode = .keyLost) ||
      event.any (·.replaceCause = some .keyLost) ||
      event.any (·.reasonCode = .consolidatedSingleWallet)) && wallet.subjectId ≠ subjectId)

/-- The query for the history of an address in every tenant. -/
def Db.unavailable (db : Db) (walletAddress : Text) (chainId : Nat) (subjectId : Option Uuid) : Bool :=
  (db.rows.rows.filterMap Row.wallet?).any fun row =>
    row.walletAddress = walletAddress && row.chainId = chainId && row.disabledAt.isSome &&
      (db.eventsOf row).any fun event => bars row event subjectId

/-! ## Requests -/

structure BindRequest where
  tenantId : Uuid
  sessionId : Uuid
  challengeId : Uuid
  signer : Text
  replaceCause : ReplaceCause
  deriving DecidableEq, Repr

structure DisableRequest where
  tenantId : Uuid
  sessionId : Uuid
  walletId : Uuid
  reasonCode : ReasonCode
  deriving DecidableEq, Repr

structure AdminDisableRequest where
  tenantId : Uuid
  actorSubjectId : Uuid
  walletId : Uuid
  expectedVersion : Nat
  reasonCode : ReasonCode
  deriving DecidableEq, Repr

inductive Request where
  | createChallenge (tenantId sessionId : Uuid) (wallet : Text) (chainId : Nat)
  | bind (request : BindRequest)
  | disableOwn (request : DisableRequest)
  | adminDisable (request : AdminDisableRequest)
  deriving DecidableEq, Repr

inductive Refusal where
  | mfaSessionInvalid
  | walletReasonInvalid
  | walletAlreadyActive
  | walletChallengeInvalid
  | walletUnavailable
  | walletUnknown
  | walletHistoryFrozen
  | foreignKeyViolation
  | notFound
  | versionMismatch (expected current : Nat)
  | walletDisableSelf
  | walletAlreadyDisabled (disabledAt : Nat)
  | outOfTurn
  deriving DecidableEq, Repr

/-- What a statement is told: the request an idle worker takes up, two new ids and the time
that passes. -/
structure Given where
  request : Request
  uuid : Uuid
  eventUuid : Uuid
  time : Nat

/-- `lower`, for the letters of an address. -/
def lower (text : Text) : Text :=
  text.map fun u => if 0x41 ≤ u ∧ u ≤ 0x5a then u + 0x20 else u

/-! ## Transactions -/

abbrev Locks := List (Lock (TableName × Uuid) UniqueEntry × LockMode)

def lockOf (table : TableName) (id : Uuid) : Lock (TableName × Uuid) UniqueEntry × LockMode :=
  (.row (table, id), .exclusive)

/-- What `mfa_lock_session` has locked. -/
def Session.locks (session : Session) : Locks :=
  [lockOf .subjects session.subjectId, lockOf .sessions session.id]

/-- What a request does next, with what it has read. -/
inductive Stage where
  | idle
  | begun (request : Request) (startedAt : Nat)
  | sessionLocked (request : Request) (session : Session) (startedAt : Nat)
  | challengeRead (request : BindRequest) (session : Session) (challenge : BindingChallenge)
      (startedAt : Nat)
  | activeRead (request : BindRequest) (session : Session) (challenge : BindingChallenge)
      (active : Option WalletIdentity) (startedAt : Nat)
  | historyRead (request : BindRequest) (session : Session) (challenge : BindingChallenge)
      (active : Option WalletIdentity) (startedAt : Nat)
  | holderLocked (request : AdminDisableRequest) (subjectId : Option Uuid) (startedAt : Nat)
  | done (held : Locks)
  deriving DecidableEq

/-- The locks besides those of the written rows. -/
def Stage.held : Stage → Locks
  | .sessionLocked _ session _ => session.locks
  | .challengeRead _ session challenge _ => lockOf .challenges challenge.id :: session.locks
  | .activeRead _ session challenge active _ =>
    (active.map fun row => lockOf .wallets row.id).toList ++
      lockOf .challenges challenge.id :: session.locks
  | .historyRead _ session challenge active _ =>
    (active.map fun row => lockOf .wallets row.id).toList ++
      lockOf .challenges challenge.id :: session.locks
  | .holderLocked _ subjectId _ => (subjectId.map fun id => lockOf .subjects id).toList
  | .done held => held
  | _ => []

def WalletIdentity.disable (row : WalletIdentity) (now : Nat) : WalletIdentity :=
  { row with disabledAt := some now, version := row.version + 1 }

section Statements

variable (db : Db) (given : Given)

/-- The UPDATE that disables a wallet, with the trigger `wallet_identities_frozen_when_disabled`.
Without the wallet, the reference of the event that comes with it is refused. -/
def disableWallet (walletId : Uuid) (now : Nat) : Except Refusal (List (Change Row)) :=
  match db.wallet? walletId with
  | none => .error .foreignKeyViolation
  | some row =>
    if row.disabledAt.isSome then .error .walletHistoryFrozen
    else .ok [.update (.wallet (row.disable now))]

/-- Every session of the subject ends. -/
def revokeSessions (subjectId : Uuid) (now : Nat) : List (Change Row) :=
  ((db.rows.rows.filterMap Row.session?).filter fun row =>
    row.subjectId = subjectId ∧ row.revokedAt = none).map fun row =>
      .update (.session { row with revokedAt := some now })

/-- The challenge of a session replaces the ones it has not used. -/
def deleteChallenges (sessionId : Uuid) : List (Change Row) :=
  ((db.rows.rows.filterMap Row.challenge?).filter fun row =>
    row.sessionId = sessionId ∧ row.consumedAt = none ∧ row.deleted = false).map fun row =>
      .update (.challenge { row with deleted := true })

def createWalletBindingChallenge (session : Session) (wallet : Text) (chainId startedAt : Nat) :
    Except Refusal (Stage × List (Change Row)) :=
  let active := db.activeWallet session.tenantId session.subjectId
  if active.any fun row => row.walletAddress = lower wallet ∧ row.chainId = chainId then
    .error .walletAlreadyActive
  else .ok (.done session.locks, deleteChallenges db session.id ++ [.insert (.challenge
    { id := given.uuid, tenantId := session.tenantId, subjectId := session.subjectId
      sessionId := session.id, walletAddress := lower wallet, chainId
      expiresAt := startedAt + 300, consumedAt := none, walletIdentityId := none
      replacesWalletId := active.map (·.id), deleted := false })])

/-- The challenge that a binding finds, if it is live and its wallet has signed. -/
def liveChallenge (request : BindRequest) (session : Session) (startedAt : Nat) :
    Option BindingChallenge :=
  (db.challenge? request.challengeId).filter fun row =>
    row.deleted = false ∧ row.sessionId = session.id ∧ row.tenantId = session.tenantId ∧
      row.subjectId = session.subjectId ∧ row.consumedAt = none ∧ startedAt < row.expiresAt ∧
      row.walletAddress = lower request.signer

/-- What replaces the active wallet: it is disabled, and an event says why. -/
def replaceWallet (request : BindRequest) (session : Session) (active : Option WalletIdentity)
    (startedAt : Nat) : Except Refusal (List (Change Row)) :=
  match active with
  | none => .ok []
  | some row => (disableWallet db row.id startedAt).map fun changes => changes ++
      [.insert (.disableEvent ⟨given.eventUuid, row.id, .replaced, some request.replaceCause,
        some session.subjectId⟩)]

def boundWallet (session : Session) (challenge : BindingChallenge) : WalletIdentity where
  id := given.uuid
  tenantId := session.tenantId
  subjectId := some session.subjectId
  walletAddress := challenge.walletAddress
  chainId := challenge.chainId
  disabledAt := none
  version := 1

def disableOwnWallet (request : DisableRequest) (session : Session) (startedAt : Nat) :
    Except Refusal (Stage × List (Change Row)) :=
  if request.reasonCode ∉ ReasonCode.personal then .error .walletReasonInvalid
  else
    match db.wallet? request.walletId with
    | none => .error .walletUnknown
    | some row =>
      if row.subjectId = some session.subjectId ∧ row.tenantId = session.tenantId ∧
          row.disabledAt = none then
        (disableWallet db row.id startedAt).map fun changes => (.done session.locks, changes ++
          .insert (.disableEvent ⟨given.eventUuid, row.id, request.reasonCode, none,
            some session.subjectId⟩) :: revokeSessions db session.subjectId startedAt)
      else .error .walletUnknown

def adminDisable (request : AdminDisableRequest) (held : Locks) (startedAt : Nat) :
    Except Refusal (Stage × List (Change Row)) :=
  match (db.wallet? request.walletId).filter (·.tenantId = request.tenantId) with
  | none => .error .notFound
  | some row =>
    if request.expectedVersion ≠ row.version then
      .error (.versionMismatch request.expectedVersion row.version)
    else if row.subjectId = some request.actorSubjectId then .error .walletDisableSelf
    else
      match row.disabledAt with
      | some disabledAt => .error (.walletAlreadyDisabled disabledAt)
      | none =>
        if request.reasonCode ∉ ReasonCode.personal then .error .walletReasonInvalid
        else (disableWallet db row.id startedAt).map fun changes => (.done held, changes ++
          .insert (.disableEvent ⟨given.eventUuid, row.id, request.reasonCode, none,
            some request.actorSubjectId⟩) ::
              (row.subjectId.map fun id => revokeSessions db id startedAt).getD [])

def lockSession (request : Request) (tenantId sessionId : Uuid) (startedAt : Nat) :
    Except Refusal (Stage × List (Change Row)) :=
  match db.liveSession tenantId sessionId startedAt with
  | none => .error .mfaSessionInvalid
  | some session => .ok (.sessionLocked request session startedAt, [])

def statement : Stage → Except Refusal (Stage × List (Change Row))
  | .idle => .ok (.begun given.request db.now, [])
  | .begun request startedAt =>
    match request with
    | .createChallenge tenantId sessionId _ _ => lockSession db request tenantId sessionId startedAt
    | .bind bind => lockSession db request bind.tenantId bind.sessionId startedAt
    | .disableOwn disable => lockSession db request disable.tenantId disable.sessionId startedAt
    | .adminDisable disable => .ok (.holderLocked disable
        (((db.wallet? disable.walletId).filter (·.tenantId = disable.tenantId)).bind (·.subjectId))
        startedAt, [])
  | .sessionLocked request session startedAt =>
    match request with
    | .createChallenge _ _ wallet chainId =>
      createWalletBindingChallenge db given session wallet chainId startedAt
    | .bind bind =>
      match liveChallenge db bind session startedAt with
      | none => .error .walletChallengeInvalid
      | some challenge => .ok (.challengeRead bind session challenge startedAt, [])
    | .disableOwn disable => disableOwnWallet db given disable session startedAt
    | .adminDisable _ => .error .outOfTurn
  | .challengeRead request session challenge startedAt =>
    let active := db.activeWallet session.tenantId session.subjectId
    if active.map (·.id) ≠ challenge.replacesWalletId then .error .walletChallengeInvalid
    else if active.any fun row => row.walletAddress = challenge.walletAddress ∧
        row.chainId = challenge.chainId then .error .walletAlreadyActive
    else .ok (.activeRead request session challenge active startedAt, [])
  | .activeRead request session challenge active startedAt =>
    if db.unavailable challenge.walletAddress challenge.chainId (some session.subjectId) then
      .error .walletUnavailable
    else .ok (.historyRead request session challenge active startedAt, [])
  | .historyRead request session challenge active startedAt =>
    (replaceWallet db given request session active startedAt).map fun changes =>
      (.done session.locks, changes ++ [.insert (.wallet (boundWallet given session challenge)),
        .update (.challenge { challenge with
          consumedAt := some startedAt, walletIdentityId := some given.uuid })])
  | .holderLocked request subjectId startedAt =>
    adminDisable db given request (Stage.held (.holderLocked request subjectId startedAt)) startedAt
  | .done _ => .error .outOfTurn

end Statements

def Stage.isDone : Stage → Bool
  | .done _ => true
  | _ => false

/-- A unique violation is answered as an address that is not available. -/
def program : Program Row.key Stage Given Refusal UniqueEntry where
  idle := .idle
  statement db stage given := statement db given stage
  done := Stage.isDone
  held := Stage.held
  uniques := Row.uniques
  violation := .walletUnavailable
  elapsed given := given.time
  held_idle := rfl

end MpcRegistry.Wallets
